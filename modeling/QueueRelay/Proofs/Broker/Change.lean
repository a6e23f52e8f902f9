/-
Changes of a broker that leave its accounts in order.

Everything that can happen to a broker comes down to a few kinds of change.  Most touch
neither the copies of a queue nor the channels.  Some put a new copy at the end of the
queue, and some change what the broker knows about one channel without touching what the
queue has out there.  A channel that opens has nothing out; a channel that closes gives back
what it had, in front of the queue it came from, and because at most one copy of a queue is
out, what it gives back belongs in front of everything that is ready.
-/
import QueueRelay.Proofs.Broker.Account

namespace QueueRelay.Broker

variable {b b' : Broker} {queue : String} {mine : Nat → Prop}

/-! ### The journal -/

theorem enqueuedOn_record (e : Event) :
    (b.record e).enqueuedOn queue = b.enqueuedOn queue ++ (e.enqueuedOn? queue).toList := by
  cases h : e.enqueuedOn? queue <;> simp [enqueuedOn, record, h]

theorem ackedFrom_record (e : Event) :
    (b.record e).ackedFrom queue = b.ackedFrom queue ++ (e.ackedFrom? queue).toList := by
  cases h : e.ackedFrom? queue <;> simp [ackedFrom, record, h]

/-! ### Changes beside the copies -/

/-- What is asked of a change that neither the copies of a queue nor any channel notice. -/
structure Quiet (queue : String) (b b' : Broker) : Prop where
  channels : b'.channels = b.channels
  connections : ∀ c ∈ b.connections, c ∈ b'.connections
  lastId : b.lastId ≤ b'.lastId
  ready : b'.ready queue = b.ready queue
  contains : b.queues.contains queue = true → b'.queues.contains queue = true
  enqueued : b'.enqueuedOn queue = b.enqueuedOn queue
  acked : b'.ackedFrom queue = b.ackedFrom queue

theorem Sound.congr (h : b.Sound) (hc : b'.channels = b.channels)
    (hn : ∀ c ∈ b.connections, c ∈ b'.connections) (hi : b.lastId ≤ b'.lastId) :
    b'.Sound where
  nodup := by
    rw [hc]
    exact h.nodup
  known := by
    intro k hk
    rw [hc] at hk
    exact Nat.le_trans (h.known k hk) hi
  emptied := by
    rw [hc]
    exact h.emptied
  anchored := by
    intro k lane hl ho
    rw [hc] at hl
    exact hn _ (h.anchored k lane hl ho)

/-- What is said of the copies of a queue depends on where they are and no more. -/
theorem Balanced.congr (h : b.Balanced queue)
    (hout : b'.outstanding queue = b.outstanding queue) (hready : b'.ready queue = b.ready queue)
    (hcontains : b.queues.contains queue = true → b'.queues.contains queue = true)
    (henq : b'.enqueuedOn queue = b.enqueuedOn queue)
    (hack : b'.ackedFrom queue = b.ackedFrom queue) : b'.Balanced queue where
  conserved := by
    rw [hack, hout, hready, henq]
    exact h.conserved
  single := by
    rw [hout]
    exact h.single
  rooted := by
    intro hne
    rw [hout] at hne
    exact hcontains (h.rooted hne)

theorem Quiet.follows (hq : Quiet queue b b') (h : b.Sound) : Unnoticed queue mine b b' where
  sound := h.congr hq.channels hq.connections hq.lastId
  balanced := by
    intro hb
    have hout : b'.outstanding queue = b.outstanding queue :=
      congrArg (copiesFrom queue) (loans_congr hq.channels)
    exact hb.congr hout hq.ready hq.contains hq.enqueued hq.acked
  loans := by
    intro x hx
    rw [loans_congr hq.channels] at hx
    exact .inl hx
  acked := by rw [hq.acked, List.append_nil]
  lanes := by
    intro k lane hl
    rw [hq.channels]
    exact ⟨lane, hl, rfl⟩
  lastId := hq.lastId

/-- A change of nothing but exchanges, bindings and what was arranged is not noticed. -/
theorem follows_beside (h : b.Sound) (hc : b'.channels = b.channels)
    (hn : b'.connections = b.connections) (hi : b'.lastId = b.lastId)
    (hq : b'.queues = b.queues) (hj : b'.journal = b.journal) : Unnoticed queue mine b b' := by
  have hready : b'.ready queue = b.ready queue := by
    unfold ready
    rw [hq]
  have henq : b'.enqueuedOn queue = b.enqueuedOn queue := by
    unfold enqueuedOn
    rw [hj]
  have hack : b'.ackedFrom queue = b.ackedFrom queue := by
    unfold ackedFrom
    rw [hj]
  have hquiet : Quiet queue b b' :=
    { channels := hc
      connections := by
        rw [hn]
        exact fun _ hm => hm
      lastId := Nat.le_of_eq hi.symm
      ready := hready
      contains := by
        rw [hq]
        exact id
      enqueued := henq
      acked := hack }
  exact hquiet.follows h

/-- Writing down an event that is about no copy is not noticed. -/
theorem follows_record (h : b.Sound) {e : Event} (he : e.enqueuedOn? queue = none)
    (ha : e.ackedFrom? queue = none) : Unnoticed queue mine b (b.record e) :=
  Quiet.follows
    { channels := rfl
      connections := fun _ hc => hc
      lastId := Nat.le_refl _
      ready := rfl
      contains := id
      enqueued := by rw [enqueuedOn_record, he, Option.toList_none, List.append_nil]
      acked := by rw [ackedFrom_record, ha, Option.toList_none, List.append_nil] } h

/-! ### Queues -/

theorem ready_modify {name : String} {f : Queue → Queue}
    (h : b'.queues = b.queues.modify name f) (hf : name ≠ queue) :
    b'.ready queue = b.ready queue := by
  unfold ready
  rw [h, Table.get?_modify, if_neg hf]

theorem ready_modify_self {f : Queue → Queue} {g : List Copy → List Copy}
    (h : b'.queues = b.queues.modify queue f) (hc : b.queues.contains queue = true)
    (hf : ∀ q, (f q).ready = g q.ready) : b'.ready queue = g (b.ready queue) := by
  obtain ⟨q, hq⟩ := Table.exists_get?_of_contains hc
  unfold ready
  rw [h, Table.get?_modify, if_pos rfl, hq]
  exact hf q

/-- A new copy goes to the end of its queue. -/
theorem follows_enqueue (h : b.Sound) {name key : String} {payload : ByteArray}
    (hc : b.queues.contains name = true) :
    Unnoticed queue mine b (enqueue key payload b name) := by
  let copy : Copy := { number := b.copies, payload := payload, key := key }
  have hqueues : (enqueue key payload b name).queues =
      b.queues.modify name fun q => { q with ready := q.ready ++ [copy] } := rfl
  by_cases hname : name = queue
  · subst hname
    have hready : (enqueue key payload b name).ready name = b.ready name ++ [copy] :=
      ready_modify_self (g := fun l => l ++ [copy]) hqueues hc fun _ => rfl
    have henq : (enqueue key payload b name).enqueuedOn name = b.enqueuedOn name ++ [copy] := by
      simp [enqueuedOn, enqueue, Event.enqueuedOn?, copy]
    have hack : (enqueue key payload b name).ackedFrom name = b.ackedFrom name := by
      simp [ackedFrom, enqueue, Event.ackedFrom?]
    exact
      { sound := h.congr rfl (fun _ hc => hc) (Nat.le_refl _)
        balanced := by
          intro hb
          refine ⟨?_, hb.single, fun _ => (Table.contains_modify _).trans hc⟩
          have hout : (enqueue key payload b name).outstanding name = b.outstanding name := rfl
          have hmore := congrArg (· ++ [copy].map Copy.fresh) hb.conserved
          rw [hready, henq, hack, hout]
          simpa only [List.map_append, List.append_assoc] using hmore
        loans := fun x hx => .inl hx
        acked := by rw [hack, List.append_nil]
        lanes := fun k lane hl => ⟨lane, hl, rfl⟩
        lastId := Nat.le_refl _ }
  · exact Quiet.follows
      { channels := rfl
        connections := fun _ hc => hc
        lastId := Nat.le_refl _
        ready := ready_modify hqueues hname
        contains := fun hq => (Table.contains_modify _).trans hq
        enqueued := by simp [enqueuedOn, enqueue, Event.enqueuedOn?, hname]
        acked := by simp [ackedFrom, enqueue, Event.ackedFrom?] } h

/-- A message only ever reaches queues that exist. -/
theorem contains_of_mem_route {exchange key name : String} (h : name ∈ b.route exchange key) :
    b.queues.contains name = true := by
  unfold route at h
  split at h
  · split at h
    · rename_i hk
      rw [List.mem_singleton.1 h]
      exact hk
    · cases h
  · split at h
    · cases h
    · obtain ⟨x, hx, rfl⟩ := List.mem_map.1 (List.mem_eraseDups.1 h)
      have hcarries := (List.mem_filter.1 hx).2
      simp only [carries, Bool.and_eq_true] at hcarries
      exact hcarries.1.2

theorem follows_enqueueAll (h : b.Sound) {key : String} {payload : ByteArray}
    {names : List String} (hc : ∀ name ∈ names, b.queues.contains name = true) :
    Unnoticed queue mine b (b.enqueueAll key payload names) := by
  unfold enqueueAll
  induction names generalizing b with
  | nil => exact .refl h
  | cons name names ih =>
      have hfirst : Unnoticed queue mine b (enqueue key payload b name) :=
        follows_enqueue h (hc name List.mem_cons_self)
      refine hfirst.trans (ih hfirst.sound ?_)
      intro other hother
      have hbefore : b.queues.contains other = true := hc other (List.mem_cons_of_mem _ hother)
      exact (Table.contains_modify _).trans hbefore

theorem follows_route (h : b.Sound) (exchange key : String) (payload : ByteArray) :
    Unnoticed queue mine b (b.enqueueAll key payload (b.route exchange key)) :=
  follows_enqueueAll h fun _ hname => contains_of_mem_route hname

/-! ### One channel -/

theorem channels_modifyLane (h : b.Sound) {s : Session} {lane : Lane}
    (hl : b.channels.get? s.channel = some lane) (f : Lane → Lane) :
    (b.modifyLane s f).channels = b.channels.set s.channel (f lane) :=
  Table.modify_eq_set h.nodup hl f

/-- What the broker knows about an open channel changes, but not what `queue` has out
there.  The queues may change along with it, though not in what is ready in `queue`. -/
theorem follows_lane (h : b.Sound) {k : Nat} {lane lane' : Lane}
    (hl : b.channels.get? k = some lane) (ho : lane.isOpen = true)
    (hc : b'.channels = b.channels.set k lane') (hn : b'.connections = b.connections)
    (hi : b'.lastId = b.lastId) (hconn : lane'.connection = lane.connection)
    (hopen : lane'.isOpen = true)
    (hcopies : copiesFrom queue (lane'.loans k) = copiesFrom queue (lane.loans k))
    (hloans : ∀ x ∈ lane'.loans k,
      x ∈ lane.loans k ∨ (x.delivery.queue ≠ queue ∧ ¬ mine x.channel))
    (hready : b'.ready queue = b.ready queue)
    (hcontains : b.queues.contains queue = true → b'.queues.contains queue = true)
    (henq : b'.enqueuedOn queue = b.enqueuedOn queue)
    (hack : b'.ackedFrom queue = b.ackedFrom queue) : Unnoticed queue mine b b' := by
  obtain ⟨before, after, hb, -, hset⟩ := loans_around h hl
  have hb' := hset b' lane' hc
  have hout : b'.outstanding queue = b.outstanding queue := by
    unfold outstanding
    rw [hb, hb']
    simp only [copiesFrom_append, hcopies]
  have hempty : lane'.isOpen = false → lane'.unacked.entries = [] := by
    intro hf
    rw [hopen] at hf
    cases hf
  exact
    { sound := h.set hl hc hn hi hconn (fun _ => ho) hempty
      balanced := fun hbal => hbal.congr hout hready hcontains henq hack
      loans := by
        intro x hx
        rw [hb'] at hx
        rw [hb]
        simp only [List.mem_append] at hx ⊢
        rcases hx with (hx | hx) | hx
        · exact .inl (.inl (.inl hx))
        · rcases hloans x hx with hx | hx
          · exact .inl (.inl (.inr hx))
          · exact .inr hx
        · exact .inl (.inr hx)
      acked := by rw [hack, List.append_nil]
      lanes := lanes_set hl hc hconn
      lastId := Nat.le_of_eq hi.symm }

/-! ### A new channel -/

/-- The number of the next channel was not given out before. -/
theorem succ_lastId_not_mem_keys (h : b.Sound) : b.lastId + 1 ∉ b.channels.keys := by
  intro hk
  have hle := h.known _ hk
  omega

theorem entries_openChannel (h : b.Sound) (c : Nat) :
    (b.openChannel c).channels.entries =
      b.channels.entries ++ [(b.lastId + 1, { connection := c })] :=
  Table.entries_set_of_not_mem (succ_lastId_not_mem_keys h) _

theorem get?_openChannel (c k : Nat) :
    (b.openChannel c).channels.get? k =
      if b.lastId + 1 = k then some { connection := c } else b.channels.get? k :=
  Table.get?_set _ _ _ _

/-- A channel that is opened has nothing out. -/
theorem loans_openChannel (h : b.Sound) (c : Nat) : (b.openChannel c).loans = b.loans := by
  unfold loans
  rw [entries_openChannel h]
  simp [Lane.loans, Table.empty]

theorem sound_openChannel (h : b.Sound) {c : Nat} (hc : c ∈ b.connections) :
    (b.openChannel c).Sound := by
  have hkeys : (b.openChannel c).channels.keys = b.channels.keys ++ [b.lastId + 1] := by
    simp [Table.keys, entries_openChannel h]
  refine ⟨?_, ?_, ?_, ?_⟩
  · rw [hkeys]
    refine List.nodup_append.2 ⟨h.nodup, by simp, ?_⟩
    intro k hk j hj hkj
    rw [hkj, List.mem_singleton.1 hj] at hk
    exact succ_lastId_not_mem_keys h hk
  · intro k hk
    rw [hkeys, List.mem_append, List.mem_singleton] at hk
    rcases hk with hk | rfl
    · exact Nat.le_succ_of_le (h.known k hk)
    · exact Nat.le_refl _
  · intro k lane hl ho
    rw [get?_openChannel] at hl
    split at hl
    · cases hl
      cases ho
    · exact h.emptied k lane hl ho
  · intro k lane hl ho
    rw [get?_openChannel] at hl
    split at hl
    · cases hl
      exact hc
    · exact h.anchored k lane hl ho

/-- A channel that is opened on an open connection is not noticed. -/
theorem follows_openChannel (h : b.Sound) {c : Nat} (hc : c ∈ b.connections) :
    Unnoticed queue mine b (b.openChannel c) where
  sound := sound_openChannel h hc
  balanced := by
    intro hb
    have hout : (b.openChannel c).outstanding queue = b.outstanding queue :=
      congrArg (copiesFrom queue) (loans_openChannel h c)
    exact hb.congr hout rfl id rfl rfl
  loans := by
    intro x hx
    rw [loans_openChannel h] at hx
    exact .inl hx
  acked := (List.append_nil _).symm
  lanes := by
    intro k lane hl
    refine ⟨lane, ?_, rfl⟩
    rw [get?_openChannel, if_neg]
    · exact hl
    · rintro rfl
      exact succ_lastId_not_mem_keys h (Table.mem_keys_of_get? hl)
  lastId := Nat.le_succ _

end QueueRelay.Broker

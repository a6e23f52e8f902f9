/-
What everything that can happen to a broker does to the places of its copies.

Most of it leaves the copies where they are.  What changes a channel moves deliveries
between the channel, the queues and what is gone, and it is enough to see that as many of
each came out as went in: `shifts_lane`.  A channel that closes and gives back what it had
is the first case of it.  Only publishing makes copies.
-/
import QueueRelay.Proofs.Broker.Places

namespace QueueRelay.Broker

variable {b b' : Broker} {s : Session} {settled : List Event}

/-! ### Changes beside the copies -/

/-- What no consumer at all would notice leaves the broker in order. -/
theorem sound_of_unnoticed (h : Unnoticed "" (fun _ => True) b b') : b'.Sound :=
  h.sound

/-- A change that neither a queue nor a channel nor the books on copies notice. -/
theorem shifts_beside (h : b.Placed) (hs : b'.Sound) (hc : b'.channels = b.channels)
    (hq : b'.queues = b.queues) (hm : b'.made = b.made) (hn : b'.copies = b.copies)
    (hset : b'.settlements = b.settlements) : Shifts [] b b' where
  placed := by
    refine ⟨hs, ?_, ?_, ?_, ?_, ?_, ?_⟩
    · rw [hq]
      exact h.names
    · rw [loans_congr hc, hq]
      exact h.rooted
    · rw [hc]
      exact h.tags
    · rw [hc]
      exact h.tagged
    · rw [hm, hn]
      exact h.numbered
    · rw [gone_congr hset, lent_congr hc, waiting_congr hq, hm]
      exact h.conserved
  settlements := by rw [hset, List.append_nil]

theorem made_record (e : Event) : (b.record e).made = b.made ++ e.made?.toList := by
  cases he : e.made? <;> simp [made, record, he]

theorem settlements_record (e : Event) :
    (b.record e).settlements = b.settlements ++ if e.gone?.isSome then [e] else [] := by
  by_cases he : e.gone?.isSome <;> simp [settlements, record, he]

/-- Writing down an event that is about no copy. -/
theorem shifts_record (h : b.Placed) {e : Event} (hm : e.made? = none) (hg : e.gone? = none) :
    Shifts [] b (b.record e) := by
  refine shifts_beside h ?_ rfl rfl ?_ rfl ?_
  · exact h.sound.congr rfl (fun _ hc => hc) (Nat.le_refl _)
  · rw [made_record, hm, Option.toList_none, List.append_nil]
  · rw [settlements_record, hg]
    exact List.append_nil _

/-- A change of nothing but exchanges, bindings and what was arranged. -/
theorem shifts_arranged (h : b.Placed) (hc : b'.channels = b.channels)
    (hn : b'.connections = b.connections) (hi : b'.lastId = b.lastId)
    (hq : b'.queues = b.queues) (hj : b'.journal = b.journal) (hk : b'.copies = b.copies) :
    Shifts [] b b' := by
  refine shifts_beside h ?_ hc hq ?_ hk ?_
  · exact h.sound.congr hc (fun _ hm => hn ▸ hm) (Nat.le_of_eq hi.symm)
  · unfold made
    rw [hj]
  · unfold settlements
    rw [hj]

/-! ### Queues -/

/-- A queue that is made anew under a name that was free has nothing ready. -/
theorem shifts_newQueue (h : b.Placed) {name : String} {q : Queue}
    (hn : b.queues.contains name = false) (hq : q.ready = []) :
    Shifts [] b { b with queues := b.queues.set name q } := by
  have hfree : name ∉ b.queues.keys := by
    intro hk
    rw [Table.contains_iff.2 hk] at hn
    cases hn
  have hentries := Table.entries_set_of_not_mem hfree q
  have hkeys : (b.queues.set name q).keys = b.queues.keys ++ [name] := by
    simp [Table.keys, hentries]
  have hwaiting : waiting { b with queues := b.queues.set name q } = b.waiting := by
    simp [waiting, hentries, hq]
  refine ⟨⟨h.sound.congr rfl (fun _ hc => hc) (Nat.le_refl _), ?_, ?_, h.tags, h.tagged,
    h.numbered, ?_⟩, (List.append_nil _).symm⟩
  · show (b.queues.set name q).keys.Nodup
    rw [hkeys]
    refine List.nodup_append.2 ⟨h.names, by simp, ?_⟩
    rintro k hk j hj rfl
    rw [List.mem_singleton.1 hj] at hk
    exact hfree hk
  · intro x hx
    exact Table.contains_set_of_contains (h.rooted x hx) q
  · rw [hwaiting]
    exact h.conserved

/-- A new copy waits on its queue. -/
theorem shifts_enqueue (h : b.Placed) {name key : String} {payload : ByteArray}
    (hc : b.queues.contains name = true) : Shifts [] b (enqueue key payload b name) := by
  let copy : Copy := { number := b.copies, payload := payload, key := key }
  have hmade : (enqueue key payload b name).made = b.made ++ [⟨name, copy⟩] := by
    simp [made, enqueue, Event.made?, copy]
  have hset : (enqueue key payload b name).settlements = b.settlements := by
    simp [settlements, enqueue, Event.gone?]
  have hwaiting : (enqueue key payload b name).waiting.Perm (⟨name, copy⟩ :: b.waiting) := by
    obtain ⟨q, hq⟩ := Table.exists_get?_of_contains hc
    obtain ⟨before, after, hbefore, hafter⟩ := waiting_around h.names hq
    rw [hafter (enqueue key payload b name) (fun q => { q with ready := q.ready ++ [copy] }) rfl,
      hbefore]
    have hmiddle : (before ++ q.ready.map (Delivery.mk name) ++ ⟨name, copy⟩ :: after).Perm
        (⟨name, copy⟩ :: (before ++ q.ready.map (Delivery.mk name) ++ after)) :=
      List.perm_middle
    simpa using hmiddle
  refine ⟨⟨h.sound.congr rfl (fun _ hc => hc) (Nat.le_refl _), ?_, ?_, h.tags, h.tagged, ?_, ?_⟩,
    hset.trans (List.append_nil _).symm⟩
  · exact (Table.keys_modify (t := b.queues) _).symm ▸ h.names
  · intro x hx
    exact (Table.contains_modify _).trans (h.rooted x hx)
  · rw [hmade, List.map_append, h.numbered]
    exact List.range_succ.symm
  · have hlent : (enqueue key payload b name).lent = b.lent := lent_congr rfl
    rw [hmade, gone_congr hset, hlent]
    refine List.perm_iff_count.2 fun d => ?_
    have hold := h.conserved.count_eq d
    have hnew := (hwaiting.map Delivery.fresh).count_eq d
    simp only [List.map_append, List.count_append, List.map_cons, List.map_nil,
      List.count_cons, List.count_nil] at hold hnew ⊢
    omega

theorem shifts_enqueueAll (h : b.Placed) {key : String} {payload : ByteArray}
    {names : List String} (hc : ∀ name ∈ names, b.queues.contains name = true) :
    Shifts [] b (b.enqueueAll key payload names) := by
  unfold enqueueAll
  induction names generalizing b with
  | nil => exact .refl h
  | cons name names ih =>
      have hfirst : Shifts [] b (enqueue key payload b name) :=
        shifts_enqueue h (hc name List.mem_cons_self)
      refine hfirst.trans (ih hfirst.placed ?_)
      intro other hother
      have hbefore : b.queues.contains other = true := hc other (List.mem_cons_of_mem _ hother)
      exact (Table.contains_modify _).trans hbefore

/-! ### One channel -/

/-- What the broker knows about one channel changes.  Deliveries may come to the channel from
a queue, go from it to a queue, and be settled, but as many come out as went in. -/
theorem shifts_lane (h : b.Placed) (hs : b'.Sound) {k : Nat} {lane lane' : Lane}
    (hl : b.channels.get? k = some lane) (hc : b'.channels = b.channels.set k lane')
    (hq : b'.queues.keys = b.queues.keys) (hm : b'.made = b.made) (hn : b'.copies = b.copies)
    (hset : b'.settlements = b.settlements ++ settled)
    (htags : lane'.unacked.keys.Nodup) (htagged : ∀ tag ∈ lane'.unacked.keys, tag ≤ lane'.lastTag)
    (hroot : ∀ e ∈ lane'.unacked.entries, b.queues.contains e.2.queue = true)
    (hmoved : ((settled.filterMap Event.gone? ++ lane'.unacked.entries.map Prod.snd ++
        b'.waiting).map Delivery.fresh).Perm
      ((lane.unacked.entries.map Prod.snd ++ b.waiting).map Delivery.fresh)) :
    Shifts settled b b' where
  placed := by
    have hcontains : ∀ name, b.queues.contains name = true → b'.queues.contains name = true := by
      intro name hname
      rw [Table.contains_iff, hq, ← Table.contains_iff]
      exact hname
    refine ⟨hs, hq ▸ h.names, ?_, ?_, ?_, ?_, ?_⟩
    · intro x hx
      obtain ⟨before, after, hb, -, hafter⟩ := loans_around h.sound hl
      rw [hafter b' lane' hc] at hx
      refine hcontains _ ?_
      simp only [List.mem_append] at hx
      rcases hx with (hx | hx) | hx
      · exact h.rooted x (by simp [hb, hx])
      · obtain ⟨e, he, rfl⟩ := List.mem_map.1 hx
        exact hroot e he
      · exact h.rooted x (by simp [hb, hx])
    · rw [hc]
      exact Table.forall_get?_set h.tags k htags
    · rw [hc]
      exact Table.forall_get?_set h.tagged k htagged
    · rw [hm, hn]
      exact h.numbered
    · obtain ⟨rest, hlent, hlent'⟩ := lent_around h.sound hl
      have hgone : b'.gone = b.gone ++ settled.filterMap Event.gone? := by
        unfold gone
        rw [hset, List.filterMap_append]
      rw [hm, hgone]
      refine List.perm_iff_count.2 fun d => ?_
      have hold := h.conserved.count_eq d
      have hbefore := (hlent.map Delivery.fresh).count_eq d
      have hafter := ((hlent' b' lane' hc).map Delivery.fresh).count_eq d
      have hmoved := hmoved.count_eq d
      simp only [List.map_append, List.count_append] at hold hbefore hafter hmoved ⊢
      omega
  settlements := hset

/-- A channel is given another limit. -/
theorem shifts_limited (h : b.Placed) {lane : Lane}
    (hl : b.channels.get? s.channel = some lane) (ho : lane.isOpen = true) (count : Nat) :
    Shifts [] b (b.modifyLane s fun lane => { lane with prefetch := count }) := by
  have hchannels := channels_modifyLane h.sound hl fun lane => { lane with prefetch := count }
  refine shifts_lane h ?_ hl hchannels rfl rfl rfl (List.append_nil _).symm (h.tags _ lane hl)
    (h.tagged _ lane hl) ?_ (.refl _)
  · refine h.sound.set hl hchannels rfl rfl rfl (fun _ => ho) ?_
    intro hf
    cases ho.symm.trans hf
  · intro e he
    exact h.rooted _ (mem_loans_of_get? hl he)

theorem shifts_setPrefetch (h : b.Placed) (count : Nat) :
    Shifts [] b (b.setPrefetch s count).2 := by
  unfold setPrefetch guarded
  split
  · rename_i u hu
    obtain ⟨lane, hl, ho⟩ := lane_of_check hu
    exact shifts_limited h hl ho count
  · exact .refl h

theorem shifts_openChannel (h : b.Placed) {c : Nat} (hc : c ∈ b.connections) :
    Shifts [] b (b.openChannel c) where
  placed := by
    have hlent : (b.openChannel c).lent = b.lent := by
      unfold lent
      rw [loans_openChannel h.sound]
    refine ⟨sound_openChannel h.sound hc, h.names, ?_, ?_, ?_, h.numbered, ?_⟩
    · rw [loans_openChannel h.sound]
      exact h.rooted
    · intro k lane hl
      rw [get?_openChannel] at hl
      split at hl
      · cases hl
        exact List.nodup_nil
      · exact h.tags k lane hl
    · intro k lane hl
      rw [get?_openChannel] at hl
      split at hl
      · cases hl
        intro x hx
        cases hx
      · exact h.tagged k lane hl
    · rw [hlent]
      exact h.conserved
  settlements := (List.append_nil _).symm

/-! ### Closing -/

/-- A channel that ends gives back what it had. -/
theorem shifts_shut (h : b.Placed) (hs : b'.Sound) {k : Nat} {lane : Lane}
    (hl : b.channels.get? k = some lane) (hc : b'.channels = b.channels.set k lane.shut)
    (hq : b'.queues = giveBackAll (lane.unacked.entries.map Prod.snd) b.queues)
    (hm : b'.made = b.made) (hn : b'.copies = b.copies)
    (hset : b'.settlements = b.settlements) : Shifts [] b b' := by
  have hroot : ∀ d ∈ lane.unacked.entries.map Prod.snd, b.queues.contains d.queue = true := by
    intro d hd
    obtain ⟨e, he, rfl⟩ := List.mem_map.1 hd
    exact h.rooted _ (mem_loans_of_get? hl he)
  have hkeys : b'.queues.keys = b.queues.keys := by
    rw [hq]
    exact keys_giveBackAll _ _
  refine shifts_lane h hs hl hc hkeys hm hn (hset.trans (List.append_nil _).symm)
    List.nodup_nil nofun nofun ?_
  have hback := (waiting_giveBackAll h.names hroot hq).map Delivery.fresh
  simpa [Lane.shut, Table.empty, Function.comp_def] using hback

theorem shifts_closeChannel (h : b.Placed) (k : Nat) (reason : String) :
    Shifts [] b (b.closeChannel k reason) := by
  have hs : (b.closeChannel k reason).Sound :=
    sound_of_unnoticed (follows_closeChannel h.sound k reason)
  unfold closeChannel at hs ⊢
  split
  · rename_i lane hl
    split
    · rename_i ho
      simp only [hl, if_pos ho] at hs
      refine shifts_shut h hs hl rfl rfl ?_ rfl ?_
      · simp [made, Event.made?]
      · simp [settlements, Event.gone?]
    · exact .refl h
  · exact .refl h

theorem shifts_closeAll (h : b.Placed) (ks : List Nat) (reason : String) :
    Shifts [] b (b.closeAll ks reason) :=
  Shifts.foldl (fun _ k hb => shifts_closeChannel hb k reason) ks h

theorem shifts_closeConnection (h : b.Placed) (c : Nat) (reason : String) :
    Shifts [] b (b.closeConnection c reason) := by
  have hs : (b.closeConnection c reason).Sound :=
    sound_of_unnoticed (follows_closeConnection h.sound c reason)
  rw [closeConnection_eq] at hs ⊢
  have hall := shifts_closeAll h (b.channelsOf c) reason
  exact hall.trans (shifts_beside hall.placed hs rfl rfl rfl rfl rfl)

theorem shifts_dropConnections (h : b.Placed) : Shifts [] b b.dropConnections :=
  Shifts.foldl (fun _ c hb => shifts_closeConnection hb c _) _ h

theorem shifts_closeSession (h : b.Placed) (s : Session) : Shifts [] b (b.closeSession s) :=
  shifts_closeConnection h _ _

theorem shifts_refuse {α : Type} (h : b.Placed) (reason : String) (e : LinkError) :
    Shifts [] b (b.refuse (α := α) s reason e).2 :=
  shifts_closeChannel h _ _

/-- Only a session with an open channel gets anything done. -/
theorem shifts_guarded {α : Type} {act : Broker → Except LinkError α × Broker} (h : b.Placed)
    (hact : Shifts [] b (act b).2) : Shifts [] b (b.guarded s act).2 := by
  unfold guarded
  split
  · exact hact
  · exact .refl h

/-! ### Opening -/

theorem shifts_withConnection (h : b.Placed) : Shifts [] b b.withConnection := by
  have hs : b.withConnection.Sound :=
    sound_of_unnoticed (follows_withConnection h.sound)
  exact shifts_beside h hs rfl rfl rfl rfl rfl

theorem shifts_connect (h : b.Placed) : Shifts [] b b.connect.2 := by
  unfold connect
  split
  · exact shifts_arranged h rfl rfl rfl rfl rfl rfl
  · have hnew := shifts_withConnection h
    exact hnew.trans (shifts_openChannel hnew.placed mem_withConnection)

theorem shifts_reopen (h : b.Placed) (s : Session) : Shifts [] b (b.reopen s).2.2 := by
  unfold reopen
  split
  · rename_i hc
    have hclosed := shifts_closeChannel h s.channel "reopened"
    refine hclosed.trans (shifts_openChannel hclosed.placed ?_)
    rw [connections_closeChannel]
    simpa using hc
  · exact .refl h

/-! ### Declarations and publishing -/

theorem shifts_declareExchange (h : b.Placed) (name : String) (kind : ExchangeKind)
    (how : Declaration) : Shifts [] b (b.declareExchange s name kind how).2 := by
  refine shifts_guarded h ?_
  dsimp only
  split
  · exact shifts_refuse h _ _
  · rename_i create hj
    have hmade : Shifts [] b (if create then
        { b with exchanges := b.exchanges.set name { kind := kind, durable := how.durable } }
        else b) := by
      split
      · exact shifts_arranged h rfl rfl rfl rfl rfl rfl
      · exact .refl h
    exact hmade.trans (shifts_record hmade.placed rfl rfl)

theorem shifts_declareQueue (h : b.Placed) (name : String) (how : Declaration) :
    Shifts [] b (b.declareQueue s name how).2 := by
  refine shifts_guarded h ?_
  dsimp only
  split
  · exact shifts_refuse h _ _
  · rename_i create hj
    have hmade : Shifts [] b (if create then
        { b with queues := b.queues.set name { durable := how.durable } } else b) := by
      split
      · rename_i hcreate
        subst hcreate
        have hn := Option.map_eq_none_iff.1 (conflicts_of_judge hj)
        refine shifts_newQueue h ?_ rfl
        rw [Bool.eq_false_iff]
        intro hc
        obtain ⟨q, hq⟩ := Table.exists_get?_of_contains hc
        cases hn.symm.trans hq
      · exact .refl h
    exact hmade.trans (shifts_record hmade.placed rfl rfl)

theorem shifts_addBinding (h : b.Placed) (x : Binding) : Shifts [] b (b.addBinding x) :=
  shifts_arranged h rfl rfl rfl rfl rfl rfl

theorem shifts_bind (h : b.Placed) (x : Binding) : Shifts [] b (b.bind s x).2 := by
  refine shifts_guarded h ?_
  split
  · have hadded := shifts_addBinding h x
    exact hadded.trans (shifts_record hadded.placed rfl rfl)
  · exact shifts_refuse h _ _

theorem shifts_route (h : b.Placed) (exchange key : String) (payload : ByteArray) :
    Shifts [] b (b.enqueueAll key payload (b.route exchange key)) :=
  shifts_enqueueAll h fun _ hname => contains_of_mem_route hname

theorem shifts_publish (h : b.Placed) (exchange key : String) (payload : ByteArray)
    (options : PublishOptions) : Shifts [] b (b.publish s exchange key payload options).2 := by
  refine shifts_guarded h ?_
  split
  · exact shifts_refuse h _ _
  · split
    · exact shifts_arranged h rfl rfl rfl rfl rfl rfl
    · dsimp only
      split
      · exact shifts_record h rfl rfl
      · have hrouted := shifts_route h exchange key payload
        exact hrouted.trans (shifts_record hrouted.placed rfl rfl)

theorem shifts_consume (h : b.Placed) (name : String) : Shifts [] b (b.consume s name).2 := by
  refine shifts_guarded h ?_
  split
  · exact .refl h
  · exact shifts_refuse h _ _

/-! ### Without a session -/

theorem shifts_ensureQueue (h : b.Placed) (name : String) : Shifts [] b (b.ensureQueue name) := by
  unfold ensureQueue
  split
  · exact .refl h
  · rename_i hc
    exact shifts_newQueue h (by simpa using hc) rfl

theorem shifts_ensureExchange (h : b.Placed) (name : String) (kind : ExchangeKind) :
    Shifts [] b (b.ensureExchange name kind) := by
  unfold ensureExchange
  split
  · exact .refl h
  · exact shifts_arranged h rfl rfl rfl rfl rfl rfl

open Simulation in
/-- What an operator does leaves the copies where they are, or gives them back. -/
theorem shifts_applyToBroker (h : b.Placed) (c : BrokerCall) :
    Shifts [] b (applyToBroker c b) := by
  cases c with
  | declareQueue name => exact shifts_ensureQueue h name
  | declareExchange name kind => exact shifts_ensureExchange h name kind
  | bind x => exact shifts_addBinding h x
  | provision =>
      have hexchange := shifts_ensureExchange h Topology.standard.exchange .direct
      have hqueue := hexchange.trans (shifts_ensureQueue hexchange.placed Topology.standard.queue)
      exact hqueue.trans (Shifts.foldl (fun _ key hb => shifts_addBinding hb _) _ hqueue.placed)
  | refuseConnects | denyDeclarations | nackPublishes =>
      exact shifts_arranged h rfl rfl rfl rfl rfl rfl
  | dropConnections => exact shifts_dropConnections h

end QueueRelay.Broker

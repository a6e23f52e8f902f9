/-
What calls on a session, and calls without one, do to the copies of a queue.

Almost every call is one nobody else needs to notice: `Follows`.  The calls that dispose of
a delivery, and the taking of one, are the exception.  On a session that has nothing of the
queue out they are not noticed either, and that is the only case here: it is what makes room
for other clients of the same broker.
-/
import QueueRelay.Proofs.Broker.Closing
import QueueRelay.Simulation.Perform

namespace QueueRelay.Broker

variable {b : Broker} {queue : String} {mine : Nat → Prop} {s : Session}

/-! ### Calls on an open session -/

theorem lane_of_check {u : Unit} (h : b.check s = .ok u) :
    ∃ lane, b.channels.get? s.channel = some lane ∧ lane.isOpen = true := by
  unfold check at h
  split at h
  · split at h
    · rename_i lane hl
      split at h
      · rename_i ho
        exact ⟨lane, hl, ho⟩
      · cases h
    · cases h
  · cases h

/-- Only a session with an open channel gets anything done. -/
theorem follows_guarded {α : Type} {act : Broker → Except LinkError α × Broker} (h : b.Sound)
    (hact : ∀ lane, b.channels.get? s.channel = some lane → lane.isOpen = true →
      Unnoticed queue mine b (act b).2) : Unnoticed queue mine b (b.guarded s act).2 := by
  unfold guarded
  split
  · rename_i u hu
    obtain ⟨lane, hl, ho⟩ := lane_of_check hu
    exact hact lane hl ho
  · exact .refl h

theorem follows_refuse {α : Type} (h : b.Sound) (reason : String) (e : LinkError) :
    Unnoticed queue mine b (b.refuse (α := α) s reason e).2 :=
  follows_closeChannel h _ _

/-! ### Declarations -/

/-- A queue that is made anew under a name that was free has nothing ready. -/
theorem quiet_newQueue {name : String} {q : Queue} (hn : b.queues.get? name = none)
    (hq : q.ready = []) : Quiet queue b { b with queues := b.queues.set name q } where
  channels := rfl
  connections := fun _ hc => hc
  lastId := Nat.le_refl _
  ready := by
    unfold ready
    dsimp only
    rw [Table.get?_set]
    by_cases hname : name = queue
    · subst hname
      rw [if_pos rfl, hn]
      exact hq
    · rw [if_neg hname]
  contains := fun hc => Table.contains_set_of_contains hc q
  enqueued := rfl
  acked := rfl

theorem follows_declareExchange (h : b.Sound) (name : String) (kind : ExchangeKind)
    (how : Declaration) : Unnoticed queue mine b (b.declareExchange s name kind how).2 := by
  refine follows_guarded h fun lane hl ho => ?_
  dsimp only
  split
  · exact follows_refuse h _ _
  · rename_i create hj
    have hmade : Unnoticed queue mine b (if create then
        { b with exchanges := b.exchanges.set name { kind := kind, durable := how.durable } }
        else b) := by
      split
      · exact follows_beside h rfl rfl rfl rfl rfl
      · exact .refl h
    exact hmade.trans (follows_record hmade.sound rfl rfl)

/-- An object is only created where there was none. -/
theorem conflicts_of_judge {name : String} {how : Declaration} {conflicts : Option Bool}
    (h : b.judge name how conflicts = .ok true) : conflicts = none := by
  unfold judge at h
  split at h
  · split at h <;> cases h
  · split at h
    · cases h
    · split at h
      · cases h
      · simpa using h

theorem follows_declareQueue (h : b.Sound) (name : String) (how : Declaration) :
    Unnoticed queue mine b (b.declareQueue s name how).2 := by
  refine follows_guarded h fun lane hl ho => ?_
  dsimp only
  split
  · exact follows_refuse h _ _
  · rename_i create hj
    have hmade : Unnoticed queue mine b (if create then
        { b with queues := b.queues.set name { durable := how.durable } } else b) := by
      split
      · rename_i hcreate
        subst hcreate
        have hn := Option.map_eq_none_iff.1 (conflicts_of_judge hj)
        exact (quiet_newQueue hn rfl).follows h
      · exact .refl h
    exact hmade.trans (follows_record hmade.sound rfl rfl)

theorem follows_addBinding (h : b.Sound) (x : Binding) :
    Unnoticed queue mine b (b.addBinding x) :=
  follows_beside h rfl rfl rfl rfl rfl

theorem follows_bind (h : b.Sound) (x : Binding) : Unnoticed queue mine b (b.bind s x).2 := by
  refine follows_guarded h fun lane hl ho => ?_
  split
  · have hadded : Unnoticed queue mine b (b.addBinding x) := follows_addBinding h x
    exact hadded.trans (follows_record hadded.sound rfl rfl)
  · exact follows_refuse h _ _

/-! ### Publishing and subscribing -/

theorem follows_publish (h : b.Sound) (exchange key : String) (payload : ByteArray)
    (options : PublishOptions) :
    Unnoticed queue mine b (b.publish s exchange key payload options).2 := by
  refine follows_guarded h fun lane hl ho => ?_
  split
  · exact follows_refuse h _ _
  · split
    · exact follows_beside h rfl rfl rfl rfl rfl
    · dsimp only
      split
      · exact follows_record h rfl rfl
      · have hrouted : Unnoticed queue mine b
            (b.enqueueAll key payload (b.route exchange key)) :=
          follows_route h exchange key payload
        exact hrouted.trans (follows_record hrouted.sound rfl rfl)

theorem follows_setPrefetch (h : b.Sound) (count : Nat) :
    Unnoticed queue mine b (b.setPrefetch s count).2 := by
  refine follows_guarded h fun lane hl ho => ?_
  exact follows_lane h hl ho (channels_modifyLane h hl _) rfl rfl rfl ho rfl
    (fun _ hx => .inl hx) rfl id rfl rfl

theorem follows_consume (h : b.Sound) (name : String) :
    Unnoticed queue mine b (b.consume s name).2 := by
  refine follows_guarded h fun lane hl ho => ?_
  split
  · exact .refl h
  · exact follows_refuse h _ _

/-! ### What a disposition can do -/

/-- The broker after a delivery was acknowledged. -/
def acknowledged (b : Broker) (s : Session) (tag : DeliveryTag) (d : Delivery) : Broker :=
  (b.settle s tag).record (.acked s.channel tag.value d)

/-- The broker after a delivery was returned by its consumer. -/
def gaveUp (b : Broker) (s : Session) (tag : DeliveryTag) (d : Delivery) (requeue : Bool) :
    Broker :=
  let b := (b.settle s tag).record (.nacked s.channel tag.value d requeue)
  if requeue then { b with queues := giveBack d b.queues } else b

theorem enqueuedOn_acknowledged (tag : DeliveryTag) (d : Delivery) :
    (b.acknowledged s tag d).enqueuedOn queue = b.enqueuedOn queue := by
  simp [acknowledged, enqueuedOn, record, settle, modifyLane, Event.enqueuedOn?]

theorem ackedFrom_acknowledged (tag : DeliveryTag) (d : Delivery) :
    (b.acknowledged s tag d).ackedFrom queue =
      b.ackedFrom queue ++ if d.queue = queue then [d.copy] else [] := by
  by_cases hd : d.queue = queue <;>
    simp [acknowledged, ackedFrom, record, settle, modifyLane, Event.ackedFrom?, hd]

theorem enqueuedOn_gaveUp (tag : DeliveryTag) (d : Delivery) (requeue : Bool) :
    (b.gaveUp s tag d requeue).enqueuedOn queue = b.enqueuedOn queue := by
  cases requeue <;> simp [gaveUp, enqueuedOn, record, settle, modifyLane, Event.enqueuedOn?]

theorem ackedFrom_gaveUp (tag : DeliveryTag) (d : Delivery) (requeue : Bool) :
    (b.gaveUp s tag d requeue).ackedFrom queue = b.ackedFrom queue := by
  cases requeue <;> simp [gaveUp, ackedFrom, record, settle, modifyLane, Event.ackedFrom?]

theorem channels_gaveUp (tag : DeliveryTag) (d : Delivery) (requeue : Bool) :
    (b.gaveUp s tag d requeue).channels = (b.settle s tag).channels := by
  cases requeue <;> rfl

/-- What is given up goes back in front, if it is to be requeued and has a queue. -/
theorem ready_gaveUp {tag : DeliveryTag} {d : Delivery}
    (hc : d.queue = queue → b.queues.contains queue = true) (requeue : Bool) :
    (b.gaveUp s tag d requeue).ready queue =
      (if requeue = true ∧ d.queue = queue then [d.copy.returned] else []) ++
        b.ready queue := by
  cases requeue with
  | false => rfl
  | true =>
      simp only [true_and]
      exact ready_giveBack rfl hc

/-- A disposition acts on a delivery that is out on the session's open channel; otherwise
it fails, and at most closes the channel. -/
theorem disposition_cases (b : Broker) (s : Session) (tag : DeliveryTag)
    (act : Broker → Delivery → Except LinkError Unit × Broker) :
    (∃ lane d, b.channels.get? s.channel = some lane ∧ lane.isOpen = true ∧
      lane.unacked.get? tag.value = some d ∧
      (b.guarded s fun b => match b.outstanding? s tag with
        | some d => act b d
        | none => b.refuseTag s tag) = act b d) ∨
    ∃ e, (b.guarded s fun b => match b.outstanding? s tag with
        | some d => act b d
        | none => b.refuseTag s tag) = (.error e, b) ∨
      (b.guarded s fun b => match b.outstanding? s tag with
        | some d => act b d
        | none => b.refuseTag s tag) =
        (.error e, b.closeChannel s.channel "PRECONDITION_FAILED") := by
  unfold guarded
  split
  · rename_i u hu
    obtain ⟨lane, hl, ho⟩ := lane_of_check hu
    cases hd : b.outstanding? s tag with
    | some d =>
        obtain ⟨lane', hl', hget⟩ := Option.bind_eq_some_iff.1 hd
        rw [hl] at hl'
        cases hl'
        exact .inl ⟨lane, d, hl, ho, hget, by simp [hd]⟩
    | none => exact .inr ⟨_, .inr (by simp only [hd]; rfl)⟩
  · rename_i e he
    exact .inr ⟨e, .inl rfl⟩

theorem ack_cases (b : Broker) (s : Session) (tag : DeliveryTag) :
    (∃ lane d, b.channels.get? s.channel = some lane ∧ lane.isOpen = true ∧
      lane.unacked.get? tag.value = some d ∧ b.ack s tag = (.ok (), b.acknowledged s tag d)) ∨
    ∃ e, b.ack s tag = (.error e, b) ∨
      b.ack s tag = (.error e, b.closeChannel s.channel "PRECONDITION_FAILED") :=
  disposition_cases b s tag fun b d => (.ok (), b.acknowledged s tag d)

theorem nack_cases (b : Broker) (s : Session) (tag : DeliveryTag) (requeue : Bool) :
    (∃ lane d, b.channels.get? s.channel = some lane ∧ lane.isOpen = true ∧
      lane.unacked.get? tag.value = some d ∧
      b.nack s tag requeue = (.ok (), b.gaveUp s tag d requeue)) ∨
    ∃ e, b.nack s tag requeue = (.error e, b) ∨
      b.nack s tag requeue = (.error e, b.closeChannel s.channel "PRECONDITION_FAILED") :=
  disposition_cases b s tag fun b d => (.ok (), b.gaveUp s tag d requeue)

/-! ### Deliveries to other consumers -/

/-- Nothing of the queue is out on the session. -/
def Elsewhere (b : Broker) (queue : String) (s : Session) : Prop :=
  ∀ x ∈ b.loans, x.channel = s.channel → x.delivery.queue ≠ queue

theorem Elsewhere.lane {lane : Lane} (he : b.Elsewhere queue s)
    (hl : b.channels.get? s.channel = some lane) :
    ∀ e ∈ lane.unacked.entries, e.2.queue ≠ queue := by
  intro e hm
  exact he _ (mem_loans_of_get? hl hm) rfl

theorem copiesFrom_lane_eq_nil {lane : Lane} {k : Nat}
    (h : ∀ e ∈ lane.unacked.entries, e.2.queue ≠ queue) :
    copiesFrom queue (lane.loans k) = [] := by
  refine copiesFrom_eq_nil fun x hx => ?_
  obtain ⟨e, he, rfl⟩ := List.mem_map.1 hx
  exact h e he

theorem mem_of_mem_erase {lane : Lane} {tag : Nat} {e : Nat × Delivery}
    (h : e ∈ (lane.unacked.erase tag).entries) : e ∈ lane.unacked.entries :=
  (List.mem_filter.1 h).1

/-- A session with nothing of the queue out loses a delivery. -/
theorem follows_settle (h : b.Sound) (he : b.Elsewhere queue s) {tag : DeliveryTag}
    {lane : Lane} (hl : b.channels.get? s.channel = some lane) (ho : lane.isOpen = true)
    {b' : Broker} (hc : b'.channels = (b.settle s tag).channels)
    (hn : b'.connections = b.connections) (hi : b'.lastId = b.lastId)
    (hready : b'.ready queue = b.ready queue)
    (hcontains : b.queues.contains queue = true → b'.queues.contains queue = true)
    (henq : b'.enqueuedOn queue = b.enqueuedOn queue)
    (hack : b'.ackedFrom queue = b.ackedFrom queue) : Unnoticed queue mine b b' := by
  have hlane := he.lane hl
  have hset : b'.channels = b.channels.set s.channel _ := hc.trans (channels_modifyLane h hl _)
  refine follows_lane h hl ho hset hn hi rfl ho ?_ ?_ hready hcontains henq hack
  · rw [copiesFrom_lane_eq_nil hlane]
    exact copiesFrom_lane_eq_nil fun e hm => hlane e (mem_of_mem_erase hm)
  · intro x hx
    obtain ⟨e, hm, rfl⟩ := List.mem_map.1 hx
    exact .inl (List.mem_map.2 ⟨e, mem_of_mem_erase hm, rfl⟩)

theorem follows_ack_elsewhere (h : b.Sound) (he : b.Elsewhere queue s) (tag : DeliveryTag) :
    Unnoticed queue mine b (b.ack s tag).2 := by
  rcases ack_cases b s tag with ⟨lane, d, hl, ho, hd, hack⟩ | ⟨e, hack | hack⟩
  · have hne : d.queue ≠ queue := he.lane hl _ (Table.mem_of_get? hd)
    rw [hack]
    refine follows_settle h he hl ho rfl rfl rfl rfl id (enqueuedOn_acknowledged tag d) ?_
    rw [ackedFrom_acknowledged, if_neg hne, List.append_nil]
  · rw [hack]
    exact .refl h
  · rw [hack]
    exact follows_closeChannel h _ _

theorem follows_nack_elsewhere (h : b.Sound) (he : b.Elsewhere queue s) (tag : DeliveryTag)
    (requeue : Bool) : Unnoticed queue mine b (b.nack s tag requeue).2 := by
  rcases nack_cases b s tag requeue with ⟨lane, d, hl, ho, hd, hnack⟩ | ⟨e, hnack | hnack⟩
  · have hne : d.queue ≠ queue := he.lane hl _ (Table.mem_of_get? hd)
    rw [hnack]
    have hready : (b.gaveUp s tag d requeue).ready queue = b.ready queue := by
      rw [ready_gaveUp (fun hd => absurd hd hne), if_neg (fun hd => hne hd.2), List.nil_append]
    refine follows_settle h he hl ho (channels_gaveUp tag d requeue) ?_ ?_ hready ?_
      (enqueuedOn_gaveUp tag d requeue) (ackedFrom_gaveUp tag d requeue)
    · cases requeue <;> rfl
    · cases requeue <;> rfl
    · intro hc
      cases requeue with
      | false => exact hc
      | true => exact (contains_giveBack d b.queues).trans hc
  · rw [hnack]
    exact .refl h
  · rw [hnack]
    exact follows_closeChannel h _ _

theorem enqueuedOn_deliver (t : Stream) (lane : Lane) (copy : Copy) (rest : List Copy) :
    (b.deliver t lane copy rest).2.enqueuedOn queue = b.enqueuedOn queue := by
  simp [deliver, enqueuedOn, Event.enqueuedOn?]

theorem ackedFrom_deliver (t : Stream) (lane : Lane) (copy : Copy) (rest : List Copy) :
    (b.deliver t lane copy rest).2.ackedFrom queue = b.ackedFrom queue := by
  simp [deliver, ackedFrom, Event.ackedFrom?]

/-- Somebody else takes a delivery from another queue. -/
theorem follows_take_elsewhere (h : b.Sound) {t : Stream} (hq : t.queue ≠ queue)
    (hm : ¬ mine t.session.channel) (he : b.Elsewhere queue t.session) :
    Unnoticed queue mine b (b.take t).2 := by
  unfold take
  split
  · rename_i u lane hcheck hl
    split
    · rename_i copy rest hroom hready
      obtain ⟨lane', hl', ho⟩ := lane_of_check hcheck
      rw [hl] at hl'
      cases hl'
      have hlane := he.lane hl
      have hqueues : (b.deliver t lane copy rest).2.queues =
          b.queues.modify t.queue fun q => { q with ready := rest } := rfl
      refine follows_lane h hl ho rfl rfl rfl rfl ho ?_ ?_ (ready_modify hqueues hq)
        (fun hc => (Table.contains_modify _).trans hc) (enqueuedOn_deliver t lane copy rest)
        (ackedFrom_deliver t lane copy rest)
      · rw [copiesFrom_lane_eq_nil hlane]
        refine copiesFrom_lane_eq_nil fun e hm => ?_
        rcases Table.mem_entries_set hm with rfl | hm
        · exact hq
        · exact hlane e hm
      · intro x hx
        obtain ⟨e, hmem, rfl⟩ := List.mem_map.1 hx
        rcases Table.mem_entries_set hmem with rfl | hmem
        · exact .inr ⟨hq, hm⟩
        · exact .inl (List.mem_map.2 ⟨e, hmem, rfl⟩)
    · exact .refl h
  · exact .refl h

/-! ### All calls -/

/-- A call that disposes of a delivery. -/
def Settles : Channel.Call → Prop
  | .ack _ | .nack _ _ => True
  | _ => False

/-- A disposition that fails leaves the broker as it was, or closes the channel. -/
theorem failed_of_settles {k : Channel.Call} (hk : Settles k) {e : LinkError}
    (hf : (b.answer s k).1 = Simulation.failing e k) :
    (b.answer s k).2.2 = b ∨
      (b.answer s k).2.2 = b.closeChannel s.channel "PRECONDITION_FAILED" := by
  cases k with
  | ack tag =>
      change (b.ack s tag).1 = .error e at hf
      show (b.ack s tag).2 = b ∨ (b.ack s tag).2 = b.closeChannel s.channel "PRECONDITION_FAILED"
      rcases ack_cases b s tag with ⟨lane, d, -, -, -, hok⟩ | ⟨e, herr | herr⟩
      · rw [hok] at hf
        cases hf
      · exact .inl (congrArg Prod.snd herr)
      · exact .inr (congrArg Prod.snd herr)
  | nack tag requeue =>
      change (b.nack s tag requeue).1 = .error e at hf
      show (b.nack s tag requeue).2 = b ∨
        (b.nack s tag requeue).2 = b.closeChannel s.channel "PRECONDITION_FAILED"
      rcases nack_cases b s tag requeue with ⟨lane, d, -, -, -, hok⟩ | ⟨e, herr | herr⟩
      · rw [hok] at hf
        cases hf
      · exact .inl (congrArg Prod.snd herr)
      · exact .inr (congrArg Prod.snd herr)
  | _ => exact hk.elim

/-- A call on a session is not noticed, unless it disposes of what is out from the queue. -/
theorem follows_answer (h : b.Sound) (s : Session) (k : Channel.Call)
    (hk : Settles k → b.Elsewhere queue s) : Unnoticed queue mine b (b.answer s k).2.2 := by
  cases k with
  | declareExchange name kind how => exact follows_declareExchange h name kind how
  | declareQueue name how => exact follows_declareQueue h name how
  | bind name exchange key => exact follows_bind h _
  | setPrefetch count => exact follows_setPrefetch h count
  | publish exchange key payload options => exact follows_publish h exchange key payload options
  | consume name tag => exact follows_consume h name
  | ack tag => exact follows_ack_elsewhere h (hk trivial) tag
  | nack tag requeue => exact follows_nack_elsewhere h (hk trivial) tag requeue
  | reopen => exact follows_reopen h s

/-- What a call that disposes of nothing leaves of a session with nothing out: a session
with nothing out, on the same channel or on one that is new. -/
structure Freed (b : Broker) (s : Session) (b' : Broker) (s' : Session) : Prop where
  owns : b'.Owns s'
  free : ∀ x ∈ b'.loans, x.channel ≠ s'.channel
  loans : ∀ x ∈ b'.loans, x ∈ b.loans
  channel : s' = s ∨ b.lastId < s'.channel

theorem freed_answer (h : b.Sound) (hs : b.Owns s) (hx : ∀ x ∈ b.loans, x.channel ≠ s.channel)
    {k : Channel.Call} (hk : ¬ Settles k) :
    b.Freed s (b.answer s k).2.2 (b.answer s k).2.1 := by
  have hf : Unnoticed "" (fun _ => True) b (b.answer s k).2.2 :=
    follows_answer h s k fun hs => absurd hs hk
  have hsub : ∀ x ∈ (b.answer s k).2.2.loans, x ∈ b.loans := by
    intro x hm
    rcases hf.loans x hm with hm | ⟨-, hnot⟩
    · exact hm
    · exact absurd trivial hnot
  cases k with
  | reopen =>
      -- the session moves to a channel that was not there before
      obtain ⟨howns, hfree⟩ := reopen_owns h hs hx
      exact ⟨howns, hfree, hsub, channel_reopen h s⟩
  | ack | nack => exact absurd trivial hk
  | declareExchange | declareQueue | bind | setPrefetch | publish | consume =>
      exact ⟨hf.owns hs, fun x hm => hx x (hsub x hm), hsub, .inl rfl⟩

/-! ### Without a session -/

theorem follows_publishOutside (h : b.Sound) (exchange key : String) (payload : ByteArray) :
    Unnoticed queue mine b (b.publishOutside exchange key payload).2 :=
  follows_route h exchange key payload

theorem follows_ensureQueue (h : b.Sound) (name : String) :
    Unnoticed queue mine b (b.ensureQueue name) := by
  unfold ensureQueue
  split
  · exact .refl h
  · rename_i hc
    refine (quiet_newQueue (Table.get?_eq_none_of_not_mem fun hk => hc ?_) rfl).follows h
    exact Table.contains_iff.2 hk

theorem follows_ensureExchange (h : b.Sound) (name : String) (kind : ExchangeKind) :
    Unnoticed queue mine b (b.ensureExchange name kind) := by
  unfold ensureExchange
  split
  · exact .refl h
  · exact follows_beside h rfl rfl rfl rfl rfl

open Simulation in
/-- What an operator does to a broker is not noticed. -/
theorem follows_applyToBroker (h : b.Sound) (c : BrokerCall) :
    Unnoticed queue mine b (applyToBroker c b) := by
  cases c with
  | declareQueue name => exact follows_ensureQueue h name
  | declareExchange name kind => exact follows_ensureExchange h name kind
  | bind x => exact follows_addBinding h x
  | provision =>
      have hexchange : Unnoticed queue mine b
          (b.ensureExchange Topology.standard.exchange .direct) := follows_ensureExchange h _ _
      have hqueue := hexchange.trans
        (follows_ensureQueue hexchange.sound Topology.standard.queue)
      exact hqueue.trans (Follows.foldl (fun _ key hb => follows_addBinding hb _) _ hqueue.sound)
  | refuseConnects | denyDeclarations | nackPublishes =>
      exact follows_beside h rfl rfl rfl rfl rfl
  | dropConnections => exact follows_dropConnections h

end QueueRelay.Broker

/-
Everything that happens to a broker as a sequence of moves.

Whatever is done to a broker, with one session or without any, comes down to moves of nine
kinds.  Each of them says what it adds to the journal and what it asks of the broker before
it, so what is to be known of all operations is proved from the moves, by one look at each
kind: that copies stay in their places, and what becomes of one queue.

An operation is described by the deliveries that its events are about: `Goes P` is a sequence
of moves none of which delivers, acknowledges or returns anything but what `P` allows.
-/
import QueueRelay.Proofs.Broker.Deeds

namespace QueueRelay.Broker

variable {b b' b'' : Broker} {s : Session} {P Q : Delivery → Prop} {events : List Event}

/-! ### Moves -/

/-- The delivery that an event begins or ends. -/
def Event.about? : Event → Option Delivery
  | delivered _ _ d | acked _ _ d | nacked _ _ d _ => some d
  | _ => none

/-- One change of a broker, with the events that it adds to the journal. -/
inductive Move (b : Broker) : List Event → Broker → Prop
  /-- Exchanges, bindings, connections or what was arranged. -/
  | beside {b' : Broker} {events : List Event} (hs : b'.Sound) (hc : b'.channels = b.channels)
      (hq : b'.queues = b.queues) (hn : b'.copies = b.copies)
      (hj : b'.journal = b.journal ++ events)
      (he : ∀ e ∈ events, e.made? = none ∧ e.about? = none) : Move b events b'
  | created {name : String} {q : Queue} (hn : b.queues.contains name = false)
      (hq : q.ready = []) : Move b [] { b with queues := b.queues.set name q }
  | enqueued {name : String} (key : String) (payload : ByteArray)
      (hc : b.queues.contains name = true) :
      Move b [.enqueued name { number := b.copies, payload := payload, key := key }]
        (enqueue key payload b name)
  | opened {c : Nat} (hc : c ∈ b.connections) : Move b [] (b.openChannel c)
  | limited {s : Session} {lane : Lane} (hl : b.channels.get? s.channel = some lane)
      (ho : lane.isOpen = true) (count : Nat) :
      Move b [] (b.modifyLane s fun lane => { lane with prefetch := count })
  | closed {k : Nat} {lane : Lane} (hl : b.channels.get? k = some lane)
      (ho : lane.isOpen = true) (reason : String) :
      Move b [.channelClosed k reason] (b.closeChannel k reason)
  | delivered {t : Stream} {lane : Lane} {copy : Copy} {rest : List Copy}
      (hl : b.channels.get? t.session.channel = some lane) (ho : lane.isOpen = true)
      (hready : b.ready t.queue = copy :: rest) :
      Move b [.delivered t.session.channel (lane.lastTag + 1) ⟨t.queue, copy⟩]
        (b.deliver t lane copy rest).2
  | acked {s : Session} {lane : Lane} {tag : DeliveryTag} {d : Delivery}
      (hl : b.channels.get? s.channel = some lane) (ho : lane.isOpen = true)
      (hd : lane.unacked.get? tag.value = some d) :
      Move b [.acked s.channel tag.value d] (b.acknowledged s tag d)
  | nacked {s : Session} {lane : Lane} {tag : DeliveryTag} {d : Delivery}
      (hl : b.channels.get? s.channel = some lane) (ho : lane.isOpen = true)
      (hd : lane.unacked.get? tag.value = some d) (requeue : Bool) :
      Move b [.nacked s.channel tag.value d requeue] (b.gaveUp s tag d requeue)

theorem journal_closeChannel {k : Nat} {lane : Lane} (hl : b.channels.get? k = some lane)
    (ho : lane.isOpen = true) (reason : String) :
    (b.closeChannel k reason).journal = b.journal ++ [.channelClosed k reason] := by
  unfold closeChannel
  rw [hl]
  exact congrArg Broker.journal (if_pos ho)

namespace Move

/-- A move adds its events to the journal. -/
theorem journal (m : Move b events b') : b'.journal = b.journal ++ events := by
  cases m with
  | beside hs hc hq hn hj he => exact hj
  | created | opened | limited => exact (List.append_nil _).symm
  | closed hl ho reason => exact journal_closeChannel hl ho reason
  | nacked hl ho hd requeue => cases requeue <;> rfl
  | enqueued | delivered | acked => rfl

/-- An event that neither makes a copy nor is about a delivery settles none. -/
theorem gone?_of_about? {e : Event} (h : e.about? = none) : e.gone? = none := by
  cases e <;> first | rfl | cases h

/-- **A move leaves every copy in one place.** -/
theorem placed (h : b.Placed) (m : Move b events b') : b'.Placed := by
  cases m with
  | beside hs hc hq hn hj he =>
      have hmade : b'.made = b.made := by
        unfold made
        rw [hj, List.filterMap_append, List.filterMap_eq_nil_iff.2 fun e hm => (he e hm).1,
          List.append_nil]
      have hsettled : b'.settlements = b.settlements := by
        have hnone : events.filter (fun e => e.gone?.isSome) = [] := by
          refine List.filter_eq_nil_iff.2 fun e hm => ?_
          rw [gone?_of_about? (he e hm).2]
          exact Bool.false_ne_true
        unfold settlements
        rw [hj, List.filter_append, hnone, List.append_nil]
      exact (shifts_beside h hs hc hq hmade hn hsettled).placed
  | created hn hq => exact (shifts_newQueue h hn hq).placed
  | enqueued key payload hc => exact (shifts_enqueue h hc).placed
  | opened hc => exact (shifts_openChannel h hc).placed
  | limited hl ho count => exact (shifts_limited h hl ho count).placed
  | closed hl ho reason => exact (shifts_closeChannel h _ reason).placed
  | delivered hl ho hready => exact (shifts_deliver h hl ho hready).placed
  | acked hl ho hd => exact (shifts_acknowledged h hl ho hd).placed
  | nacked hl ho hd requeue => exact (shifts_gaveUp h hl ho hd requeue).placed

end Move

/-- The broker goes from one state to another by moves whose events are about no delivery but
what `P` allows. -/
inductive Goes (P : Delivery → Prop) (b : Broker) : Broker → Prop
  | refl : Goes P b b
  | snoc {b' b'' : Broker} {events : List Event} (h : Goes P b b') (m : Move b' events b'')
      (hP : ∀ e ∈ events, ∀ d, e.about? = some d → P d) : Goes P b b''

namespace Goes

theorem trans (h : Goes P b b') (h' : Goes P b' b'') : Goes P b b'' := by
  induction h' with
  | refl => exact h
  | snoc _ m hP ih => exact .snoc ih m hP

theorem mono (h : Goes P b b') (hPQ : ∀ d, P d → Q d) : Goes Q b b' := by
  induction h with
  | refl => exact .refl
  | snoc _ m hP ih => exact .snoc ih m fun e he d hd => hPQ d (hP e he d hd)

theorem placed (h : Goes P b b') (hb : b.Placed) : b'.Placed := by
  induction h with
  | refl => exact hb
  | snoc _ m _ ih => exact m.placed ih

/-- One move, with events that are about no delivery. -/
theorem of_move (m : Move b events b') (he : ∀ e ∈ events, e.about? = none) : Goes P b b' :=
  .snoc .refl m fun e hm d hd => by
    rw [he e hm] at hd
    cases hd

/-- One move, with an event about a delivery that is allowed. -/
theorem of_about {e : Event} {d : Delivery} (m : Move b [e] b') (he : e.about? = some d)
    (hd : P d) : Goes P b b' := by
  refine .snoc .refl m fun e' hm d' hd' => ?_
  rw [List.mem_singleton.1 hm, he] at hd'
  exact Option.some.inj hd' ▸ hd

/-- Changes made one after the other. -/
theorem foldl {α : Type} {f : Broker → α → Broker} (hf : ∀ b a, b.Placed → Goes P b (f b a))
    (as : List α) (h : b.Placed) : Goes P b (as.foldl f b) := by
  induction as generalizing b with
  | nil => exact .refl
  | cons a as ih =>
      have ha := hf b a h
      exact ha.trans (ih (ha.placed h))

end Goes

/-! ### Beside the copies -/

/-- A change beside the copies that is not written down. -/
theorem goes_beside (hs : b'.Sound) (hc : b'.channels = b.channels) (hq : b'.queues = b.queues)
    (hk : b'.copies = b.copies) (hj : b'.journal = b.journal) : Goes P b b' := by
  have hmove : Move b [] b' := .beside hs hc hq hk (hj.trans (List.append_nil _).symm) nofun
  exact .of_move hmove nofun

/-- A change of nothing but exchanges, bindings and what was arranged. -/
theorem goes_arranged (h : b.Placed) (hc : b'.channels = b.channels)
    (hn : b'.connections = b.connections) (hi : b'.lastId = b.lastId)
    (hq : b'.queues = b.queues) (hj : b'.journal = b.journal) (hk : b'.copies = b.copies) :
    Goes P b b' :=
  goes_beside (h.sound.congr hc (fun _ hm => hn ▸ hm) (Nat.le_of_eq hi.symm)) hc hq hk hj

/-- Writing down an event that is about no copy. -/
theorem goes_record (h : b.Placed) {e : Event} (hm : e.made? = none) (ha : e.about? = none) :
    Goes P b (b.record e) := by
  have hnone : ∀ e' ∈ [e], e'.made? = none ∧ e'.about? = none := by
    intro e' he'
    rw [List.mem_singleton.1 he']
    exact ⟨hm, ha⟩
  refine .of_move (.beside ?_ rfl rfl rfl rfl hnone) fun e' he' => (hnone e' he').2
  exact h.sound.congr rfl (fun _ hc => hc) (Nat.le_refl _)

/-! ### Connections and channels -/

theorem goes_closeChannel (b : Broker) (k : Nat) (reason : String) :
    Goes P b (b.closeChannel k reason) := by
  cases hl : b.channels.get? k with
  | none =>
      unfold closeChannel
      rw [hl]
      exact .refl
  | some lane =>
      cases ho : lane.isOpen with
      | true => exact .of_move (.closed hl ho reason) (by simp [Event.about?])
      | false =>
          unfold closeChannel
          simp only [hl, ho]
          exact .refl

/-- The connection goes when its channels are closed. -/
theorem goes_closeConnection (h : b.Placed) (c : Nat) (reason : String) :
    Goes P b (b.closeConnection c reason) := by
  have hs : (b.closeConnection c reason).Sound :=
    sound_of_unnoticed (follows_closeConnection h.sound c reason)
  rw [closeConnection_eq] at hs ⊢
  have hall : Goes P b (b.closeAll (b.channelsOf c) reason) :=
    .foldl (fun b k _ => goes_closeChannel b k reason) _ h
  exact hall.trans (goes_beside hs rfl rfl rfl rfl)

theorem goes_dropConnections (h : b.Placed) : Goes P b b.dropConnections :=
  .foldl (fun _ c hb => goes_closeConnection hb c _) _ h

theorem goes_closeSession (h : b.Placed) (s : Session) : Goes P b (b.closeSession s) :=
  goes_closeConnection h _ _

theorem goes_refuse {α : Type} (b : Broker) (reason : String) (e : LinkError) :
    Goes P b (b.refuse (α := α) s reason e).2 :=
  goes_closeChannel b _ _

/-- Only a session with an open channel gets anything done. -/
theorem goes_guarded {α : Type} {act : Broker → Except LinkError α × Broker}
    (hact : Goes P b (act b).2) : Goes P b (b.guarded s act).2 := by
  unfold guarded
  split
  · exact hact
  · exact .refl

theorem goes_connect (h : b.Placed) : Goes P b b.connect.2 := by
  unfold connect
  split
  · exact goes_arranged h rfl rfl rfl rfl rfl rfl
  · have hs : b.withConnection.Sound := sound_of_unnoticed (follows_withConnection h.sound)
    have hnew : Goes P b b.withConnection := goes_beside hs rfl rfl rfl rfl
    exact hnew.trans (.of_move (.opened mem_withConnection) nofun)

theorem goes_reopen (b : Broker) (s : Session) : Goes P b (b.reopen s).2.2 := by
  unfold reopen
  split
  · rename_i hc
    refine (goes_closeChannel b s.channel "reopened").trans (.of_move (.opened ?_) nofun)
    rw [connections_closeChannel]
    simpa using hc
  · exact .refl

/-! ### Declarations and publishing -/

theorem goes_declareExchange (h : b.Placed) (name : String) (kind : ExchangeKind)
    (how : Declaration) : Goes P b (b.declareExchange s name kind how).2 := by
  refine goes_guarded ?_
  dsimp only
  split
  · exact goes_refuse b _ _
  · rename_i create hj
    have hmade : Goes P b (if create then
        { b with exchanges := b.exchanges.set name { kind := kind, durable := how.durable } }
        else b) := by
      split
      · exact goes_arranged h rfl rfl rfl rfl rfl rfl
      · exact .refl
    exact hmade.trans (goes_record (hmade.placed h) rfl rfl)

/-- A queue is made anew where there was none. -/
theorem goes_newQueue {name : String} {q : Queue} (hn : b.queues.contains name = false)
    (hq : q.ready = []) : Goes P b { b with queues := b.queues.set name q } :=
  .of_move (.created hn hq) nofun

theorem goes_declareQueue (h : b.Placed) (name : String) (how : Declaration) :
    Goes P b (b.declareQueue s name how).2 := by
  refine goes_guarded ?_
  dsimp only
  split
  · exact goes_refuse b _ _
  · rename_i create hj
    have hmade : Goes P b (if create then
        { b with queues := b.queues.set name { durable := how.durable } } else b) := by
      split
      · rename_i hcreate
        subst hcreate
        have hnone := Option.map_eq_none_iff.1 (conflicts_of_judge hj)
        refine goes_newQueue ?_ rfl
        rw [Table.contains_eq_isSome, hnone]
        rfl
      · exact .refl
    exact hmade.trans (goes_record (hmade.placed h) rfl rfl)

theorem goes_addBinding (h : b.Placed) (x : Binding) : Goes P b (b.addBinding x) :=
  goes_arranged h rfl rfl rfl rfl rfl rfl

theorem goes_bind (h : b.Placed) (x : Binding) : Goes P b (b.bind s x).2 := by
  refine goes_guarded ?_
  split
  · have hadded : Goes P b (b.addBinding x) := goes_addBinding h x
    exact hadded.trans (goes_record (hadded.placed h) rfl rfl)
  · exact goes_refuse b _ _

theorem goes_enqueueAll {key : String} {payload : ByteArray} {names : List String}
    (hc : ∀ name ∈ names, b.queues.contains name = true) :
    Goes P b (b.enqueueAll key payload names) := by
  unfold enqueueAll
  induction names generalizing b with
  | nil => exact .refl
  | cons name names ih =>
      have hfirst : Goes P b (enqueue key payload b name) :=
        .of_move (.enqueued key payload (hc name List.mem_cons_self)) (by simp [Event.about?])
      refine hfirst.trans (ih ?_)
      intro other hother
      have hbefore : b.queues.contains other = true := hc other (List.mem_cons_of_mem _ hother)
      exact (Table.contains_modify _).trans hbefore

theorem goes_route (exchange key : String) (payload : ByteArray) :
    Goes P b (b.enqueueAll key payload (b.route exchange key)) :=
  goes_enqueueAll fun _ hname => contains_of_mem_route hname

theorem goes_publish (h : b.Placed) (exchange key : String) (payload : ByteArray)
    (options : PublishOptions) : Goes P b (b.publish s exchange key payload options).2 := by
  refine goes_guarded ?_
  split
  · exact goes_refuse b _ _
  · split
    · exact goes_arranged h rfl rfl rfl rfl rfl rfl
    · dsimp only
      split
      · exact goes_record h rfl rfl
      · have hrouted : Goes P b (b.enqueueAll key payload (b.route exchange key)) :=
          goes_route exchange key payload
        exact hrouted.trans (goes_record (hrouted.placed h) rfl rfl)

theorem goes_setPrefetch (b : Broker) (count : Nat) : Goes P b (b.setPrefetch s count).2 := by
  unfold setPrefetch guarded
  split
  · rename_i u hu
    obtain ⟨lane, hl, ho⟩ := lane_of_check hu
    exact .of_move (.limited hl ho count) nofun
  · exact .refl

theorem goes_consume (b : Broker) (name : String) : Goes P b (b.consume s name).2 := by
  refine goes_guarded ?_
  split
  · exact .refl
  · exact goes_refuse b _ _

/-! ### Deliveries -/

theorem goes_ack (hP : ∀ x ∈ b.loans, x.channel = s.channel → P x.delivery)
    (tag : DeliveryTag) : Goes P b (b.ack s tag).2 := by
  rcases ack_cases b s tag with ⟨lane, d, hl, ho, hd, hack⟩ | ⟨e, hack | hack⟩
  · rw [hack]
    exact .of_about (.acked hl ho hd) rfl
      (hP _ (mem_loans_of_get? hl (Table.mem_of_get? hd)) rfl)
  · rw [hack]
    exact .refl
  · rw [hack]
    exact goes_closeChannel b _ _

theorem goes_nack (hP : ∀ x ∈ b.loans, x.channel = s.channel → P x.delivery)
    (tag : DeliveryTag) (requeue : Bool) : Goes P b (b.nack s tag requeue).2 := by
  rcases nack_cases b s tag requeue with ⟨lane, d, hl, ho, hd, hnack⟩ | ⟨e, hnack | hnack⟩
  · rw [hnack]
    exact .of_about (.nacked hl ho hd requeue) rfl
      (hP _ (mem_loans_of_get? hl (Table.mem_of_get? hd)) rfl)
  · rw [hnack]
    exact .refl
  · rw [hnack]
    exact goes_closeChannel b _ _

/-- What is acknowledged with success was out on the session. -/
theorem move_of_ack {tag : DeliveryTag} {u : Unit} (h : b.ack s tag = (.ok u, b')) :
    ∃ d, ⟨s.channel, tag.value, d⟩ ∈ b.loans ∧ Move b [.acked s.channel tag.value d] b' := by
  rcases ack_cases b s tag with ⟨lane, d, hl, ho, hd, hok⟩ | ⟨e, herr | herr⟩
  · cases h.symm.trans hok
    exact ⟨d, mem_loans_of_get? hl (Table.mem_of_get? hd), .acked hl ho hd⟩
  · cases h.symm.trans herr
  · cases h.symm.trans herr

theorem move_of_nack {tag : DeliveryTag} {requeue : Bool} {u : Unit}
    (h : b.nack s tag requeue = (.ok u, b')) : ∃ d, ⟨s.channel, tag.value, d⟩ ∈ b.loans ∧
      Move b [.nacked s.channel tag.value d requeue] b' := by
  rcases nack_cases b s tag requeue with ⟨lane, d, hl, ho, hd, hok⟩ | ⟨e, herr | herr⟩
  · cases h.symm.trans hok
    exact ⟨d, mem_loans_of_get? hl (Table.mem_of_get? hd), .nacked hl ho hd requeue⟩
  · cases h.symm.trans herr
  · cases h.symm.trans herr

/-- A disposition that fails is about no delivery. -/
theorem goes_failed {k : Channel.Call} (hk : Settles k) {e : LinkError}
    (hf : (b.answer s k).1 = Simulation.failing e k) : Goes P b (b.answer s k).2.2 := by
  rcases failed_of_settles hk hf with heq | heq <;> rw [heq]
  · exact .refl
  · exact goes_closeChannel b _ _

/-- A call on a session is about what is out on the session, if about any delivery. -/
theorem goes_answer (h : b.Placed) (s : Session) (k : Channel.Call)
    (hP : Settles k → ∀ x ∈ b.loans, x.channel = s.channel → P x.delivery) :
    Goes P b (b.answer s k).2.2 := by
  cases k with
  | declareExchange name kind how => exact goes_declareExchange h name kind how
  | declareQueue name how => exact goes_declareQueue h name how
  | bind name exchange key => exact goes_bind h _
  | setPrefetch count => exact goes_setPrefetch b count
  | publish exchange key payload options => exact goes_publish h exchange key payload options
  | consume name tag => exact goes_consume b name
  | ack tag => exact goes_ack (hP trivial) tag
  | nack tag requeue => exact goes_nack (hP trivial) tag requeue
  | reopen => exact goes_reopen b s

/-- What a stream takes is a copy of its queue. -/
theorem move_of_take {t : Stream} {m : Message} (h : b.take t = (.message m, b')) :
    ∃ copy tag, m.redelivered = copy.redelivered ∧
      Move b [.delivered t.session.channel tag ⟨t.queue, copy⟩] b' := by
  unfold take at h
  split at h
  · rename_i u lane hcheck hl
    obtain ⟨lane', hl', ho⟩ := lane_of_check hcheck
    rw [hl] at hl'
    cases hl'
    split at h
    · rename_i copy rest hroom hready
      have hmove := Move.delivered hl ho hready
      cases h
      exact ⟨copy, _, rfl, hmove⟩
    · cases h
  · cases h

theorem goes_take (t : Stream)
    (hP : ∀ copy rest, b.ready t.queue = copy :: rest → P ⟨t.queue, copy⟩) :
    Goes P b (b.take t).2 := by
  unfold take
  split
  · rename_i u lane hcheck hl
    obtain ⟨lane', hl', ho⟩ := lane_of_check hcheck
    rw [hl] at hl'
    cases hl'
    split
    · rename_i copy rest hroom hready
      exact .of_about (.delivered hl ho hready) rfl (hP copy rest hready)
    · exact .refl
  · exact .refl

/-! ### Without a session -/

theorem goes_ensureQueue (b : Broker) (name : String) : Goes P b (b.ensureQueue name) := by
  unfold ensureQueue
  split
  · exact .refl
  · rename_i hc
    exact goes_newQueue (by simpa using hc) rfl

theorem goes_ensureExchange (h : b.Placed) (name : String) (kind : ExchangeKind) :
    Goes P b (b.ensureExchange name kind) := by
  unfold ensureExchange
  split
  · exact .refl
  · exact goes_arranged h rfl rfl rfl rfl rfl rfl

open Simulation in
/-- What an operator does is about no delivery. -/
theorem goes_applyToBroker (h : b.Placed) (c : BrokerCall) : Goes P b (applyToBroker c b) := by
  cases c with
  | declareQueue name => exact goes_ensureQueue b name
  | declareExchange name kind => exact goes_ensureExchange h name kind
  | bind x => exact goes_addBinding h x
  | provision =>
      have hexchange : Goes P b (b.ensureExchange Topology.standard.exchange .direct) :=
        goes_ensureExchange h _ _
      have hqueue := hexchange.trans (goes_ensureQueue _ Topology.standard.queue)
      exact hqueue.trans (.foldl (fun _ key hb => goes_addBinding hb _) _ (hqueue.placed h))
  | refuseConnects | denyDeclarations | nackPublishes =>
      exact goes_arranged h rfl rfl rfl rfl rfl rfl
  | dropConnections => exact goes_dropConnections h

/-- **Whatever is done to a broker is done by moves.** -/
theorem goes_doing (h : b.Placed) (d : Deed) : Goes (fun _ => True) b (b.doing d) := by
  cases d with
  | published exchange key payload => exact goes_route exchange key payload
  | operated c => exact goes_applyToBroker h c
  | connected => exact goes_connect h
  | asked s k => exact goes_answer h s k fun _ _ _ _ => trivial
  | took t => exact goes_take t fun _ _ _ => trivial
  | closed s => exact goes_closeSession h s

theorem goes_after (deeds : List Deed) : Goes (fun _ => True) {} (after deeds) :=
  .foldl (fun _ d hb => goes_doing hb d) deeds placed_new

end QueueRelay.Broker

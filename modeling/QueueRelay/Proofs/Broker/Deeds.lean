/-
A broker after anything that was done to it.

Connections, sessions and streams in any number may use a broker, in any order, as well as
make calls that fail; producers publish from outside, and an operator provisions it, arranges
refusals and drops its connections.  Whatever was done, every copy is in one place, because
nothing that can be done takes one out of its place without putting it in another.

A call that fails is the case to look at.  A broker that says no may close the channel that
asked, and a channel that closes gives back what it had.  That is all that it does: what is
out on other channels stays out, and what was ready stays ready behind what came back.
-/
import QueueRelay.Proofs.Broker.Deliveries

namespace QueueRelay.Broker

open Simulation

variable {b b' : Broker} {s : Session}

/-! ### What is done -/

/-- One thing done to a broker. -/
inductive Deed where
  /-- A message is published without a session. -/
  | published (exchange key : String) (payload : ByteArray)
  /-- Something is done that needs no session, such as to drop all connections. -/
  | operated (c : BrokerCall)
  | connected
  | asked (s : Session) (k : Channel.Call)
  /-- A stream is asked for its next delivery. -/
  | took (t : Stream)
  | closed (s : Session)

/-- The broker after a deed. -/
def doing (b : Broker) : Deed → Broker
  | .published exchange key payload => (b.publishOutside exchange key payload).2
  | .operated c => applyToBroker c b
  | .connected => b.connect.2
  | .asked s k => (b.answer s k).2.2
  | .took t => (b.take t).2
  | .closed s => b.closeSession s

/-- A broker that was new, after deeds done one after the other. -/
def after (deeds : List Deed) : Broker := deeds.foldl doing {}

/-! ### Where the copies are afterwards -/

theorem shifts_doing (h : b.Placed) (d : Deed) : ∃ settled, Shifts settled b (b.doing d) := by
  cases d with
  | published exchange key payload => exact ⟨[], shifts_route h exchange key payload⟩
  | operated c => exact ⟨[], shifts_applyToBroker h c⟩
  | connected => exact ⟨[], shifts_connect h⟩
  | asked s k => exact ⟨_, shifts_answer h s k⟩
  | took t => exact ⟨[], shifts_take h t⟩
  | closed s => exact ⟨[], shifts_closeSession h s⟩

/-- **Whatever was done to a broker, each copy is in one place.** -/
theorem placed_after (deeds : List Deed) : (after deeds).Placed := by
  have hall : ∀ b : Broker, b.Placed → (deeds.foldl doing b).Placed := by
    induction deeds with
    | nil => exact fun _ hb => hb
    | cons d deeds ih =>
        intro b hb
        obtain ⟨settled, hd⟩ := shifts_doing hb d
        exact ih _ hd.placed
  exact hall {} placed_new

/-! ### A call that fails -/

/-- What a call that failed has done: nothing, or the broker said no to it. -/
def Declined (s : Session) (b b' : Broker) : Prop :=
  b' = b ∨ ∃ reason, b' = b.closeChannel s.channel reason

/-- A call that fails on an open session, fails as it does there. -/
theorem declined_guarded {α : Type} {act : Broker → Except LinkError α × Broker} {e : LinkError}
    (h : (b.guarded s act).1 = .error e)
    (hact : (act b).1 = .error e → Declined s b (act b).2) :
    Declined s b (b.guarded s act).2 := by
  unfold guarded at h ⊢
  split at h
  · exact hact h
  · exact .inl rfl

theorem declined_refuse {α : Type} (reason : String) (e : LinkError) :
    Declined s b (b.refuse (α := α) s reason e).2 :=
  .inr ⟨reason, rfl⟩

theorem declined_declareExchange {name : String} {kind : ExchangeKind} {how : Declaration}
    {e : LinkError} (h : (b.declareExchange s name kind how).1 = .error e) :
    Declined s b (b.declareExchange s name kind how).2 := by
  refine declined_guarded h ?_
  dsimp only
  split
  · exact fun _ => declined_refuse _ _
  · exact nofun

theorem declined_declareQueue {name : String} {how : Declaration} {e : LinkError}
    (h : (b.declareQueue s name how).1 = .error e) :
    Declined s b (b.declareQueue s name how).2 := by
  refine declined_guarded h ?_
  dsimp only
  split
  · exact fun _ => declined_refuse _ _
  · exact nofun

theorem declined_bind {x : Binding} {e : LinkError} (h : (b.bind s x).1 = .error e) :
    Declined s b (b.bind s x).2 := by
  refine declined_guarded h ?_
  split
  · intro he
    cases he
  · exact fun _ => declined_refuse _ _

theorem declined_setPrefetch {count : Nat} {e : LinkError}
    (h : (b.setPrefetch s count).1 = .error e) : Declined s b (b.setPrefetch s count).2 :=
  declined_guarded h nofun

theorem declined_publish {exchange key : String} {payload : ByteArray}
    {options : PublishOptions} {e : LinkError}
    (h : (b.publish s exchange key payload options).1 = .error e) :
    Declined s b (b.publish s exchange key payload options).2 := by
  refine declined_guarded h ?_
  split
  · exact fun _ => declined_refuse _ _
  · split
    · intro he
      cases he
    · dsimp only
      split <;>
        · intro he
          cases he

theorem declined_consume {name : String} {e : LinkError} (h : (b.consume s name).1 = .error e) :
    Declined s b (b.consume s name).2 := by
  refine declined_guarded h ?_
  split
  · intro he
    cases he
  · exact fun _ => declined_refuse _ _

theorem declined_ack {tag : DeliveryTag} {e : LinkError} (h : (b.ack s tag).1 = .error e) :
    Declined s b (b.ack s tag).2 := by
  refine declined_guarded h ?_
  split
  · exact nofun
  · exact fun _ => declined_refuse _ _

theorem declined_nack {tag : DeliveryTag} {requeue : Bool} {e : LinkError}
    (h : (b.nack s tag requeue).1 = .error e) : Declined s b (b.nack s tag requeue).2 := by
  refine declined_guarded h ?_
  split
  · exact nofun
  · exact fun _ => declined_refuse _ _

theorem declined_reopen {e : LinkError} (h : (b.reopen s).1 = .error e) :
    Declined s b (b.reopen s).2.2 := by
  unfold reopen at h ⊢
  split at h
  · cases h
  · rename_i hc
    rw [if_neg hc]
    exact .inl rfl

/-- **A call that fails leaves the broker as it is, or the broker has said no.** -/
theorem declined_answer {k : Channel.Call} {e : LinkError}
    (h : (b.answer s k).1 = failing e k) : Declined s b (b.answer s k).2.2 := by
  cases k with
  | declareExchange name kind how => exact declined_declareExchange h
  | declareQueue name how => exact declined_declareQueue h
  | bind name exchange key => exact declined_bind h
  | setPrefetch count => exact declined_setPrefetch h
  | publish exchange key payload options => exact declined_publish h
  | consume name tag => exact declined_consume h
  | ack tag => exact declined_ack h
  | nack tag requeue => exact declined_nack h
  | reopen => exact declined_reopen h

/-- No copy changes its place. -/
structure Unmoved (b b' : Broker) : Prop where
  made : b'.made = b.made
  settlements : b'.settlements = b.settlements
  loans : b'.loans = b.loans
  ready : ∀ queue, b'.ready queue = b.ready queue

/-- The copies that were out on a channel are back in front of their queues, and no other
copy changes its place. -/
structure GivenBack (channel : Nat) (b b' : Broker) : Prop where
  made : b'.made = b.made
  settlements : b'.settlements = b.settlements
  loans : b'.loans = b.loans.filter fun x => x.channel ≠ channel
  ready : ∀ queue, b'.ready queue =
    (copiesFrom queue (b.loans.filter fun x => x.channel = channel)).map Copy.returned ++
      b.ready queue

theorem Unmoved.refl : Unmoved b b := ⟨rfl, rfl, rfl, fun _ => rfl⟩

/-- What one channel has out, and what the others have. -/
theorem filter_loans {k : Nat} {lane : Lane} {before after : List Loan}
    (hb : b.loans = before ++ lane.loans k ++ after)
    (hother : ∀ x ∈ before ++ after, x.channel ≠ k) :
    (b.loans.filter fun x => x.channel = k) = lane.loans k ∧
      (b.loans.filter fun x => x.channel ≠ k) = before ++ after := by
  have hlane : ∀ x ∈ lane.loans k, x.channel = k := by
    intro x hx
    obtain ⟨e, -, rfl⟩ := List.mem_map.1 hx
    rfl
  have hbefore : ∀ x ∈ before, x.channel ≠ k := fun x hx => hother x (List.mem_append_left _ hx)
  have hafter : ∀ x ∈ after, x.channel ≠ k := fun x hx => hother x (List.mem_append_right _ hx)
  constructor
  · rw [hb, List.filter_append, List.filter_append,
      List.filter_eq_nil_iff.2 fun x hx => by simpa using hbefore x hx,
      List.filter_eq_self.2 fun x hx => by simpa using hlane x hx,
      List.filter_eq_nil_iff.2 fun x hx => by simpa using hafter x hx,
      List.nil_append, List.append_nil]
  · rw [hb, List.filter_append, List.filter_append,
      List.filter_eq_self.2 fun x hx => by simpa using hbefore x hx,
      List.filter_eq_nil_iff.2 fun x hx => by simpa using hlane x hx,
      List.filter_eq_self.2 fun x hx => by simpa using hafter x hx, List.append_nil]

/-- A channel that ends gives back what it had out, and nothing else moves. -/
theorem givenBack_closeChannel (h : b.Placed) (k : Nat) (reason : String) :
    Unmoved b (b.closeChannel k reason) ∨ GivenBack k b (b.closeChannel k reason) := by
  unfold closeChannel
  split
  · rename_i lane hl
    split
    · obtain ⟨before, after, hb, hother, hset⟩ := loans_around h.sound hl
      obtain ⟨hmine, htheirs⟩ := filter_loans hb hother
      right
      refine ⟨?_, ?_, ?_, ?_⟩
      · simp [made, Event.made?]
      · simp [settlements, Event.gone?]
      · rw [htheirs, hset _ lane.shut rfl]
        simp [Lane.loans, Lane.shut, Table.empty]
      · intro queue
        have hroot : ∀ d ∈ lane.unacked.entries.map Prod.snd, d.queue = queue →
            b.queues.contains queue = true := by
          rintro d hd rfl
          obtain ⟨e, he, rfl⟩ := List.mem_map.1 hd
          exact h.rooted _ (mem_loans_of_get? hl he)
        rw [hmine, copiesFrom_lane, List.map_map]
        exact ready_giveBackAll rfl hroot
    · exact .inl .refl
  · exact .inl .refl

/-- **A call that fails can only give back what its own channel had out.** -/
theorem moved_of_failing (h : b.Placed) {k : Channel.Call} {e : LinkError}
    (he : (b.answer s k).1 = failing e k) :
    Unmoved b (b.answer s k).2.2 ∨ GivenBack s.channel b (b.answer s k).2.2 := by
  rcases declined_answer he with hsame | ⟨reason, hclosed⟩
  · rw [hsame]
    exact .inl .refl
  · rw [hclosed]
    exact givenBack_closeChannel h s.channel reason

/-- A connection that is refused moves nothing. -/
theorem unmoved_of_refused {e : LinkError} (h : b.connect = (.error e, b')) : Unmoved b b' := by
  unfold connect at h
  split at h
  · cases h
    exact ⟨rfl, rfl, rfl, fun _ => rfl⟩
  · cases h

/-! ### Counting copies -/

/-- Number of copies with a payload. -/
def copiesOf (payload : ByteArray) (l : List Delivery) : Nat :=
  l.countP fun d => d.copy.payload = payload

/-- The deliveries that are out on channels that are open. -/
def outOnOpen (b : Broker) : List Delivery :=
  b.channels.entries.flatMap fun e =>
    if e.2.isOpen then e.2.unacked.entries.map Prod.snd else []

/-- The payload of a delivery that was returned for good. -/
def Event.droppedPayload? : Event → Option ByteArray
  | nacked _ _ d false => some d.copy.payload
  | _ => none

/-- The payloads returned for good so far, in order. -/
def dropped (b : Broker) : List ByteArray := b.journal.filterMap Event.droppedPayload?

/-- A copy keeps its payload wherever it goes. -/
theorem copiesOf_fresh (payload : ByteArray) (l : List Delivery) :
    copiesOf payload (l.map Delivery.fresh) = copiesOf payload l := by
  unfold copiesOf
  rw [List.countP_map]
  rfl

theorem copiesOf_append (payload : ByteArray) (l l' : List Delivery) :
    copiesOf payload (l ++ l') = copiesOf payload l + copiesOf payload l' :=
  List.countP_append

/-- What is out is out on channels that are open. -/
theorem outOnOpen_eq (h : b.Sound) : b.outOnOpen = b.lent := by
  have hlanes : b.lent = b.channels.entries.flatMap fun e => e.2.unacked.entries.map Prod.snd := by
    simp [lent, loans, Lane.loans, List.map_flatMap, Function.comp_def]
  rw [hlanes]
  refine List.flatMap_congr fun e he => ?_
  split
  · rfl
  · rename_i ho
    rw [h.emptied e.1 e.2 (Table.get?_of_mem h.nodup he) (by simpa using ho)]
    rfl

/-- An event by which a copy went says that it was acknowledged or returned for good. -/
theorem copiesOf_gone? (payload : ByteArray) (e : Event) :
    copiesOf payload e.gone?.toList =
      e.ackedPayload?.toList.countP (· = payload) +
        e.droppedPayload?.toList.countP (· = payload) := by
  have hone : ∀ d : Delivery, copiesOf payload [d] = [d.copy.payload].countP (· = payload) := by
    intro d
    simp [copiesOf, List.countP_cons]
  cases e with
  | acked channel tag d => exact hone d
  | nacked channel tag d requeue =>
      cases requeue with
      | true => rfl
      | false => exact (hone d).trans (Nat.zero_add _).symm
  | _ => rfl

theorem copiesOf_gone (payload : ByteArray) :
    copiesOf payload b.gone = b.acked.countP (· = payload) + b.dropped.countP (· = payload) := by
  have hgone : b.gone = b.journal.filterMap Event.gone? := by
    unfold gone settlements
    rw [List.filterMap_filter]
    refine List.filterMap_congr fun e _ => ?_
    cases e.gone? <;> rfl
  rw [hgone]
  unfold acked dropped
  induction b.journal with
  | nil => rfl
  | cons e events ih =>
      have hcons : ∀ {β : Type} (f : Event → Option β),
          (e :: events).filterMap f = (f e).toList ++ events.filterMap f := by
        intro β f
        cases he : f e <;> simp [he]
      rw [hcons, hcons, hcons, copiesOf_append, List.countP_append, List.countP_append, ih,
        copiesOf_gone?]
      omega

/-- **No copy is lost, and none is made but by publishing.**  Whatever is done to a broker, by
any number of clients, as many copies with a payload were put on queues as are ready, out on
open channels, acknowledged and returned for good. -/
theorem copies_conserved (deeds : List Deed) :
    (∀ payload, copiesOf payload (after deeds).made =
        copiesOf payload (after deeds).waiting + copiesOf payload (after deeds).outOnOpen +
          (after deeds).acked.countP (· = payload) +
          (after deeds).dropped.countP (· = payload)) ∧
      (∀ k lane, (after deeds).channels.get? k = some lane → lane.isOpen = false →
        lane.unacked.size = 0) ∧
      (∀ t m b', (after deeds).take t = (.message m, b') → (after deeds).Taking t m b') ∧
      (∀ s k e, ((after deeds).answer s k).1 = failing e k →
        Unmoved (after deeds) ((after deeds).answer s k).2.2 ∨
          GivenBack s.channel (after deeds) ((after deeds).answer s k).2.2) ∧
      (∀ e b', (after deeds).connect = (.error e, b') → Unmoved (after deeds) b') := by
  have h := placed_after deeds
  refine ⟨?_, ?_, ?_, ?_, ?_⟩
  · intro payload
    have hcount : copiesOf payload (((after deeds).gone ++ (after deeds).lent ++
        (after deeds).waiting).map Delivery.fresh) =
        copiesOf payload ((after deeds).made.map Delivery.fresh) := h.conserved.countP_eq _
    rw [copiesOf_fresh, copiesOf_fresh, copiesOf_append, copiesOf_append, copiesOf_gone] at hcount
    rw [outOnOpen_eq h.sound]
    omega
  · intro k lane hl ho
    exact congrArg List.length (h.sound.emptied k lane hl ho)
  · intro t m b' ht
    exact taking_take h ht
  · intro s k e he
    exact moved_of_failing h he
  · intro e b' he
    exact unmoved_of_refused he

end QueueRelay.Broker

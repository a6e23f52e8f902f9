/-
From one broker to another.

The backend is a sink with a link of its own, and the broker it publishes to belongs to
others as well: while the sink works, and between its calls, anything may happen there.
What counts as published by the sink is what its own calls add to that broker's journal.

Every message that the sink delivered was published once, and nothing else was.  So what
the source has struck off is found among what was published, in order, and what is
published beyond that are the deliveries whose acknowledgement has not come through.
-/
import QueueRelay.Proofs.Relay.Backend
import QueueRelay.Proofs.Sink.Publishing

namespace QueueRelay

open Broker Program Relay

/-! ### The destination -/

/-- A broker to which a sink publishes, the sessions that the sink was given, and what its
calls added to the journal. -/
structure Outlet extends Source where
  events : List Broker.Event := []

namespace Outlet

/-- What the sink published, in order. -/
def published (d : Outlet) : List Parcel := d.events.filterMap Event.parcel?

/-- The broker as the other side of the sink's link.  Others do what they like with it. -/
def side : Setting (BrokerLink Nat Stream) where
  State := Outlet
  moves d d' := ∃ b, d.broker.journal <+: b.journal ∧ d' = { d with broker := b }
  begins d _ d' := d' = d
  ends d c a d' := d.Answers c a d'.toSource ∧
    d'.events = d.events ++ d'.broker.journal.drop d.broker.journal.length

end Outlet

/-- A call on a link adds to the journal what it publishes. -/
theorem Source.adds_of_answers {w w' : Source} {c : (BrokerLink Nat Stream).Call}
    {a : (BrokerLink Nat Stream).Answer c} (h : w.Answers c a w') :
    Adds (BrokerSink.publishes ⟨c, a⟩) w.broker w'.broker := by
  cases c with
  | connect =>
      have hadds := adds_connect w.broker
      rcases h with ⟨e, -, rfl⟩ | ⟨e, b, hb, -, rfl⟩ | ⟨s, b, hb, -, rfl⟩
      · exact .refl
      · rwa [hb] at hadds
      · rwa [hb] at hadds
  | isOpen j =>
      obtain ⟨s, -, -, rfl⟩ := h
      exact .refl
  | close j =>
      obtain ⟨s, -, rfl⟩ := h
      exact adds_closeSession w.broker s
  | ask j k =>
      rcases h with ⟨e, rfl, rfl⟩ | ⟨s, -, rfl, rfl⟩
      · cases k <;> exact .refl
      · exact adds_answer w.broker s k

/-! ### The backend -/

namespace BrokerSink

/-- The errands of a relay, carried out by a sink. -/
def job : (e : Errand) → BrokerSink Nat →
    Program (BrokerLink Nat Stream) (Errand.calls.Answer e × BrokerSink Nat)
  | .establish, s => Sink.establish s
  | .send m, s => (fun r => (.outcome r.1, r.2)) <$> send m s
  | .close, s => (fun s => ((), s)) <$> Sink.close s

/-- A sink for one place publishes what it delivers there. -/
theorem ledger (place : BrokerPlace) :
    Ledger Outlet.side job (fun s => s.place = place) publishes (parcel place)
      Outlet.published where
  moves := by
    rintro d d' ⟨b, -, rfl⟩
    rfl
  begins := by
    rintro d c d' rfl
    rfl
  ends := by
    rintro d c a d' ⟨ha, hevents⟩
    obtain ⟨events, hj, hp⟩ := Source.adds_of_answers ha
    unfold Outlet.published
    rw [hevents, hj, List.drop_left, List.filterMap_append, hp]
  answered := by
    intro c
    cases c with
    | connect => exact ⟨.error .closed⟩
    | isOpen => exact ⟨true⟩
    | close => exact ⟨.ok ()⟩
    | ask j k => exact ⟨Simulation.failing .closed k⟩
  job := by
    intro e s hs
    subst hs
    cases e with
    | establish => exact (keeps_establish s).weaken fun r b hr => ⟨hr.1, hr.2.symm⟩
    | send m => exact keeps_map.2 (keeps_send m rfl)
    | close => exact keeps_map.2 ((keeps_close s).weaken fun s b hs => ⟨hs.1, hs.2.symm⟩)

/-- For a place without a key of its own, what is published is what came. -/
theorem parcel_exchange {name : String} {m : Message} (hm : m.routingKey.isSome = true) :
    parcel (.exchange name none) m = m.parcel := by
  obtain ⟨key, hkey⟩ := Option.isSome_iff_exists.1 hm
  simp [parcel, Message.parcel, BrokerPlace.aim, hkey]

end BrokerSink

/-! ### Both ends -/

/-- The copies acknowledged first are those that came first, with their keys. -/
theorem Broker.Balanced.acked_first {b : Broker} {queue : String} (h : b.Balanced queue) :
    (b.ackedFrom queue).map Copy.parcel <+: (b.enqueuedOn queue).map Copy.parcel := by
  have hfresh : ∀ l : List Copy, (l.map Copy.fresh).map Copy.parcel = l.map Copy.parcel :=
    fun _ => List.map_map
  rw [← hfresh (b.enqueuedOn queue), ← h.conserved, hfresh, List.append_assoc, List.map_append]
  exact List.prefix_append _ _

section Run

variable {c : Settings} {n : Nat} {r : State Nat Stream} {b : Broker} {d : Outlet}
  {s : BrokerSink Nat} {t : List (calls Nat Stream).Exchange}
  {k : Stage (calls Nat Stream) (Option Finish × State Nat Stream)}
  {v : (setting c.queue (worker Outlet.side BrokerSink.job)).State}

/-- The sink's events stand in the journal of the broker. -/
theorem events_sublist_journal (hr : r.source.session = none) (hd : d.events = [])
    (hrun : (setting c.queue (worker Outlet.side BrokerSink.job)).Reached (run c n r)
      ({ broker := b }, d, .idle s) t k v) :
    v.2.1.events.Sublist v.2.1.broker.journal := by
  have hside : (setting c.queue (worker Outlet.side BrokerSink.job)).Invariant
      (Standing.Step c) fun _ _ _ u => u.2.1.events.Sublist u.2.1.broker.journal := by
    refine side_invariant Outlet.side (fun d => d.events.Sublist d.broker.journal) ?_ ?_ ?_
    · rintro d d' hd ⟨b, hb, rfl⟩
      exact hd.trans hb.sublist
    · rintro d call d' hd rfl
      exact hd
    · rintro d call a d' hd ⟨ha, hevents⟩
      obtain ⟨events, hj, -⟩ := Source.adds_of_answers ha
      rw [hevents, hj, List.drop_left]
      exact hd.append (List.Sublist.refl events)
  obtain ⟨x, -, -, hsub⟩ := hrun.keeps (keeps_run_apart hr n) hside
    (by
      rw [hd]
      exact List.nil_sublist _)
  exact hsub

/-- **What was acknowledged was published, and what was published was delivered.**  However
the two brokers fare, the parcels that the sink published are those of the messages it
delivered, each once and in order; the copies acknowledged at the source are found among
them, with the keys under which they came; and there are as many parcels beyond those as
deliveries that are not acknowledged. -/
theorem published_accounted {name : String} (hb : Source.Lived b)
    (hfree : b.outstanding c.queue = []) (hr : r.source.session = none) (hd : d.events = [])
    (hs : s.place = .exchange name none)
    (hrun : (setting c.queue (worker Outlet.side BrokerSink.job)).Reached (run c n r)
      ({ broker := b }, d, .idle s) t k v) :
    v.2.1.published =
        (messagesOf Handling.isDelivered (handlings t) ++ v.2.2.inHand).map Message.parcel ∧
      v.2.1.events.Sublist v.2.1.broker.journal ∧
      (∃ acked : List Copy,
        v.1.broker.ackedFrom c.queue = b.ackedFrom c.queue ++ acked ∧
        acked.map Copy.parcel =
          (messagesOf Handling.isAcked (handlings t)).map Message.parcel ∧
        (acked.map Copy.parcel).Sublist v.2.1.published ∧
        v.2.1.published.length = acked.length +
          ((handlings t).countP Handling.isUnacked + v.2.2.inHand.length)) ∧
      (b.Balanced c.queue → (v.1.broker.ackedFrom c.queue).map Copy.parcel <+:
        (v.1.broker.enqueuedOn c.queue).map Copy.parcel) := by
  obtain ⟨x, hrest, hkept, made, hmade⟩ :=
    accounted_of_reached (BrokerSink.ledger (.exchange name none)) hb hfree hr hs hrun
  have hkeyed : ∀ m ∈ messagesOf Handling.isDelivered (handlings t) ++ v.2.2.inHand,
      m.routingKey.isSome = true := by
    intro m hm
    rcases List.mem_append.1 hm with hm | hm
    · exact hkept.keyed_of_delivered hm
    · obtain ⟨j, stream, rfl⟩ := holding_of_inHand hrest hmade hm
      exact hkept.keyed_of_holding
  have hpublished : v.2.1.published =
      (messagesOf Handling.isDelivered (handlings t) ++ v.2.2.inHand).map Message.parcel := by
    have hledger := hmade.ledger_eq (BrokerSink.ledger (.exchange name none))
    rw [show d.published = [] by rw [Outlet.published, hd]; rfl, List.nil_append,
      ← hkept.delivered] at hledger
    rw [hledger]
    exact List.map_congr_left fun m hm => BrokerSink.parcel_exchange (hkeyed m hm)
  obtain ⟨acked, hacked, hbase⟩ := hkept.acked
  refine ⟨hpublished, events_sublist_journal hr hd hrun, ⟨acked, hbase, hacked, ?_, ?_⟩,
    fun hbal => (hkept.ordered.balanced hbal).acked_first⟩
  · rw [hacked, hpublished, List.map_append]
    exact ((acked_sublist_delivered hkept.books).map _).trans (List.sublist_append_left _ _)
  · have hlength := congrArg List.length hacked
    rw [List.length_map, List.length_map] at hlength
    rw [hpublished, List.length_map, List.length_append, length_delivered hkept.books, hlength,
      Nat.add_assoc]

end Run

theorem published_accounted_of_one :
    ∃ (b : Broker) (d : Outlet) (s : BrokerSink Nat) (t : List (calls Nat Stream).Exchange)
      (k : Stage (calls Nat Stream) (Option Finish × State Nat Stream))
      (v : (setting "reports" (worker Outlet.side BrokerSink.job)).State),
      (setting "reports" (worker Outlet.side BrokerSink.job)).Reached
        (run { queue := "reports" } 1 {}) ({ broker := b }, d, .idle s) t k v ∧
      v.2.1.published = [(⟨#[1]⟩, some "reports")] ∧
      ∃ acked : List Copy, v.1.broker.ackedFrom "reports" = acked ∧
        (acked.map Copy.parcel).Sublist v.2.1.published ∧ acked.length = 1 := by
  let copy : Copy := { number := 0, payload := ⟨#[1]⟩, key := "reports" }
  let b : Broker :=
    { queues := ⟨[("reports", { ready := [copy] })]⟩
      copies := 1
      journal := [.enqueued "reports" copy] }
  let d : Outlet :=
    { broker :=
        { exchanges := ⟨[("out", { kind := .direct })]⟩
          queues := ⟨[("inbox", {})]⟩
          bindings := [⟨"inbox", "out", "reports"⟩] } }
  let s : BrokerSink Nat := .ofPlace "downstream" "amqp://destination" (.exchange "out" none)
  let c : Settings := { queue := "reports" }
  have hb : Source.Lived b :=
    .went "" (.went "" .new (.operated (.declareQueue "reports")))
      (.published "" "reports" ⟨#[1]⟩)
  have h₀ : (setting c.queue (worker Outlet.side BrokerSink.job)).Reached (run c 1 {})
      ({ broker := b }, d, .idle s) [] _ _ := .start
  have h₁ := reached_source h₀ (.ok 0) (.inr (.inr ⟨_, _, rfl, rfl, rfl⟩))
  have h₂ := Setting.Reached.asked (v := (_, _, .busy _ (.ready _))) h₁ ⟨rfl, _, rfl, rfl⟩
  have h₃ := reached_work h₂ rfl (.ok 0)
    (show Outlet.side.ends _ _ _ ⟨_, _⟩ from ⟨.inr (.inr ⟨_, _, rfl, rfl, rfl⟩), rfl⟩)
  have h₄ := Setting.Reached.answered (v := (_, _, .idle _)) h₃ (.ok ()) ⟨rfl, _, rfl, rfl⟩
  have h₅ := reached_source h₄ true ⟨_, rfl, rfl, rfl⟩
  have h₆ := reached_source h₅ (.ok ()) (.inr ⟨_, rfl, rfl, rfl⟩)
  have h₇ := reached_source h₆ (.ok ⟨⟨1, 2⟩, "reports"⟩) (.inr ⟨_, rfl, rfl, rfl⟩)
  have h₈ := reached_next h₇ (.message _) ⟨_, rfl, rfl⟩
  have h₉ := Setting.Reached.asked (v := (_, _, .busy _ (.ready _))) h₈ ⟨rfl, _, rfl, rfl⟩
  have h₁₀ := reached_work h₉ rfl true
    (show Outlet.side.ends _ _ _ ⟨_, _⟩ from ⟨⟨_, rfl, rfl, rfl⟩, rfl⟩)
  have h₁₁ := reached_work h₁₀ rfl (.ok .confirmed)
    (show Outlet.side.ends _ _ _ ⟨_, _⟩ from ⟨.inr ⟨_, rfl, rfl, rfl⟩, rfl⟩)
  have h₁₂ := Setting.Reached.answered (v := (_, _, .idle _)) h₁₁ (.outcome .delivered)
    ⟨rfl, _, rfl, rfl⟩
  have h₁₃ := reached_source h₁₂ (.ok ()) (.inr ⟨_, rfl, rfl, rfl⟩)
  obtain ⟨-, -, ⟨acked, hbase, -, hsub, hlength⟩, -⟩ :=
    published_accounted hb rfl rfl rfl rfl h₁₃
  exact ⟨b, d, s, _, _, _, h₁₃, rfl, acked, hbase, hsub, hlength.symm⟩

end QueueRelay

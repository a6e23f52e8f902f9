/-
Into a collector.

A collector does what it was told to: it fails, it panics, it cannot be established, it
takes its time, and it can be cut off at any moment, also while a message is on its way.
Whatever of this happens, a message that is sent is kept just if it is delivered, and then
once.  So what the collector keeps is told by the relay's books: the messages that were
acknowledged at the source, and between them those whose acknowledgement failed, which the
source will deliver again.
-/
import QueueRelay.Proofs.Relay.Backend
import QueueRelay.Proofs.Sink.Send

namespace QueueRelay

open Broker Program Relay

namespace Collector

/-! ### The destination -/

/-- A call on a collector. -/
inductive Call where
  | establish
  | transmit (m : Message)
  | close

/-- The calls and their answers; a transmission may be abandoned. -/
abbrev calls : Interface where
  Call := Call
  Answer
    | .establish => Except LinkError Unit
    | .transmit _ => Except Panic (Except LinkError Unit)
    | .close => Unit

/-- A collector that nobody else sends to.  What it does is arranged at any time, and counts
at once. -/
def side : Setting calls where
  State := Collector
  moves d d' := ∃ a, d' = Simulation.applyToCollector a d
  begins d _ d' := d' = d
  ends d c a d' :=
    match c, a with
    | .establish, a => d.establish = (a, d')
    | .transmit m, a => d.transmit m = (a, d')
    | .close, _ => d' = d.close

/-- What the collector keeps of an exchange. -/
def keeps (e : calls.Exchange) : List Message :=
  match e with
  | ⟨.transmit m, .ok (.ok _)⟩ => [m]
  | _ => []

theorem received_establish (d : Collector) : d.establish.2.received = d.received := by
  unfold establish
  dsimp only
  split <;> rfl

/-- A transmission leaves the message just if it is accepted. -/
theorem received_transmit (d : Collector) (m : Message) :
    (d.transmit m).2.received = d.received ++ keeps ⟨.transmit m, (d.transmit m).1⟩ := by
  unfold transmit
  dsimp only
  split
  · exact (List.append_nil _).symm
  · split
    · exact (List.append_nil _).symm
    · split
      · exact (List.append_nil _).symm
      · rfl

theorem received_applyToCollector (a : Simulation.Arrangement) (d : Collector) :
    (Simulation.applyToCollector a d).received = d.received := by
  cases a <;> rfl

/-! ### The backend -/

/-- An attempt to hand over a message, as a call on a collector. -/
def attempt : (c : Attempt.calls.Call) → ExceptT Panic (Program calls) (Attempt.calls.Answer c)
  | .establish => ExceptT.lift (perform (I := calls) .establish)
  | .transmit m => ExceptT.mk (perform (I := calls) (.transmit m))

/-- What the relay gets to know of a message that was sent. -/
def handed : Except Panic Outcome → Handed
  | .ok o => .outcome o
  | .error p => .panicked p.message

/-- The errands of a relay, carried out on a collector. -/
def job : (e : Errand) → Unit → Program calls (Errand.calls.Answer e × Unit)
  | .establish, _ => (fun r => (r, ())) <$> perform (I := calls) .establish
  | .send m, _ => (fun r => (handed r, ())) <$> ((Sink.send m).runIn attempt).run
  | .close, _ => (fun u => (u, ())) <$> perform (I := calls) .close

/-- An attempt leaves the message just if it is accepted; an abandoned one leaves nothing. -/
theorem keeps_attempt {m : Message} {c : Attempt.calls.Call} {b : Bool}
    (hc : ∀ a, ∃ b', Sink.Attempted m b ⟨c, a⟩ b') :
    (attempt c).run.Keeps (Once keeps [m])
      (Halted (fun a b' => Sink.Attempted m b ⟨c, a⟩ b') fun _ b' => b' = false) b := by
  obtain ⟨b', hb'⟩ := hc (.ok ())
  cases hb' with
  | accepted =>
      refine keeps_perform.2 ?_
      intro answer
      match answer with
      | .error p => exact ⟨false, once_nothing rfl, rfl⟩
      | .ok (.error e) => exact ⟨false, once_nothing rfl, .failed e⟩
      | .ok (.ok u) => exact ⟨true, once_entry rfl, .accepted u⟩
  | established =>
      refine keeps_perform_bind ?_
      intro answer
      exact ⟨false, once_nothing rfl, .established answer⟩

/-- Sending leaves a message just if it delivers it, and then once. -/
theorem keeps_send (m : Message) :
    ((Sink.send m).runIn attempt).run.Keeps (Once keeps [m])
      (fun r b => (handed r).isDelivered = b) false := by
  refine (keeps_runIn_except (Sink.attempted_deterministic m) (fun c b => keeps_attempt)
    (Sink.keeps_send m)).weaken fun r b hr => ?_
  cases r with
  | ok o => exact hr
  | error p => exact hr.symm

/-- A collector keeps what is delivered. -/
theorem ledger : Ledger side job (fun _ => True) keeps id Collector.received where
  moves := by
    rintro d d' ⟨a, rfl⟩
    exact received_applyToCollector a d
  begins := by
    rintro d c d' rfl
    rfl
  ends := by
    intro d c a d' he
    cases c with
    | establish =>
        have hd := received_establish d
        rw [show d.establish = (a, d') from he] at hd
        exact hd.trans (List.append_nil _).symm
    | transmit m =>
        have hd := received_transmit d m
        rw [show d.transmit m = (a, d') from he] at hd
        exact hd
    | close =>
        rw [show d' = d.close from he]
        exact (List.append_nil _).symm
  answered := by
    intro c
    cases c with
    | establish => exact ⟨.ok ()⟩
    | transmit m => exact ⟨.ok (.ok ())⟩
    | close => exact ⟨()⟩
  job := by
    intro e s _
    cases e with
    | establish =>
        refine keeps_map.2 (keeps_perform.2 ?_)
        intro answer
        exact ⟨false, once_nothing rfl, trivial, rfl⟩
    | send m => exact keeps_map.2 ((keeps_send m).weaken fun r b hr => ⟨trivial, hr⟩)
    | close =>
        refine keeps_map.2 (keeps_perform.2 ?_)
        intro answer
        exact ⟨false, once_nothing rfl, trivial, rfl⟩

end Collector

/-! ### Both ends -/

section Run

variable {c : Settings} {n : Nat} {r : State Nat Stream} {b : Broker} {d : Collector}
  {t : List (calls Nat Stream).Exchange}
  {k : Stage (calls Nat Stream) (Option Finish × State Nat Stream)}
  {v : (setting c.queue (worker Collector.side Collector.job)).State}

/-- **A collector keeps what was acknowledged, and what failed to be.**  However the collector
and the source fare, a message that is sent is kept once if it is delivered, and not at all
otherwise.  When the run is over, every delivery was acknowledged or its acknowledgement
failed; those that were acknowledged are what the source has struck off, in order; and if no
acknowledgement failed, nothing else was kept. -/
theorem received_accounted (hb : Source.Lived b) (hfree : b.outstanding c.queue = [])
    (hr : r.source.session = none)
    (hrun : (setting c.queue (worker Collector.side Collector.job)).Reached (run c n r)
      ({ broker := b }, d, .idle ()) t k v) :
    v.2.1.received = d.received ++ (t.flatMap delivers ++ v.2.2.inHand) ∧
      v.2.2.inHand.length ≤ 1 ∧
      ∀ f r', k = .ready (.done (some f, r')) →
        v.2.1.received = d.received ++ messagesOf Handling.isDelivered (handlings t) ∧
        (∀ h ∈ handlings t, h.isDelivered = (h.isAcked || h.isAckFailed)) ∧
        ∃ acked : List Copy,
          v.1.broker.ackedFrom c.queue = b.ackedFrom c.queue ++ acked ∧
          (messagesOf Handling.isAcked (handlings t)).map Message.payload =
            acked.map Copy.payload ∧
          ((∀ h ∈ handlings t, h.isAckFailed = false) →
            v.2.1.received.map Message.payload =
              d.received.map Message.payload ++ acked.map Copy.payload) := by
  obtain ⟨x, hrest, hkept, made, hmade⟩ :=
    accounted_of_reached Collector.ledger hb hfree hr trivial hrun
  have hledger := hmade.ledger_eq Collector.ledger
  rw [List.map_id] at hledger
  refine ⟨hledger, v.2.2.length_inHand, ?_⟩
  rintro f r' rfl
  have hreceived : v.2.1.received =
      d.received ++ messagesOf Handling.isDelivered (handlings t) := by
    rw [hledger, hmade.inHand_eq_nil, List.append_nil, hkept.delivered]
  have hcomplete : ∀ h ∈ handlings t, h.isDelivered = (h.isAcked || h.isAckFailed) :=
    fun h hm => (complete_of_ended hrest hkept.books (List.mem_reverse.2 hm)).isDelivered
  obtain ⟨acked, hacked, hbase⟩ := hkept.acked
  have hpayloads : (messagesOf Handling.isAcked (handlings t)).map Message.payload =
      acked.map Copy.payload := by
    have hfst := congrArg (List.map Prod.fst) hacked
    rw [List.map_map, List.map_map] at hfst
    exact hfst.symm
  refine ⟨hreceived, hcomplete, acked, hbase, hpayloads, fun hnone => ?_⟩
  have hall : messagesOf Handling.isDelivered (handlings t) =
      messagesOf Handling.isAcked (handlings t) := by
    refine congrArg _ (List.filter_congr fun h hm => ?_)
    rw [hcomplete h hm, hnone h hm, Bool.or_false]
  rw [hreceived, List.map_append, hall, hpayloads]

end Run

theorem received_accounted_of_one :
    ∃ (b : Broker) (t : List (calls Nat Stream).Exchange) (r : State Nat Stream)
      (v : (setting "reports" (worker Collector.side Collector.job)).State),
      (setting "reports" (worker Collector.side Collector.job)).Reached
        (run { queue := "reports" } 2 {}) ({ broker := b }, {}, .idle ()) t
        (.ready (.done (some .stopped, r))) v ∧
      v.2.1.received = messagesOf Handling.isDelivered (handlings t) ∧
      v.2.1.received.map Message.payload = [⟨#[1]⟩] ∧
      ∃ acked : List Copy, v.1.broker.ackedFrom "reports" = acked ∧
        acked.map Copy.payload = [⟨#[1]⟩] := by
  let copy : Copy := { number := 0, payload := ⟨#[1]⟩, key := "reports" }
  let b : Broker :=
    { queues := ⟨[("reports", { ready := [copy] })]⟩
      copies := 1
      journal := [.enqueued "reports" copy] }
  let c : Settings := { queue := "reports" }
  have hb : Source.Lived b :=
    .went "" (.went "" .new (.operated (.declareQueue "reports")))
      (.published "" "reports" ⟨#[1]⟩)
  have h₀ : (setting c.queue (worker Collector.side Collector.job)).Reached (run c 2 {})
      ({ broker := b }, {}, .idle ()) [] _ _ := .start
  have h₁ := reached_source h₀ (.ok 0) (.inr (.inr ⟨_, _, rfl, rfl, rfl⟩))
  have h₂ := Setting.Reached.asked (v := (_, _, .busy _ (.ready _))) h₁ ⟨rfl, _, rfl, rfl⟩
  have h₃ := reached_work h₂ rfl (.ok ()) rfl
  have h₄ := Setting.Reached.answered (v := (_, _, .idle _)) h₃ (.ok ()) ⟨rfl, _, rfl, rfl⟩
  have h₅ := reached_source h₄ true ⟨_, rfl, rfl, rfl⟩
  have h₆ := reached_source h₅ (.ok ()) (.inr ⟨_, rfl, rfl, rfl⟩)
  have h₇ := reached_source h₆ (.ok ⟨⟨1, 2⟩, "reports"⟩) (.inr ⟨_, rfl, rfl, rfl⟩)
  have h₈ := reached_next h₇ (.message _) ⟨_, rfl, rfl⟩
  have h₉ := Setting.Reached.asked (v := (_, _, .busy _ (.ready _))) h₈ ⟨rfl, _, rfl, rfl⟩
  have h₁₀ := reached_work h₉ rfl (.ok (.ok ())) rfl
  have h₁₁ := Setting.Reached.answered (v := (_, _, .idle _)) h₁₀ (.outcome .delivered)
    ⟨rfl, _, rfl, rfl⟩
  have h₁₂ := reached_source h₁₁ (.ok ()) (.inr ⟨_, rfl, rfl, rfl⟩)
  have h₁₃ := reached_next h₁₂ .stop rfl
  have h₁₄ := Setting.Reached.asked (v := (_, _, .busy _ (.ready _))) h₁₃ ⟨rfl, _, rfl, rfl⟩
  have h₁₅ := reached_work h₁₄ rfl () rfl
  have h₁₆ := Setting.Reached.answered (v := (_, _, .idle _)) h₁₅ () ⟨rfl, _, rfl, rfl⟩
  have h₁₇ := reached_source h₁₆ (.ok ()) ⟨_, rfl, rfl⟩
  obtain ⟨hreceived, -, acked, hbase, hpayloads, hall⟩ :=
    (received_accounted hb rfl rfl h₁₇).2.2 .stopped _ rfl
  exact ⟨b, _, _, _, h₁₇, hreceived, rfl, acked, hbase, hpayloads.symm⟩

end QueueRelay

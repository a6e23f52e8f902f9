/-
No message of the queue is lost, doubled or overtaken.

A queue is consumed by relays that run one after another.  Between their runs nothing of
the queue is out, and during a run at most the one message that the relay has in hand.  So
what was acknowledged, what is out and what is ready are at all times the copies that came
to the queue, in the order in which they came: a delivery that fails goes back to where it
was taken from, whether it is given back, or its connection is lost, or the session it went
to is replaced.

The proof has nothing left to do but to put runs together.  During each of them the source
stays in order, and so it does under everything that others do; a run that has returned has
left its relay apart from the source.
-/
import QueueRelay.Proofs.Relay.Run

namespace QueueRelay

open Broker Program Relay

variable {queue : String}

/-! ### Runs one after another -/

/-- The states that a source can come to while relays consume `queue` on it one after
another, each until it returns, and nobody else takes anything from it.  The flag tells
whether one of them is running. -/
inductive Consumed (queue : String) : Bool → Source → Prop
  | new : Consumed queue false { broker := {} }
  | outside {w : Source} {b : Broker} (h : Consumed queue false w)
      (ho : Source.Outside queue w.broker w.Mine b) :
      Consumed queue false { w with broker := b }
  | running {w : Source} {backend : Setting Errand.calls} {c : Settings} {n : Nat}
      {r : Relay.State Nat Stream} {z : backend.State} {t : List (calls Nat Stream).Exchange}
      {k : Stage (calls Nat Stream) (Option Finish × Relay.State Nat Stream)}
      {v : (setting c.queue backend).State} (h : Consumed queue false w)
      (hq : c.queue = queue) (hr : r.source.session = none)
      (hrun : (setting c.queue backend).Reached (run c n r) (w, z) t k v) :
      Consumed queue true v.1
  | returned {w : Source} {backend : Setting Errand.calls} {c : Settings} {n : Nat}
      {r r' : Relay.State Nat Stream} {f : Finish} {z : backend.State}
      {t : List (calls Nat Stream).Exchange} {v : (setting c.queue backend).State}
      (h : Consumed queue false w) (hq : c.queue = queue) (hr : r.source.session = none)
      (hrun : (setting c.queue backend).Reached (run c n r) (w, z) t
        (.ready (.done (some f, r'))) v) (hf : f ≠ .overflowed) :
      Consumed queue false v.1

theorem balanced_new : Balanced {} queue where
  conserved := rfl
  single := Nat.zero_le 1
  rooted := by
    intro hne
    exact absurd rfl hne

/-- A relay that has returned stands apart from its source. -/
theorem apart_of_ended {f : Finish} {r : Relay.State Nat Stream} {x : Standing Nat Stream}
    (h : Ended (some f, r) x) (hf : f ≠ .overflowed) : x = .apart := by
  cases f with
  | stopped => exact h.1
  | refused e => exact h.1
  | overflowed => exact absurd rfl hf

/-- During a run the source is in order, and after it the relay is apart from it; the copies
of the queue are accounted for throughout. -/
theorem ordered_of_consumed {running : Bool} {w : Source} (h : Consumed queue running w) :
    w.broker.Balanced queue ∧
      ∃ x, w.Ordered queue w.broker x ∧ (running = false → x = .apart) := by
  induction h with
  | new => exact ⟨balanced_new, .apart, Source.Lived.new.ordered rfl, fun _ => rfl⟩
  | outside _ ho ih =>
      obtain ⟨hbal, x, hx, hapart⟩ := ih
      have hx' := hx.outside ho
      exact ⟨hx'.balanced hbal, x, hx'.rebase, hapart⟩
  | running _ hq hr hrun ih =>
      obtain ⟨hbal, x, hx, hapart⟩ := ih
      cases hapart rfl
      subst hq
      obtain ⟨y, -, hkept⟩ := kept_of_reached hx hr hrun
      exact ⟨hkept.ordered.balanced hbal, y, hkept.ordered.rebase, nofun⟩
  | returned _ hq hr hrun hf ih =>
      obtain ⟨hbal, x, hx, hapart⟩ := ih
      cases hapart rfl
      subst hq
      obtain ⟨y, hrest, hkept⟩ := kept_of_reached hx hr hrun
      exact ⟨hkept.ordered.balanced hbal, y, hkept.ordered.rebase,
        fun _ => apart_of_ended hrest hf⟩

/-- **Every copy of a queue is accounted for, in order.**  However relays take turns at a
queue, and whatever else happens to its broker, the payloads acknowledged from the queue,
the one that is out and those that are ready are the payloads ever put there, in the order
in which they came.  No two are ever out, and none is out between two runs. -/
theorem copies_accounted {running : Bool} {w : Source} (h : Consumed queue running w) :
    (w.broker.ackedFrom queue ++ w.broker.outstanding queue ++ w.broker.ready queue).map
        Copy.payload = (w.broker.enqueuedOn queue).map Copy.payload ∧
      (w.broker.outstanding queue).length ≤ 1 ∧
      (running = false → w.broker.outstanding queue = []) := by
  obtain ⟨hbal, x, hx, hapart⟩ := ordered_of_consumed h
  refine ⟨?_, hbal.single, ?_⟩
  · have hfresh : ∀ l : List Copy, (l.map Copy.fresh).map Copy.payload = l.map Copy.payload :=
      fun _ => List.map_map
    rw [← hfresh, ← hfresh (w.broker.enqueuedOn queue), hbal.conserved]
  · intro hr
    cases hapart hr
    exact copiesFrom_eq_nil hx.tallies

/-- A backend that may do anything at any time. -/
def anyBackend : Setting Errand.calls where
  State := Unit
  moves _ _ := True
  begins _ _ _ := True
  ends _ _ _ _ := True

theorem copies_accounted_while_held :
    ∃ w, Consumed "reports" true w ∧
      (w.broker.outstanding "reports").map Copy.payload = [⟨#[1]⟩] ∧
      (w.broker.ready "reports").map Copy.payload = [⟨#[2]⟩] ∧
      (w.broker.ackedFrom "reports" ++ w.broker.outstanding "reports" ++
        w.broker.ready "reports").map Copy.payload =
        (w.broker.enqueuedOn "reports").map Copy.payload := by
  -- two messages are waiting, and the relay has taken the first
  let copies : List Copy :=
    [{ number := 0, payload := ⟨#[1]⟩, key := "reports" },
      { number := 1, payload := ⟨#[2]⟩, key := "reports" }]
  let filled : Broker :=
    { queues := ⟨[("reports", { ready := copies })]⟩
      copies := 2
      journal := copies.map (.enqueued "reports") }
  let w : Source := { broker := filled }
  let c : Settings := { queue := "reports" }
  have hw : Consumed "reports" false w :=
    .outside (.outside (.outside .new (.operated (.declareQueue "reports")))
      (.published "" "reports" ⟨#[1]⟩)) (.published "" "reports" ⟨#[2]⟩)
  have h₀ : (setting "reports" anyBackend).Reached (run c 1 {}) (w, ()) [] _ (w, ()) := .start
  have h₁ := reached_source h₀ (.ok 0) (.inr (.inr ⟨_, _, rfl, rfl, rfl⟩))
  have h₂ := reached_establish h₁ (show anyBackend.begins () .establish () from trivial) (.ok ())
    (show anyBackend.ends () .establish (.ok ()) () from trivial)
  have h₃ := reached_source h₂ true ⟨_, rfl, rfl, rfl⟩
  have h₄ := reached_source h₃ (.ok ()) (.inr ⟨_, rfl, rfl, rfl⟩)
  have h₅ := reached_source h₄ (.ok ⟨⟨1, 2⟩, "reports"⟩) (.inr ⟨_, rfl, rfl, rfl⟩)
  have h₆ := reached_next h₅ (.message _) ⟨_, rfl, rfl⟩
  have hrun := hw.running (c := c) rfl rfl h₆
  exact ⟨_, hrun, rfl, rfl, (copies_accounted hrun).1⟩

end QueueRelay

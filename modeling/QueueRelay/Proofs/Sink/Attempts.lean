/-
What is tried to send a message, and what comes of it.

There are four courses that sending can take, one for each way in which the answers can
decide it, and every answer is possible in each place.  What the outcome says is read off
them: which of the attempts to transmit were accepted, whether the sink was established
between them, and how the last attempt failed.

This holds for whatever carries out the two operations of a sink, and in whatever state: a
run of the whole is a run of `send` whose calls were carried out (`yields_sendThrough_iff`).
-/
import QueueRelay.Proofs.Program.Yielding
import QueueRelay.Proofs.Sink.Send

namespace QueueRelay.Sink

open Program

variable {m : Message} {t : List Attempt.calls.Exchange} {o : Outcome}

/-! ### The courses -/

/-- What an attempt to transmit comes to if it is the last. -/
def outcomeOf : Except LinkError Unit → Outcome
  | .ok _ => .delivered
  | .error e => .ofError e

/-- The course that sending takes, and its outcome. -/
inductive Sends (m : Message) : List Attempt.calls.Exchange → Outcome → Prop
  | accepted (u : Unit) : Sends m [⟨.transmit m, .ok u⟩] .delivered
  | failed {e : LinkError} (he : e.isConnection = false) :
      Sends m [⟨.transmit m, .error e⟩] (.ofError e)
  | cut {e : LinkError} (he : e.isConnection = true) (e' : LinkError) :
      Sends m [⟨.transmit m, .error e⟩, ⟨.establish, .error e'⟩]
        (.connectivityFailure e'.message)
  | again {e : LinkError} (he : e.isConnection = true) (u : Unit) (r : Except LinkError Unit) :
      Sends m [⟨.transmit m, .error e⟩, ⟨.establish, .ok u⟩, ⟨.transmit m, r⟩] (outcomeOf r)

theorem yields_resend_iff :
    (resend m).Yields t o ↔ ∃ r, t = [⟨.transmit m, r⟩] ∧ o = outcomeOf r := by
  constructor
  · intro h
    obtain ⟨r, u, rfl, hrest⟩ := Yields.of_perform_bind h
    cases r <;>
      · obtain ⟨rfl, rfl⟩ := yields_pure.1 hrest
        exact ⟨_, rfl, rfl⟩
  · rintro ⟨r, rfl, rfl⟩
    cases r <;> exact .call _ (.done _)

/-- **Sending takes one of these courses**, and each can be taken. -/
theorem yields_send_iff : (send m).Yields t o ↔ Sends m t o := by
  constructor
  · intro h
    obtain ⟨r, u, rfl, hsent⟩ := Yields.of_perform_bind h
    cases r with
    | ok v =>
        obtain ⟨rfl, rfl⟩ := yields_pure.1 hsent
        exact .accepted v
    | error e =>
        dsimp only at hsent
        cases he : e.isConnection with
        | false =>
            rw [if_neg (ne_true_of_eq_false he)] at hsent
            obtain ⟨rfl, rfl⟩ := yields_pure.1 hsent
            exact .failed he
        | true =>
            rw [if_pos he] at hsent
            obtain ⟨r', u', rfl, hopened⟩ := Yields.of_perform_bind hsent
            cases r' with
            | ok v =>
                obtain ⟨r, rfl, rfl⟩ := yields_resend_iff.1 hopened
                exact .again he v r
            | error e' =>
                obtain ⟨rfl, rfl⟩ := yields_pure.1 hopened
                exact .cut he e'
  · intro h
    cases h with
    | accepted v => exact .perform_bind (.done _)
    | failed he =>
        refine .perform_bind ?_
        dsimp only
        rw [if_neg (ne_true_of_eq_false he)]
        exact .done _
    | cut he e' =>
        refine .perform_bind ?_
        dsimp only
        rw [if_pos he]
        exact .perform_bind (.done _)
    | again he v r =>
        refine .perform_bind ?_
        dsimp only
        rw [if_pos he]
        exact .perform_bind (yields_resend_iff.2 ⟨r, rfl, rfl⟩)

/-- Whatever is answered in the three places, sending comes to an outcome. -/
theorem exists_yields_send (m : Message) (r₁ r r₂ : Except LinkError Unit) :
    ∃ t o, (send m).Yields t o ∧
      t <+: [⟨.transmit m, r₁⟩, ⟨.establish, r⟩, ⟨.transmit m, r₂⟩] := by
  cases r₁ with
  | ok u => exact ⟨_, _, yields_send_iff.2 (.accepted u), _, rfl⟩
  | error e =>
      cases he : e.isConnection with
      | false => exact ⟨_, _, yields_send_iff.2 (.failed he), _, rfl⟩
      | true =>
          cases r with
          | ok u => exact ⟨_, _, yields_send_iff.2 (.again he u r₂), _, rfl⟩
          | error e' => exact ⟨_, _, yields_send_iff.2 (.cut he e'), _, rfl⟩

/-! ### The kinds of outcome -/

theorem ofError_ne_delivered (e : LinkError) : Outcome.ofError e ≠ .delivered := by
  intro h
  have hnot := isDelivered_ofError e
  rw [h] at hnot
  cases hnot

theorem ofError_connectivity {e : LinkError} :
    (∃ reason, Outcome.ofError e = .connectivityFailure reason) ↔ e.isConnection = true := by
  cases e <;> simp [Outcome.ofError, LinkError.isConnection]

theorem ofError_unroutable {e : LinkError} :
    (∃ reason, Outcome.ofError e = .unroutable reason) ↔ ∃ reason, e = .unroutable reason := by
  cases e <;> simp [Outcome.ofError, LinkError.isConnection]

theorem ofError_unknown {e : LinkError} :
    (∃ reason, Outcome.ofError e = .unknownFailure reason) ↔
      e.isConnection = false ∧ ∀ reason, e ≠ .unroutable reason := by
  cases e <;> simp [Outcome.ofError, LinkError.isConnection]

/-! ### What was tried, and what is made of it -/

/-- The answers that were there: to the first attempt, to establishing the sink, and to the
second attempt. -/
structure Answers where
  first : Except LinkError Unit
  between : Option (Except LinkError Unit) := none
  second : Option (Except LinkError Unit) := none

namespace Answers

/-- An attempt failed because the link is gone. -/
def Cut (answer : Except LinkError Unit) : Prop :=
  ∃ e, answer = .error e ∧ e.isConnection = true

@[simp] theorem not_cut_ok (u : Unit) : ¬ Cut (.ok u) := by simp [Cut]

@[simp] theorem cut_error {e : LinkError} : Cut (.error e) ↔ e.isConnection = true := by
  simp [Cut]

variable (r : Answers)

/-- The exchanges in which they came; both attempts are of the same message. -/
def exchanges (m : Message) : List Attempt.calls.Exchange :=
  ⟨.transmit m, r.first⟩ ::
    (r.between.toList.map (⟨.establish, ·⟩) ++ r.second.toList.map (⟨.transmit m, ·⟩))

/-- How many attempts were accepted. -/
def landings : Nat :=
  (r.first :: r.second.toList).countP fun answer => answer matches .ok _

/-- The sink was to be established and could not be. -/
def Refused : Prop := ∃ e, r.between = some (.error e)

/-- The link is gone, and a new one did not help. -/
def Severed : Prop := r.Refused ∨ ∃ answer ∈ r.second, Cut answer

/-- The destination was reached by the last attempt and has no place for the message. -/
def Homeless : Prop :=
  (∃ reason, r.second.getD r.first = .error (.unroutable reason)) ∧ ¬ r.Refused

end Answers

/-- When the sink is established and the message transmitted again, and which kind of outcome
is made of the answers. -/
structure Judged (r : Answers) (o : Outcome) : Prop where
  /-- The sink is established just if the first attempt found the link gone. -/
  establishes : r.between.isSome ↔ Answers.Cut r.first
  /-- The message is transmitted again just if that worked. -/
  repeats : r.second.isSome ↔ r.between = some (.ok ())
  /-- It is never accepted twice. -/
  at_most_once : r.landings ≤ 1
  delivered : o = .delivered ↔ r.landings = 1
  connectivity : (∃ reason, o = .connectivityFailure reason) ↔ r.Severed
  unroutable : (∃ reason, o = .unroutable reason) ↔ r.Homeless
  unknown : (∃ reason, o = .unknownFailure reason) ↔
    r.landings ≠ 1 ∧ ¬ r.Severed ∧ ¬ r.Homeless

open Answers in
/-- Each course is one of answers that are judged by these rules. -/
theorem Sends.judged (h : Sends m t o) : ∃ r : Answers, t = r.exchanges m ∧ Judged r o := by
  cases h with
  | accepted u =>
      refine ⟨{ first := .ok u }, rfl, ?_⟩
      constructor <;> simp [Severed, Homeless, Refused, landings]
  | @failed e he =>
      refine ⟨{ first := .error e }, rfl, ?_⟩
      constructor <;>
        simp [Severed, Homeless, Refused, landings, ofError_ne_delivered, ofError_connectivity,
          ofError_unroutable, ofError_unknown, he]
  | @cut e he e' =>
      refine ⟨{ first := .error e, between := some (.error e') }, rfl, ?_⟩
      constructor <;> simp [Severed, Homeless, Refused, landings, he]
  | @again e he u answer =>
      refine ⟨{ first := .error e, between := some (.ok u), second := some answer }, rfl, ?_⟩
      cases answer with
      | ok v => constructor <;> simp [Severed, Homeless, Refused, landings, outcomeOf, he]
      | error e' =>
          constructor <;>
            simp [Severed, Homeless, Refused, landings, outcomeOf, ofError_ne_delivered,
              ofError_connectivity, ofError_unroutable, ofError_unknown, he]

/-! ### Through a sink -/

section Through

variable {I : Interface} {S : Type}

/-- The operations of a sink as answers to the calls on it. -/
def carryOut (establish : S → Program I (Except LinkError Unit × S))
    (transmit : Message → S → Program I (Except LinkError Unit × S)) :
    (c : Attempt.calls.Call) → StateT S (Program I) (Attempt.calls.Answer c)
  | .establish => establish
  | .transmit m => transmit m

variable {establish : S → Program I (Except LinkError Unit × S)}
  {transmit : Message → S → Program I (Except LinkError Unit × S)} {s s' : S}
  {u : List I.Exchange}

/-- To send through a sink is to take one of the courses by its operations. -/
theorem yields_sendThrough_iff :
    (sendThrough establish transmit m s).Yields u (o, s') ↔
      ∃ t, Sends m t o ∧ Carried (carryOut establish transmit) s t u s' := by
  have hsame : sendThrough establish transmit m s =
      (send m).runIn (carryOut establish transmit) s := by
    unfold sendThrough
    congr 1
  rw [hsame, yields_runIn]
  simp only [yields_send_iff]

/-- **A message is transmitted once, and once more if the sink had to be established anew.**

Whatever is answered, sending comes to an outcome.  It transmits the message; just if that
finds the link gone it establishes the sink, once; and just if that works it transmits the
same message once more.  No message is accepted twice, and the kind of the outcome tells what
became of it.  So it is through every sink, whatever its operations do with its state, and
what they do is all that is done. -/
theorem sends_once_or_twice (establish : S → Program I (Except LinkError Unit × S))
    (transmit : Message → S → Program I (Except LinkError Unit × S)) (m : Message) (s : S) :
    (∀ r₁ r r₂, ∃ t o, (send m).Yields t o ∧
      t <+: [⟨.transmit m, r₁⟩, ⟨.establish, r⟩, ⟨.transmit m, r₂⟩]) ∧
    (∀ t o, (send m).Yields t o → ∃ r : Answers, t = r.exchanges m ∧ Judged r o) ∧
    ∀ u o s', (sendThrough establish transmit m s).Yields u (o, s') →
      ∃ r : Answers, Carried (carryOut establish transmit) s (r.exchanges m) u s' ∧
        Judged r o := by
  refine ⟨exists_yields_send m, fun t o h => (yields_send_iff.1 h).judged, fun u o s' h => ?_⟩
  obtain ⟨t, hsends, hcarried⟩ := yields_sendThrough_iff.1 h
  obtain ⟨r, rfl, hjudged⟩ := hsends.judged
  exact ⟨r, hcarried, hjudged⟩

end Through

/-- A sink without a state of its own, all of whose answers come from outside. -/
def bare (c : Attempt.calls.Call) (u : Unit) :
    Program Attempt.calls (Except LinkError Unit × Unit) := do
  return (← Program.perform (I := Attempt.calls) c, u)

/-- The first attempt finds the link gone; the sink is established, and the second attempt is
accepted. -/
theorem sends_twice_over_new_link :
    let m : Message := { payload := ⟨#[104, 105]⟩, tag := ⟨1⟩ }
    let u : List Attempt.calls.Exchange :=
      [⟨.transmit m, .error .closed⟩, ⟨.establish, .ok ()⟩, ⟨.transmit m, .ok ()⟩]
    (sendThrough (bare .establish) (fun m => bare (.transmit m)) m ()).Yields u
        (.delivered, ()) ∧
      ∃ r : Answers, r.landings = 1 ∧
        Carried (carryOut (bare .establish) fun m => bare (.transmit m)) () (r.exchanges m) u () ∧
        Judged r .delivered := by
  intro m u
  have hrun : (sendThrough (bare .establish) (fun m => bare (.transmit m)) m ()).Yields u
      (.delivered, ()) :=
    .call _ (.call _ (.call _ (.done _)))
  obtain ⟨r, hcarried, hjudged⟩ :=
    (sends_once_or_twice (bare .establish) (fun m => bare (.transmit m)) m ()).2.2 u _ _ hrun
  exact ⟨hrun, r, hjudged.delivered.1 rfl, hcarried, hjudged⟩

end QueueRelay.Sink

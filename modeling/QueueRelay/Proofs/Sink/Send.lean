/-
A message is delivered just if a transmission of it was accepted.

Sending makes at most two attempts, and between them at most one to establish the sink
anew.  Seen from outside all that matters is whether an attempt was accepted: nothing is
tried after that, so at most one is, and the outcome tells which.
-/
import QueueRelay.Proofs.Program.Answering
import QueueRelay.Sink.Send

namespace QueueRelay.Sink

open Program

/-- The attempts to hand over `m`; the flag tells whether one was accepted. -/
inductive Attempted (m : Message) : Bool → Attempt.calls.Exchange → Bool → Prop
  | accepted (u : Unit) : Attempted m false ⟨.transmit m, .ok u⟩ true
  | failed (e : LinkError) : Attempted m false ⟨.transmit m, .error e⟩ false
  | established (r : Except LinkError Unit) : Attempted m false ⟨.establish, r⟩ false

theorem attempted_deterministic (m : Message) : Deterministic (Attempted m) := by
  intro b e b' b'' h h'
  cases h <;> cases h' <;> rfl

/-- No error amounts to a delivery. -/
theorem isDelivered_ofError (e : LinkError) : (Outcome.ofError e).isDelivered = false := by
  unfold Outcome.ofError
  split
  · rfl
  · split <;> rfl

theorem keeps_resend (m : Message) :
    (resend m).Keeps (Attempted m) (fun o b => o.isDelivered = b) false := by
  refine keeps_perform_bind ?_
  intro answer
  cases answer with
  | ok u => exact ⟨true, .accepted u, rfl⟩
  | error e => exact ⟨false, .failed e, isDelivered_ofError e⟩

/-- Sending a message delivers it just if an attempt was accepted. -/
theorem keeps_send (m : Message) :
    (send m).Keeps (Attempted m) (fun o b => o.isDelivered = b) false := by
  refine keeps_perform_bind ?_
  intro answer
  cases answer with
  | ok u => exact ⟨true, .accepted u, rfl⟩
  | error e =>
      refine ⟨false, .failed e, ?_⟩
      dsimp only
      split
      · refine keeps_perform_bind ?_
        intro answer
        refine ⟨false, .established answer, ?_⟩
        cases answer with
        | ok u => exact keeps_resend m
        | error e => rfl
      · exact isDelivered_ofError e

end QueueRelay.Sink

/-
What a link asks on its own account.

To look after its session a link opens, looks at and closes sessions.  It makes no call on
one: those are for its owner to make.  So whatever is claimed of the calls on a session
leaves the upkeep of the link aside.
-/
import QueueRelay.Link
import QueueRelay.Proofs.Program.Rule

namespace QueueRelay.Link

open Program

variable {C : Interface} {σ : Type}

/-- The calls that are not made on a session. -/
def Own : Call C σ → Prop
  | .connect | .isOpen _ | .close _ => True
  | .ask _ _ => False

/-- The calls that open no session either. -/
def Idle : Call C σ → Prop
  | .isOpen _ | .close _ => True
  | .connect | .ask _ _ => False

theorem Idle.own {c : Call C σ} (h : Idle c) : Own c := by
  cases c with
  | isOpen | close => trivial
  | connect | ask => exact h.elim

theorem idle_isLive (l : Link σ) : (l.isLive (C := C)).Only Idle := by
  unfold isLive
  split
  · split
    · exact only_perform trivial
    · trivial
  · trivial

theorem idle_discard (l : Link σ) : (l.discard (C := C)).Only Idle := by
  unfold discard
  split
  · refine Only.bind (only_perform trivial) fun isOpen => ?_
    split
    · exact Only.bind (only_perform trivial) fun _ => trivial
    · trivial
  · trivial

theorem idle_release (l : Link σ) : (l.release (C := C)).Only Idle := by
  unfold release
  split
  · exact Only.bind (only_perform trivial) fun _ => trivial
  · trivial

theorem only_isLive (l : Link σ) : (l.isLive (C := C)).Only Own :=
  l.idle_isLive.mono fun _ => Idle.own

theorem only_discard (l : Link σ) : (l.discard (C := C)).Only Own :=
  l.idle_discard.mono fun _ => Idle.own

theorem only_establish (l : Link σ) : (l.establish (C := C)).Only Own := by
  refine Only.bind l.only_discard fun _ => Only.bind (only_perform trivial) fun answer => ?_
  cases answer <;> trivial

theorem only_ensureLive (l : Link σ) : (l.ensureLive (C := C)).Only Own := by
  refine Only.bind l.only_isLive fun live => ?_
  split
  · split <;> trivial
  · exact l.only_establish

theorem only_release (l : Link σ) : (l.release (C := C)).Only Own :=
  l.idle_release.mono fun _ => Idle.own

end QueueRelay.Link

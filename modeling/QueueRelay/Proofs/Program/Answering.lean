/-
Programs whose calls are answered by programs.

A small program over a few calls is often run with each of its calls carried out by a
program of its own, which has a state or may break off.  What is known of the small program
carries over.  If it keeps to a rule, and whatever carries out a call keeps to another rule
in such a way that the standing changes as the first rule says, then the whole keeps to the
second rule.

The first rule has to be deterministic.  The small program was only shown to keep to it
from some standing that the rule allows, and that has to be the one which carrying out the
call leads to.
-/
import QueueRelay.Proofs.Program.Rule

namespace QueueRelay

namespace Program

variable {I J : Interface} {α S ε M : Type}

/-- The calls of a sequence are answered one part after the other. -/
theorem runIn_bind {β : Type} {m : Type → Type} [Monad m] [LawfulMonad m]
    (answer : (c : J.Call) → m (J.Answer c)) (p : Program J α) (f : α → Program J β) :
    (p >>= f).runIn answer = p.runIn answer >>= fun a => (f a).runIn answer := by
  show (p.bind f).runIn answer = _
  induction p with
  | done a => simp [runIn]
  | call c next ih => simp [runIn, ih]

/-- An exchange leads from a standing to at most one other. -/
def Deterministic (rule : M → J.Exchange → M → Prop) : Prop :=
  ∀ m e m' m'', rule m e m' → rule m e m'' → m' = m''

variable {rule : M → J.Exchange → M → Prop} {rule' : M → I.Exchange → M → Prop}
  {post : α → M → Prop} {p : Program J α} {m : M}

/-- A program whose calls are carried out on a state.  What it keeps to is followed beside
what the state keeps to, and the two standings fit each other at every call. -/
theorem keeps_runIn_beside {K : Type} {small : K → J.Exchange → K → Prop} {post : α → K → Prop}
    {answer : (c : J.Call) → StateT S (Program I) (J.Answer c)} {s : S} {k : K}
    (fits : S → K → M → Prop) (hdet : Deterministic small)
    (hanswer : ∀ c s k m, fits s k m → (∀ a, ∃ k', small k ⟨c, a⟩ k') →
      (answer c s).Keeps rule' (fun r m' => ∃ k', small k ⟨c, r.1⟩ k' ∧ fits r.2 k' m') m)
    (hp : p.Keeps small post k) (hs : fits s k m) :
    (p.runIn answer s).Keeps rule' (fun r m' => ∃ k', post r.1 k' ∧ fits r.2 k' m') m := by
  induction p generalizing s k m with
  | done a => exact ⟨k, hp, hs⟩
  | call c next ih =>
      refine (hanswer c s k m hs (Keeps.allowed hp)).bind ?_
      rintro r m' ⟨k', hk', hr⟩
      obtain ⟨k'', hk'', hnext⟩ := hp r.1
      -- the standing the call leads to is the one from which the rest was shown to go on
      have heq : k' = k'' := hdet _ _ _ _ hk' hk''
      subst heq
      exact ih r.1 hnext hr

/-- A program whose calls are carried out on a state that satisfies `fits`. -/
theorem keeps_runIn_state {answer : (c : J.Call) → StateT S (Program I) (J.Answer c)}
    {fits : S → Prop} {s : S} (hdet : Deterministic rule)
    (hanswer : ∀ c s m, fits s → (∀ a, ∃ m', rule m ⟨c, a⟩ m') →
      (answer c s).Keeps rule' (fun r m' => fits r.2 ∧ rule m ⟨c, r.1⟩ m') m)
    (hp : p.Keeps rule post m) (hs : fits s) :
    (p.runIn answer s).Keeps rule' (fun r m' => fits r.2 ∧ post r.1 m') m := by
  refine (keeps_runIn_beside (fun s k m => fits s ∧ k = m) hdet (fun c s k m hsk hc => ?_) hp
    ⟨hs, rfl⟩).weaken fun r m' h => ?_
  · obtain ⟨hs, rfl⟩ := hsk
    exact (hanswer c s k hs hc).weaken fun r m' hr => ⟨m', hr.2, hr.1, rfl⟩
  · obtain ⟨k', hpost, hfits, rfl⟩ := h
    exact ⟨hfits, hpost⟩

/-- A program whose every call is carried out on a state that fits the standing, and leaves
one that does. -/
theorem keeps_runIn {answer : (c : J.Call) → StateT S (Program I) (J.Answer c)}
    {s : S} (fits : S → M → Prop)
    (hanswer : ∀ c s m, fits s m → (answer c s).Keeps rule' (fun r m' => fits r.2 m') m)
    (p : Program J α) (hs : fits s m) :
    (p.runIn answer s).Keeps rule' (fun r m' => fits r.2 m') m := by
  induction p generalizing s m with
  | done a => exact hs
  | call c next ih => exact (hanswer c s m hs).bind fun r _ hr => ih r.1 hr

/-- Where a program stands that came to its result, or that broke off. -/
def Halted (post : α → M → Prop) (broken : ε → M → Prop) : Except ε α → M → Prop
  | .ok a, m => post a m
  | .error e, m => broken e m

/-- A program whose calls may break off, which then stands as `broken` says. -/
theorem keeps_runIn_except {answer : (c : J.Call) → ExceptT ε (Program I) (J.Answer c)}
    {broken : ε → M → Prop} (hdet : Deterministic rule)
    (hanswer : ∀ c m, (∀ a, ∃ m', rule m ⟨c, a⟩ m') →
      (answer c).run.Keeps rule' (Halted (fun a m' => rule m ⟨c, a⟩ m') broken) m)
    (hp : p.Keeps rule post m) :
    (p.runIn answer).run.Keeps rule' (Halted post broken) m := by
  induction p generalizing m with
  | done a => exact hp
  | call c next ih =>
      refine (hanswer c m (Keeps.allowed hp)).bind ?_
      intro r m' hr
      cases r with
      | error e => exact hr
      | ok a =>
          obtain ⟨m'', hm'', hnext⟩ := hp a
          have heq : m' = m'' := hdet _ _ _ _ hr hm''
          subst heq
          exact ih a hnext

end Program

end QueueRelay

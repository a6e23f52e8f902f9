/-
Programs at work in a world that moves.

A call takes time.  Whatever is on the other side may move before the call arrives, while
it is answered, and after that, and it may move although nothing was asked.  A `Setting`
gives the other side a state and says how it moves by itself, how a call arrives and how it
is answered; `Reached` lists every state that a program at work in a setting can come to.

What holds of all of them is proved from the steps.  `Invariant` asks that each kind of
step keeps it, with the help of a rule the program keeps to: the rule says which calls
there are at all, so only those have to be looked at.
-/
import QueueRelay.Proofs.Program.Rule

namespace QueueRelay

/-- The other side of an interface. -/
structure Setting (I : Interface) where
  State : Type
  /-- What may happen without being asked for. -/
  moves : State → State → Prop
  /-- What may happen when a call arrives. -/
  begins : State → I.Call → State → Prop
  /-- What may happen when a call is answered. -/
  ends : State → (c : I.Call) → I.Answer c → State → Prop

/-- How far a program is. -/
inductive Stage (I : Interface) (α : Type) where
  /-- This program remains, and none of its calls has arrived. -/
  | ready (p : Program I α)
  /-- A call arrived and is not answered; its answer decides how the program goes on. -/
  | waiting (c : I.Call) (next : I.Answer c → Program I α)

namespace Stage

variable {I : Interface} {α : Type}

/-- The program that remains, with the call that is not answered. -/
def rest : Stage I α → Program I α
  | ready p => p
  | waiting c next => .call c next

/-- The call that arrived and is not answered. -/
def pending : Stage I α → Option I.Call
  | ready _ => none
  | waiting c _ => some c

end Stage

namespace Setting

open Program

variable {I : Interface} {α M : Type} {S : Setting I}

/-- What a program can come to that begins in the state `w`: the exchanges it had, how far
it is, and the state of the other side. -/
inductive Reached (S : Setting I) (p : Program I α) (w : S.State) :
    List I.Exchange → Stage I α → S.State → Prop
  | start : Reached S p w [] (.ready p) w
  | moved {t : List I.Exchange} {k : Stage I α} {u v : S.State}
      (h : Reached S p w t k u) (hm : S.moves u v) : Reached S p w t k v
  | asked {t : List I.Exchange} {c : I.Call} {next : I.Answer c → Program I α}
      {u v : S.State} (h : Reached S p w t (.ready (.call c next)) u)
      (hb : S.begins u c v) : Reached S p w t (.waiting c next) v
  | answered {t : List I.Exchange} {c : I.Call} {next : I.Answer c → Program I α}
      {u v : S.State} (h : Reached S p w t (.waiting c next) u) (answer : I.Answer c)
      (he : S.ends u c answer v) : Reached S p w (t ++ [⟨c, answer⟩]) (.ready (next answer)) v

variable {p : Program I α} {w v : S.State} {t : List I.Exchange} {k : Stage I α}

/-- What was exchanged leads the program to what remains of it. -/
theorem Reached.leads (h : S.Reached p w t k v) : p.Leads t k.rest := by
  induction h with
  | start => exact .here p
  | moved _ _ ih => exact ih
  | asked _ _ ih => exact ih
  | answered _ answer _ ih => exact ih.snoc answer

/-- A property of where the rule stands, what was exchanged, which call is not answered and
the state of the other side, which is kept in every step. -/
structure Invariant (S : Setting I) (rule : M → I.Exchange → M → Prop)
    (P : M → List I.Exchange → Option I.Call → S.State → Prop) : Prop where
  moves : ∀ m t o u v, P m t o u → S.moves u v → P m t o v
  begins : ∀ m t c u v, (∀ answer, ∃ m', rule m ⟨c, answer⟩ m') → P m t none u →
    S.begins u c v → P m t (some c) v
  ends : ∀ m t c answer m' u v, rule m ⟨c, answer⟩ m' → P m t (some c) u →
    S.ends u c answer v → P m' (t ++ [⟨c, answer⟩]) none v

/-- Two properties that are kept are kept together. -/
theorem Invariant.and {rule : M → I.Exchange → M → Prop}
    {P Q : M → List I.Exchange → Option I.Call → S.State → Prop}
    (hP : S.Invariant rule P) (hQ : S.Invariant rule Q) :
    S.Invariant rule fun m t o u => P m t o u ∧ Q m t o u where
  moves := by
    intro m t o u v h hm
    exact ⟨hP.moves m t o u v h.1 hm, hQ.moves m t o u v h.2 hm⟩
  begins := by
    intro m t c u v hr h hb
    exact ⟨hP.begins m t c u v hr h.1 hb, hQ.begins m t c u v hr h.2 hb⟩
  ends := by
    intro m t c a m' u v hr h he
    exact ⟨hP.ends m t c a m' u v hr h.1 he, hQ.ends m t c a m' u v hr h.2 he⟩

/-- **What every step keeps holds wherever the program can come to.** -/
theorem Reached.keeps {rule : M → I.Exchange → M → Prop} {post : α → M → Prop} {m : M}
    {P : M → List I.Exchange → Option I.Call → S.State → Prop}
    (h : S.Reached p w t k v) (hp : p.Keeps rule post m) (hP : S.Invariant rule P)
    (hw : P m [] none w) :
    ∃ m', Path rule m t m' ∧ k.rest.Keeps rule post m' ∧ P m' t k.pending v := by
  induction h with
  | start => exact ⟨m, .here m, hp, hw⟩
  | moved _ hm ih =>
      obtain ⟨m', hpath, hkeeps, hPu⟩ := ih
      exact ⟨m', hpath, hkeeps, hP.moves _ _ _ _ _ hPu hm⟩
  | asked _ hb ih =>
      obtain ⟨m', hpath, hkeeps, hPu⟩ := ih
      exact ⟨m', hpath, hkeeps, hP.begins _ _ _ _ _ (Keeps.allowed hkeeps) hPu hb⟩
  | answered _ answer he ih =>
      obtain ⟨m', hpath, hkeeps, hPu⟩ := ih
      obtain ⟨m'', hstep, hrest⟩ := hkeeps answer
      exact ⟨m'', hpath.snoc hstep, hrest, hP.ends _ _ _ _ _ _ _ hstep hPu he⟩

end Setting

end QueueRelay

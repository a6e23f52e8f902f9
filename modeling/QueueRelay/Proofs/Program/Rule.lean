/-
Programs that keep to a rule.

`Yields` speaks of a program that has come to its result.  Most of what is claimed of a
relay is claimed of every moment, so `Leads` speaks of a program as far as it has come:
the calls it made, the answers it got, and the program that remains.

A rule is a relation between what stood before an exchange and what stands after it.  It
says which calls may be made and what follows from their answers.  That a program keeps
to a rule is a statement about its tree alone, by recursion on it, and so it can be
proved part by part, along the binds of which the program is made.  `Keeps.leads` then
carries it over to every run: what was exchanged is a path of the rule, and what remains
of the program keeps to the rule from where the path ends.
-/
import QueueRelay.Program

namespace QueueRelay

namespace Program

variable {I : Interface} {α β : Type}

/-- `p.Leads t q` holds when the answers in `t` lead `p` through exactly the calls in `t`,
after which `q` remains to be run. -/
inductive Leads : Program I α → List I.Exchange → Program I α → Prop
  | here (p : Program I α) : Leads p [] p
  | call {c : I.Call} {next : I.Answer c → Program I α} {t : List I.Exchange}
      {q : Program I α} (answer : I.Answer c) (rest : Leads (next answer) t q) :
      Leads (.call c next) (⟨c, answer⟩ :: t) q

/-- What remains of a program begins with the call `c`. -/
def Asks (p : Program I α) (c : I.Call) : Prop :=
  ∃ next, p = .call c next

/-- A run goes on with one more exchange. -/
theorem Leads.snoc {p : Program I α} {t : List I.Exchange} {c : I.Call}
    {next : I.Answer c → Program I α} (h : p.Leads t (.call c next)) (answer : I.Answer c) :
    p.Leads (t ++ [⟨c, answer⟩]) (next answer) := by
  generalize hq : Program.call c next = q at h
  induction h with
  | here p =>
      subst hq
      exact .call answer (.here _)
  | call a _ ih => exact .call a (ih hq)

/-! ### Rules -/

/-- `Path rule m t m'` holds when `rule` allows the exchanges of `t` one after the other,
from `m` to `m'`. -/
inductive Path {M : Type} (rule : M → I.Exchange → M → Prop) :
    M → List I.Exchange → M → Prop
  | here (m : M) : Path rule m [] m
  | step {m m' m'' : M} {e : I.Exchange} {t : List I.Exchange} (h : rule m e m')
      (rest : Path rule m' t m'') : Path rule m (e :: t) m''

/-- Whatever is answered, every call of the program is one that `rule` allows, from `m` on,
and the program ends only where `post` holds of its result. -/
def Keeps {M : Type} (rule : M → I.Exchange → M → Prop) (post : α → M → Prop) :
    Program I α → M → Prop
  | done a, m => post a m
  | call c next, m => ∀ answer, ∃ m', rule m ⟨c, answer⟩ m' ∧ (next answer).Keeps rule post m'

/-- Every call that the program can make satisfies `P`. -/
def Only (P : I.Call → Prop) : Program I α → Prop
  | done _ => True
  | call c next => P c ∧ ∀ answer, (next answer).Only P

theorem Only.bind {P : I.Call → Prop} {p : Program I α} {f : α → Program I β}
    (hp : p.Only P) (hf : ∀ a, (f a).Only P) : (p >>= f).Only P := by
  show (p.bind f).Only P
  induction p with
  | done a => exact hf a
  | call c next ih =>
      refine ⟨hp.1, ?_⟩
      intro answer
      exact ih answer (hp.2 answer)

/-- What is allowed of every call is allowed of fewer. -/
theorem Only.mono {P Q : I.Call → Prop} {p : Program I α} (h : p.Only P)
    (hPQ : ∀ c, P c → Q c) : p.Only Q := by
  induction p with
  | done a => trivial
  | call c next ih => exact ⟨hPQ c h.1, fun answer => ih answer (h.2 answer)⟩

theorem only_perform {P : I.Call → Prop} {c : I.Call} (h : P c) : (perform c).Only P :=
  ⟨h, fun _ => trivial⟩

section Rules

variable {M : Type} {rule rule' : M → I.Exchange → M → Prop}

theorem path_append {m m'' : M} {t₁ t₂ : List I.Exchange} :
    Path rule m (t₁ ++ t₂) m'' ↔ ∃ m', Path rule m t₁ m' ∧ Path rule m' t₂ m'' := by
  -- a path is cut where the first list ends
  induction t₁ generalizing m with
  | nil =>
      constructor
      · intro h
        exact ⟨m, .here m, h⟩
      · rintro ⟨m', h₁, h₂⟩
        cases h₁
        exact h₂
  | cons e t₁ ih =>
      constructor
      · intro h
        cases h with
        | step he rest =>
            obtain ⟨m', h₁, h₂⟩ := ih.1 rest
            exact ⟨m', .step he h₁, h₂⟩
      · rintro ⟨m', h₁, h₂⟩
        cases h₁ with
        | step he rest => exact .step he (ih.2 ⟨m', rest, h₂⟩)

theorem Path.snoc {m m' m'' : M} {t : List I.Exchange} {e : I.Exchange}
    (h : Path rule m t m') (he : rule m' e m'') : Path rule m (t ++ [e]) m'' :=
  path_append.2 ⟨m', h, .step he (.here m'')⟩

/-- What a rule keeps in every step is kept along a path. -/
theorem Path.preserves {P : M → List I.Exchange → Prop}
    (hstep : ∀ m e m' t, rule m e m' → P m t → P m' (t ++ [e])) {m m' : M}
    {t : List I.Exchange} (h : Path rule m t m') (s : List I.Exchange) (hm : P m s) :
    P m' (s ++ t) := by
  induction h generalizing s with
  | here m => simpa using hm
  | step he _ ih =>
      have hnext := ih (s ++ [_]) (hstep _ _ _ s he hm)
      rw [List.append_assoc] at hnext
      exact hnext

/-! ### Keeping to a rule -/

theorem keeps_perform {c : I.Call} {post : I.Answer c → M → Prop} {m : M} :
    (perform c).Keeps rule post m ↔ ∀ answer, ∃ m', rule m ⟨c, answer⟩ m' ∧ post answer m' :=
  Iff.rfl

/-- A sequence keeps to a rule if its parts do, each from where the one before it ends. -/
theorem keeps_bind {p : Program I α} {f : α → Program I β} {post : β → M → Prop} {m : M} :
    (p >>= f).Keeps rule post m ↔ p.Keeps rule (fun a m => (f a).Keeps rule post m) m := by
  show (p.bind f).Keeps rule post m ↔ _
  induction p generalizing m with
  | done a => exact Iff.rfl
  | call c next ih =>
      show (∀ answer, ∃ m', rule m ⟨c, answer⟩ m' ∧ ((next answer).bind f).Keeps rule post m') ↔
        ∀ answer, ∃ m', rule m ⟨c, answer⟩ m' ∧
          (next answer).Keeps rule (fun a m => (f a).Keeps rule post m) m'
      simp only [ih]

theorem keeps_map {p : Program I α} {f : α → β} {post : β → M → Prop} {m : M} :
    (f <$> p).Keeps rule post m ↔ p.Keeps rule (fun a m => post (f a) m) m := by
  rw [← bind_pure_comp, keeps_bind]
  exact Iff.rfl

/-- A stricter rule and a stronger end do as well. -/
theorem Keeps.imp {p : Program I α} {post post' : α → M → Prop} {m : M}
    (h : p.Keeps rule post m) (hr : ∀ m e m', rule m e m' → rule' m e m')
    (hp : ∀ a m, post a m → post' a m) : p.Keeps rule' post' m := by
  induction p generalizing m with
  | done a => exact hp a m h
  | call c next ih =>
      intro answer
      obtain ⟨m', he, hrest⟩ := h answer
      have he' : rule' m ⟨c, answer⟩ m' := hr m _ m' he
      exact ⟨m', he', ih answer hrest⟩

/-- A stronger end does as well. -/
theorem Keeps.weaken {p : Program I α} {post post' : α → M → Prop} {m : M}
    (h : p.Keeps rule post m) (hp : ∀ a m, post a m → post' a m) : p.Keeps rule post' m :=
  h.imp (fun _ _ _ => id) hp

/-- Whatever is answered, the rule allows the call with which a program begins. -/
theorem Keeps.allowed {c : I.Call} {next : I.Answer c → Program I α} {post : α → M → Prop}
    {m : M} (h : (call c next).Keeps rule post m) (answer : I.Answer c) :
    ∃ m', rule m ⟨c, answer⟩ m' := by
  obtain ⟨m', hm', -⟩ := h answer
  exact ⟨m', hm'⟩

/-- A program goes on from wherever its first part ends. -/
theorem Keeps.bind {p : Program I α} {f : α → Program I β} {mid : α → M → Prop}
    {post : β → M → Prop} {m : M} (hp : p.Keeps rule mid m)
    (hf : ∀ a m', mid a m' → (f a).Keeps rule post m') : (p >>= f).Keeps rule post m :=
  keeps_bind.2 (hp.weaken hf)

/-- A program goes on from wherever the answer to its first call leads. -/
theorem keeps_perform_bind {c : I.Call} {f : I.Answer c → Program I β} {post : β → M → Prop}
    {m : M} (h : ∀ answer, ∃ m', rule m ⟨c, answer⟩ m' ∧ (f answer).Keeps rule post m') :
    (perform c >>= f).Keeps rule post m :=
  keeps_bind.2 (keeps_perform.2 h)

/-- A program whose every call leaves a standing as it is ends in that standing. -/
theorem Only.keeps {P : I.Call → Prop} {p : Program I α} {m : M} (h : p.Only P)
    (hstay : ∀ c answer, P c → rule m ⟨c, answer⟩ m) :
    p.Keeps rule (fun _ m' => m' = m) m := by
  induction p with
  | done a => rfl
  | call c next ih =>
      intro answer
      exact ⟨m, hstay c answer h.1, ih answer (h.2 answer)⟩

/-- Along every run the exchanges are a path of the rule, and what remains of the program
keeps to the rule from its end. -/
theorem Keeps.leads {p q : Program I α} {post : α → M → Prop} {m : M}
    {t : List I.Exchange} (h : p.Keeps rule post m) (ht : p.Leads t q) :
    ∃ m', Path rule m t m' ∧ q.Keeps rule post m' := by
  induction ht generalizing m with
  | here p => exact ⟨m, .here m, h⟩
  | call answer _ ih =>
      obtain ⟨m', he, hrest⟩ := h answer
      obtain ⟨m'', hpath, hkeeps⟩ := ih hrest
      exact ⟨m'', .step he hpath, hkeeps⟩

end Rules

/-! ### Calls that are answered by programs over another interface -/

section Through

variable {J : Interface} {answer : (c : I.Call) → Program J (I.Answer c)} {p : Program I α}

theorem Only.through {P : J.Call → Prop} {Q : I.Call → Prop} (h : p.Only Q)
    (hQ : ∀ c, Q c → (answer c).Only P) : (p.through answer).Only P := by
  induction p with
  | done a => trivial
  | call c next ih => exact (hQ c h.1).bind fun a => ih a (h.2 a)

/-- Where each call becomes one exchange, a rule is kept before just as it is kept after. -/
theorem keeps_through {M : Type} {rule : M → J.Exchange → M → Prop}
    {rule' : M → I.Exchange → M → Prop} {post : α → M → Prop} {m : M}
    (h : ∀ c m (post : I.Answer c → M → Prop), (answer c).Keeps rule post m ↔
      ∀ a, ∃ m', rule' m ⟨c, a⟩ m' ∧ post a m') :
    (p.through answer).Keeps rule post m ↔ p.Keeps rule' post m := by
  induction p generalizing m with
  | done a => exact Iff.rfl
  | call c next ih =>
      show (answer c >>= fun a => (next a).through answer).Keeps rule post m ↔
        ∀ a, ∃ m', rule' m ⟨c, a⟩ m' ∧ (next a).Keeps rule' post m'
      rw [keeps_bind, h]
      simp only [ih]

end Through

/-! ### Adding something once -/

/-- The exchange adds nothing, or it is the first that adds something and adds `entry`; the
flag tells whether that was done. -/
def Once {E γ : Type} (gain : E → List γ) (entry : List γ) (b : Bool) (e : E) (b' : Bool) :
    Prop :=
  b = false ∧ if b' then gain e = entry else gain e = []

theorem once_nothing {E γ : Type} {gain : E → List γ} {entry : List γ} {e : E}
    (h : gain e = []) : Once gain entry false e false :=
  ⟨rfl, h⟩

theorem once_entry {E γ : Type} {gain : E → List γ} {entry : List γ} {e : E}
    (h : gain e = entry) : Once gain entry false e true :=
  ⟨rfl, h⟩

end Program

end QueueRelay

/-!
Programs that talk to something outside themselves.

A `Program I α` either has its result, or makes one call of the interface `I` and
goes on with whatever answer comes back.  Nothing is assumed about the other side:
a law proved of a program by induction on its tree holds for every server, broker
or network that could answer it, and for every moment at which something else
acts between two of its calls.

The same tree is run in three ways.  `runIn` answers each call in a monad, which is
how a simulated broker or a real one is attached.  `through` answers each call by a
program over another interface, which is how a small interface is embedded in a
larger one.  `Yields` relates a program to the calls it made and the answers it got.
-/
namespace QueueRelay

/-- The calls that can be made across a boundary, and the type of the answer to each. -/
structure Interface where
  /-- What can be asked. -/
  Call : Type
  /-- What comes back for each call. -/
  Answer : Call → Type

/-- One call together with the answer it got. -/
structure Interface.Exchange (I : Interface) where
  /-- What was asked. -/
  call : I.Call
  /-- What came back. -/
  answer : I.Answer call

/-- A finite computation that may make calls of `I` before it has its result. -/
inductive Program (I : Interface) (α : Type) : Type where
  /-- The result is there. -/
  | done (a : α)
  /-- One call is outstanding; its answer decides how the program goes on. -/
  | call (c : I.Call) (next : I.Answer c → Program I α)

namespace Program

variable {I J : Interface} {α β : Type}

/-- Runs `p`, then the program its result selects. -/
def bind : Program I α → (α → Program I β) → Program I β
  | done a, f => f a
  | call c next, f => call c fun answer => bind (next answer) f

instance : Monad (Program I) where
  pure := done
  bind := bind

/-- The program that makes one call and returns its answer. -/
def perform (c : I.Call) : Program I (I.Answer c) :=
  call c done

/-- Answers every call of `p` in the monad `m`. -/
def runIn {m : Type → Type} [Monad m] (answer : (c : I.Call) → m (I.Answer c)) :
    Program I α → m α
  | done a => pure a
  | call c next => do
    let reply ← answer c
    runIn answer (next reply)

/-- Answers every call of `p` by a program over another interface. -/
def through (answer : (c : I.Call) → Program J (I.Answer c)) : Program I α → Program J α
  | done a => done a
  | call c next => (answer c).bind fun reply => through answer (next reply)

/-- `p.Yields t a` holds when the answers in `t` lead `p` through exactly the calls in
`t` to the result `a`. -/
inductive Yields : Program I α → List I.Exchange → α → Prop
  | done (a : α) : Yields (.done a) [] a
  | call {c : I.Call} {next : I.Answer c → Program I α} {t : List I.Exchange} {a : α}
      (answer : I.Answer c) (rest : Yields (next answer) t a) :
      Yields (.call c next) (⟨c, answer⟩ :: t) a

/-! ### Running is compositional -/

@[simp] theorem done_bind (a : α) (f : α → Program I β) : (done a).bind f = f a := rfl

@[simp] theorem call_bind (c : I.Call) (next : I.Answer c → Program I α) (f : α → Program I β) :
    (call c next).bind f = call c fun answer => (next answer).bind f := rfl

theorem bind_done (p : Program I α) : p.bind done = p := by
  induction p with
  | done a => rfl
  | call c next ih => simp [ih]

theorem bind_assoc {γ : Type} (p : Program I α) (f : α → Program I β) (g : β → Program I γ) :
    (p.bind f).bind g = p.bind fun a => (f a).bind g := by
  induction p with
  | done a => rfl
  | call c next ih => simp [ih]

instance : LawfulMonad (Program I) :=
  LawfulMonad.mk' (Program I) (fun p => bind_done p) (fun _ _ => rfl) bind_assoc

/-- A run of a sequence splits into a run of each part. -/
theorem yields_bind {p : Program I α} {f : α → Program I β} {t : List I.Exchange} {b : β} :
    (p.bind f).Yields t b ↔ ∃ t₁ t₂ a, t = t₁ ++ t₂ ∧ p.Yields t₁ a ∧ (f a).Yields t₂ b := by
  induction p generalizing t with
  | done a =>
    constructor
    · intro h
      exact ⟨[], t, a, rfl, .done a, h⟩
    · rintro ⟨t₁, t₂, a', rfl, h₁, h₂⟩
      cases h₁
      exact h₂
  | call c next ih =>
    constructor
    · intro h
      cases h with
      | call answer rest =>
        obtain ⟨t₁, t₂, a, rfl, h₁, h₂⟩ := (ih answer).1 rest
        exact ⟨⟨c, answer⟩ :: t₁, t₂, a, rfl, .call answer h₁, h₂⟩
    · rintro ⟨t₁, t₂, a, rfl, h₁, h₂⟩
      cases h₁ with
      | call answer rest => exact .call answer ((ih answer).2 ⟨_, _, a, rfl, rest, h₂⟩)

end Program

end QueueRelay

/-
Programs of clients, answered by a broker.

A client runs a program of calls on a session.  Alone with a broker it has one answer after
the other.  Clients that share a broker take turns, and each makes one call in its turn; a
schedule says whose turns they are, so a call of one can fall between any two of another.

Both are argued about in the same way.  Each program keeps to a rule, whatever it is
answered, so there is always a standing from which it goes on.  A property of the standings
and of the broker that every answer of the broker keeps then holds wherever the clients come
to.  And if each exchange that the rule allows brings a program closer to its end, a program
that has had turns enough has its result.
-/
import Mathlib.Logic.Function.Basic
import QueueRelay.Broker
import QueueRelay.Proofs.Program.Rule

namespace QueueRelay.Broker

open Program

variable {ι α M : Type} {rule : M → (Channel.calls Stream).Exchange → M → Prop}
  {post : α → M → Prop}

/-! ### Alone -/

/-- A client that is alone with a broker. -/
structure Client where
  broker : Broker
  session : Session
  /-- What it asked and what it was answered, in order. -/
  said : List (Channel.calls Stream).Exchange := []

namespace Client

/-- The broker answers the client's next call. -/
def ask (c : Channel.Call) : StateM Client ((Channel.calls Stream).Answer c) := fun w =>
  let (a, s, b) := w.broker.answer w.session c
  (a, { broker := b, session := s, said := w.said ++ [⟨c, a⟩] })

/-- What the client comes to with a program, and the program's result. -/
def run (w : Client) (p : Program (Channel.calls Stream) α) : α × Client := p.runIn ask w

/-- What every answer keeps holds when the program has its result. -/
theorem keeps_run {P : M → Client → Prop}
    (hstep : ∀ m w c m', rule m ⟨c, (w.broker.answer w.session c).1⟩ m' → P m w →
      P m' (ask c w).2)
    {p : Program (Channel.calls Stream) α} {m : M} {w : Client} (hp : p.Keeps rule post m)
    (hw : P m w) : ∃ m', post (w.run p).1 m' ∧ P m' (w.run p).2 := by
  induction p generalizing m w with
  | done a => exact ⟨m, hp, hw⟩
  | call c next ih =>
      obtain ⟨m', he, hnext⟩ := hp (w.broker.answer w.session c).1
      exact ih _ hnext (hstep m w c m' he hw)

end Client

/-! ### Taking turns -/

/-- Clients of one broker, each with what remains of its program. -/
structure Clients (ι α : Type) where
  broker : Broker
  session : ι → Session
  rest : ι → Program (Channel.calls Stream) α

namespace Clients

variable [DecidableEq ι] {w : Clients ι α} {i j : ι} {left : M → Nat}
  {P : (ι → M) → Broker → (ι → Session) → Prop}

/-- One client makes its next call, unless it has its result. -/
def turn (w : Clients ι α) (i : ι) : Clients ι α :=
  match w.rest i with
  | .done _ => w
  | .call c next =>
    let (a, s, b) := w.broker.answer (w.session i) c
    { broker := b
      session := Function.update w.session i s
      rest := Function.update w.rest i (next a) }

/-- Clients take the turns of a schedule. -/
def after (w : Clients ι α) (schedule : List ι) : Clients ι α := schedule.foldl turn w

/-- Each program keeps to the rule from its standing, and the property holds. -/
structure Kept (rule : M → (Channel.calls Stream).Exchange → M → Prop) (post : α → M → Prop)
    (P : (ι → M) → Broker → (ι → Session) → Prop) (ms : ι → M) (w : Clients ι α) : Prop where
  keeps : ∀ i, (w.rest i).Keeps rule post (ms i)
  holds : P ms w.broker w.session

theorem rest_turn_of_done {a : α} (h : w.rest j = .done a) : (w.turn i).rest j = .done a := by
  unfold turn
  split
  · exact h
  · rename_i c next hc
    have hji : j ≠ i := by
      rintro rfl
      rw [h] at hc
      cases hc
    exact (Function.update_of_ne hji _ _).trans h

/-- A client that has its result keeps it. -/
theorem rest_after_of_done {a : α} (h : w.rest j = .done a) (schedule : List ι) :
    (w.after schedule).rest j = .done a := by
  induction schedule generalizing w with
  | nil => exact h
  | cons i schedule ih => exact ih (rest_turn_of_done h)

/-- A turn keeps what every answer keeps, and brings the client closer to its end. -/
theorem kept_turn
    (hleft : ∀ m e m', rule m e m' → left m' < left m)
    (hstep : ∀ ms b ss i c m', rule (ms i) ⟨c, (b.answer (ss i) c).1⟩ m' → P ms b ss →
      P (Function.update ms i m') (b.answer (ss i) c).2.2
        (Function.update ss i (b.answer (ss i) c).2.1))
    {ms : ι → M} (h : Kept rule post P ms w) (i : ι) :
    ∃ ms', Kept rule post P ms' (w.turn i) ∧
      ∀ j, (∃ a, w.rest j = .done a) ∨ left (ms' j) + [i].count j ≤ left (ms j) := by
  unfold turn
  split
  · rename_i a ha
    refine ⟨ms, h, fun j => ?_⟩
    by_cases hji : j = i
    · subst hji
      exact .inl ⟨a, ha⟩
    · exact .inr (by simp [Ne.symm hji])
  · rename_i c next hc
    have hkeeps := h.keeps i
    rw [hc] at hkeeps
    obtain ⟨m', he, hnext⟩ := hkeeps (w.broker.answer (w.session i) c).1
    refine ⟨Function.update ms i m', ⟨fun j => ?_, hstep ms _ _ i c m' he h.holds⟩, fun j => ?_⟩
    · by_cases hji : j = i
      · subst hji
        simpa using hnext
      · simpa [hji] using h.keeps j
    · right
      by_cases hji : j = i
      · subst hji
        simpa using Nat.succ_le_of_lt (hleft _ _ _ he)
      · simp [hji, Ne.symm hji]

/-- **What every answer keeps holds after every schedule**, and a client that has had turns
enough has its result. -/
theorem kept_after
    (hleft : ∀ m e m', rule m e m' → left m' < left m)
    (hstep : ∀ ms b ss i c m', rule (ms i) ⟨c, (b.answer (ss i) c).1⟩ m' → P ms b ss →
      P (Function.update ms i m') (b.answer (ss i) c).2.2
        (Function.update ss i (b.answer (ss i) c).2.1))
    {ms : ι → M} (h : Kept rule post P ms w) (schedule : List ι) :
    ∃ ms', Kept rule post P ms' (w.after schedule) ∧
      ∀ j, (∃ a, (w.after schedule).rest j = .done a) ∨
        left (ms' j) + schedule.count j ≤ left (ms j) := by
  induction schedule generalizing w ms with
  | nil => exact ⟨ms, h, fun j => .inr (Nat.le_refl _)⟩
  | cons i schedule ih =>
      obtain ⟨ms', hturn, hfewer⟩ := kept_turn hleft hstep h i
      obtain ⟨ms'', hafter, hleft'⟩ := ih hturn
      refine ⟨ms'', hafter, fun j => ?_⟩
      rcases hfewer j with ⟨a, ha⟩ | hj
      · exact .inl ⟨a, rest_after_of_done ha (i :: schedule)⟩
      · rcases hleft' j with hdone | hj'
        · exact .inl hdone
        · right
          rw [← List.singleton_append, List.count_append]
          omega

end Clients

end QueueRelay.Broker

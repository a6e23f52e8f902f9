/-
What a program exchanged to come to its result.

`Yields` is built forwards, from the parts of a program to the whole.  Here it is taken
apart again: from the result of a sequence to what each of its parts exchanged.
-/
import QueueRelay.Proofs.Program.Rule

namespace QueueRelay.Program

variable {I : Interface} {α β : Type} {p : Program I α} {t : List I.Exchange}

/-- A result that is there takes no exchange. -/
theorem yields_pure {a b : α} : (pure a : Program I α).Yields t b ↔ t = [] ∧ b = a := by
  constructor
  · intro h
    cases h
    exact ⟨rfl, rfl⟩
  · rintro ⟨rfl, rfl⟩
    exact .done b

/-- A call is one exchange, whose answer is the result. -/
theorem yields_perform {c : I.Call} {a : I.Answer c} :
    (perform c).Yields t a ↔ t = [⟨c, a⟩] := by
  constructor
  · intro h
    cases h with
    | call answer rest =>
        cases rest
        rfl
  · rintro rfl
    exact .call a (.done a)

/-- What a sequence exchanged are the exchanges of its parts, one after the other. -/
theorem Yields.of_bind {f : α → Program I β} {b : β} (h : (p >>= f).Yields t b) :
    ∃ t₁ t₂ a, t = t₁ ++ t₂ ∧ p.Yields t₁ a ∧ (f a).Yields t₂ b :=
  yields_bind.1 h

/-- The exchange of a sequence that begins with a call comes before those of the rest. -/
theorem Yields.perform_bind {c : I.Call} {f : I.Answer c → Program I β} {a : I.Answer c} {b : β}
    (h : (f a).Yields t b) : (perform c >>= f).Yields (⟨c, a⟩ :: t) b :=
  .call a h

/-- A sequence that begins with a call begins with that exchange. -/
theorem Yields.of_perform_bind {c : I.Call} {f : I.Answer c → Program I β} {b : β}
    (h : (perform c >>= f).Yields t b) :
    ∃ a u, t = ⟨c, a⟩ :: u ∧ (f a).Yields u b := by
  obtain ⟨t₁, u, a, rfl, hc, hf⟩ := h.of_bind
  rw [yields_perform.1 hc]
  exact ⟨a, u, rfl, hf⟩

/-- A program whose result is changed exchanges what it exchanged before. -/
theorem yields_map {f : α → β} {b : β} : (f <$> p).Yields t b ↔ ∃ a, p.Yields t a ∧ b = f a := by
  rw [← bind_pure_comp]
  constructor
  · intro h
    obtain ⟨u, v, a, rfl, hp, hdone⟩ := h.of_bind
    obtain ⟨rfl, rfl⟩ := yields_pure.1 hdone
    rw [List.append_nil]
    exact ⟨a, hp, rfl⟩
  · rintro ⟨a, hp, rfl⟩
    exact yields_bind.2 ⟨t, [], a, (List.append_nil t).symm, hp, .done _⟩

/-- The exchanges of a program that came to its result lead it there. -/
theorem Yields.leads {a : α} (h : p.Yields t a) : p.Leads t (.done a) := by
  induction h with
  | done a => exact .here _
  | call answer _ ih => exact .call answer ih

/-- What led to a program, and what that program exchanged to come to its result. -/
theorem Leads.yields {q : Program I α} {u : List I.Exchange} {a : α} (h : p.Leads t q)
    (hq : q.Yields u a) : p.Yields (t ++ u) a := by
  induction h with
  | here p => exact hq
  | call answer _ ih => exact .call answer (ih hq)

/-- Where every call can be answered somehow, a program can come to a result. -/
theorem exists_yields (hI : ∀ c, Nonempty (I.Answer c)) (p : Program I α) :
    ∃ t a, p.Yields t a := by
  induction p with
  | done a => exact ⟨[], a, .done a⟩
  | call c next ih =>
      obtain ⟨answer⟩ := hI c
      obtain ⟨t, a, h⟩ := ih answer
      exact ⟨_, a, .call answer h⟩

/-- What every call of a program satisfies, the calls of its exchanges do. -/
theorem Only.of_yields {P : I.Call → Prop} {a : α} (hp : p.Only P) (h : p.Yields t a) :
    ∀ e ∈ t, P e.call := by
  induction h with
  | done a => exact nofun
  | call answer _ ih => exact List.forall_mem_cons.2 ⟨hp.1, ih (hp.2 answer)⟩

/-- Where each call becomes one exchange, the exchanges are those of the program. -/
theorem Yields.of_through {J : Interface} {answer : (c : I.Call) → Program J (I.Answer c)}
    {up : I.Exchange → J.Exchange} {t : List J.Exchange} {a : α}
    (hup : ∀ c u b, (answer c).Yields u b → u = [up ⟨c, b⟩])
    (h : (p.through answer).Yields t a) : ∃ u, t = u.map up ∧ p.Yields u a := by
  induction p generalizing t with
  | done b =>
      obtain ⟨rfl, rfl⟩ := yields_pure.1 h
      exact ⟨[], rfl, .done a⟩
  | call c next ih =>
      obtain ⟨t₁, t₂, b, rfl, hc, hrest⟩ := Yields.of_bind h
      obtain ⟨u, rfl, hu⟩ := ih b hrest
      rw [hup c t₁ b hc]
      exact ⟨⟨c, b⟩ :: u, rfl, .call b hu⟩

/-! ### Calls that are carried out on a state -/

section Carried

variable {J : Interface} {S : Type} {answer : (c : J.Call) → StateT S (Program I) (J.Answer c)}

/-- `Carried answer s t u s'` holds when the calls of `t` are carried out one after the other,
from `s` to `s'`, with the answers in `t`, by the exchanges `u`. -/
inductive Carried (answer : (c : J.Call) → StateT S (Program I) (J.Answer c)) :
    S → List J.Exchange → List I.Exchange → S → Prop
  | here (s : S) : Carried answer s [] [] s
  | step {s s' s'' : S} {c : J.Call} {a : J.Answer c} {t : List J.Exchange}
      {u u' : List I.Exchange} (h : (answer c s).Yields u (a, s'))
      (rest : Carried answer s' t u' s'') : Carried answer s (⟨c, a⟩ :: t) (u ++ u') s''

/-- A program whose calls are carried out on a state comes to a result just if it does so by
answers that its calls get there. -/
theorem yields_runIn {p : Program J α} {s s' : S} {a : α} {u : List I.Exchange} :
    (p.runIn answer s).Yields u (a, s') ↔ ∃ t, p.Yields t a ∧ Carried answer s t u s' := by
  induction p generalizing s u with
  | done b =>
      constructor
      · intro h
        obtain ⟨rfl, hb⟩ := yields_pure.1 h
        cases hb
        exact ⟨[], .done _, .here _⟩
      · rintro ⟨t, h, hc⟩
        cases h
        cases hc
        exact .done _
  | call c next ih =>
      constructor
      · intro h
        obtain ⟨u₁, u₂, ⟨r, m⟩, rfl, hfirst, hrest⟩ := Yields.of_bind h
        obtain ⟨t, ht, hcarried⟩ := (ih r).1 hrest
        exact ⟨⟨c, r⟩ :: t, .call r ht, .step hfirst hcarried⟩
      · rintro ⟨t, h, hc⟩
        cases h with
        | call r ht =>
            cases hc with
            | step hfirst hcarried =>
                exact yields_bind.2 ⟨_, _, (r, _), rfl, hfirst, (ih r).2 ⟨_, ht, hcarried⟩⟩

end Carried

end QueueRelay.Program

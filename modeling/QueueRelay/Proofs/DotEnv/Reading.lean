/-
What a bare value stands for.

`Reads` says what it means to read a value from left to right: a reference is replaced by
what it stands for, any other character is copied, and the first reference that stands for
nothing ends the reading.  It knows no doubled `$`.  What a reference stands for is a
parameter, so that one relation covers the reading of references as they are written and the
reading of references with something done to them first.

`expand` gets there in two passes.  `protect` doubles every `$` that opens no brace, and
`substitute` takes a doubled `$` for one.  Outside references the second pass undoes the
first.  Inside a reference it does not look at what stands there, so a reference is resolved
in its protected form.  That is the whole difference: `reads_substitute` is one induction on
the value, in the cases of `protect`.
-/
import Mathlib.Data.List.Infix
import QueueRelay.DotEnv.Expansion

namespace QueueRelay.DotEnv

variable {look look' : List Char → Except String (List Char)} {vars : Variables}
  {s t rest inside inside' after after' : List Char} {c : Char}
  {r r' : Except String (List Char)}

/-! ### Reading from left to right -/

/-- A text that begins with a reference: `inside` is between its braces and `after` behind
it.  The first closing brace ends it. -/
structure Opens (s inside after : List Char) : Prop where
  text : s = '$' :: '\x7b' :: (inside ++ '\x7d' :: after)
  first : '\x7d' ∉ inside

/-- What reading a value from left to right comes to, `look` telling what a reference stands
for: the text, or the name that could not be looked up. -/
inductive Reads (look : List Char → Except String (List Char)) :
    List Char → Except String (List Char) → Prop
  | done : Reads look [] (.ok [])
  | replaced {s inside after text : List Char} {r : Except String (List Char)}
      (opens : Opens s inside after) (stands : look inside = .ok text) (more : Reads look after r) :
      Reads look s (r.map (text ++ ·))
  | unset {s inside after : List Char} {name : String} (opens : Opens s inside after)
      (stands : look inside = .error name) : Reads look s (.error name)
  | copied {c : Char} {rest : List Char} {r : Except String (List Char)}
      (plain : ∀ inside after, ¬ Opens (c :: rest) inside after) (more : Reads look rest r) :
      Reads look (c :: rest) (r.map (c :: ·))

/-- The first closing brace stands in one place. -/
theorem eq_of_append_brace (h : '\x7d' ∉ inside) (h' : '\x7d' ∉ inside')
    (he : inside ++ '\x7d' :: after = inside' ++ '\x7d' :: after') :
    inside = inside' ∧ after = after' := by
  induction inside generalizing inside' with
  | nil =>
      cases inside' with
      | nil => exact ⟨rfl, (List.cons.inj he).2⟩
      | cons d inside' => exact absurd ((List.cons.inj he).1 ▸ List.mem_cons_self) h'
  | cons d inside ih =>
      cases inside' with
      | nil => exact absurd ((List.cons.inj he).1 ▸ List.mem_cons_self) h
      | cons d' inside' =>
          obtain ⟨rfl, hr⟩ := List.cons.inj he
          obtain ⟨rfl, rfl⟩ := ih (List.not_mem_of_not_mem_cons h)
            (List.not_mem_of_not_mem_cons h') hr
          exact ⟨rfl, rfl⟩

theorem Opens.unique (h : Opens s inside after) (h' : Opens s inside' after') :
    inside = inside' ∧ after = after' :=
  eq_of_append_brace h.first h'.first (by simpa using h.text.symm.trans h'.text)

/-- There is one way of reading a value. -/
theorem Reads.unique (h : Reads look s r) (h' : Reads look s r') : r = r' := by
  induction h generalizing r' with
  | done =>
      cases h' with
      | done => rfl
      | replaced opens => cases opens.text
      | unset opens => cases opens.text
  | replaced opens stands _ ih =>
      cases h' with
      | done => cases opens.text
      | replaced opens' stands' more' =>
          obtain ⟨rfl, rfl⟩ := opens.unique opens'
          cases stands.symm.trans stands'
          rw [ih more']
      | unset opens' stands' =>
          obtain ⟨rfl, rfl⟩ := opens.unique opens'
          cases stands.symm.trans stands'
      | copied plain => exact absurd opens (plain _ _)
  | unset opens stands =>
      cases h' with
      | done => cases opens.text
      | replaced opens' stands' =>
          obtain ⟨rfl, rfl⟩ := opens.unique opens'
          cases stands.symm.trans stands'
      | unset opens' stands' =>
          obtain ⟨rfl, rfl⟩ := opens.unique opens'
          cases stands.symm.trans stands'
          rfl
      | copied plain => exact absurd opens (plain _ _)
  | copied plain _ ih =>
      cases h' with
      | replaced opens => exact absurd opens (plain _ _)
      | unset opens => exact absurd opens (plain _ _)
      | copied _ more' => rw [ih more']

/-- Two ways of resolving references read a value alike if they agree on every reference that
begins somewhere in it. -/
theorem Reads.congr (h : Reads look s r)
    (hl : ∀ t inside after, t <:+ s → Opens t inside after → look inside = look' inside) :
    Reads look' s r := by
  induction h with
  | done => exact .done
  | @replaced s inside after text r opens stands _ ih =>
      have hs : after <:+ s := by
        rw [opens.text]
        exact ⟨'$' :: '\x7b' :: (inside ++ ['\x7d']), by simp⟩
      refine .replaced opens ?_ (ih fun t i a ht => hl t i a (ht.trans hs))
      rw [← hl s inside after List.suffix_rfl opens, stands]
  | unset opens stands =>
      refine .unset opens ?_
      rw [← hl _ _ _ List.suffix_rfl opens, stands]
  | copied plain _ ih =>
      exact .copied plain (ih fun t i a ht => hl t i a (ht.trans (List.suffix_cons ..)))

/-- A character other than `$` opens no reference. -/
theorem not_opens (h : c ≠ '$') : ¬ Opens (c :: rest) inside after :=
  fun o => h (List.cons.inj o.text).1

/-- A `$` that no brace follows opens no reference. -/
theorem not_opens_dollar (h : rest.head? ≠ some '\x7b') : ¬ Opens ('$' :: rest) inside after := by
  intro o
  rw [(List.cons.inj o.text).2] at h
  exact h rfl

/-- A `$` whose brace is never closed opens no reference. -/
theorem not_opens_unclosed (h : '\x7d' ∉ rest) :
    ¬ Opens ('$' :: '\x7b' :: rest) inside after := by
  intro o
  obtain ⟨-, he⟩ := List.cons.inj o.text
  obtain ⟨-, rfl⟩ := List.cons.inj he
  simp at h

/-! ### The first closing brace -/

theorem splitBrace_append (h : '\x7d' ∉ inside) :
    splitBrace (inside ++ '\x7d' :: after) = some (inside, after) := by
  induction inside with
  | nil => rfl
  | cons c inside ih =>
      have hc : c ≠ '\x7d' := fun hc => h (hc ▸ List.mem_cons_self)
      rw [List.cons_append, splitBrace, ih (List.not_mem_of_not_mem_cons h)]
      · rfl
      · exact hc

theorem splitBrace_of_not_mem (h : '\x7d' ∉ s) : splitBrace s = none := by
  induction s with
  | nil => rfl
  | cons c s ih =>
      have hc : c ≠ '\x7d' := fun hc => h (hc ▸ List.mem_cons_self)
      rw [splitBrace, ih (List.not_mem_of_not_mem_cons h)]
      · rfl
      · exact hc

/-- A text has no closing brace, or a first one. -/
theorem brace_cases (s : List Char) :
    '\x7d' ∉ s ∨ ∃ inside after, '\x7d' ∉ inside ∧ s = inside ++ '\x7d' :: after := by
  by_cases h : '\x7d' ∈ s
  · obtain ⟨inside, after, rfl, hi⟩ := List.eq_append_cons_of_mem h
    exact .inr ⟨inside, after, hi, rfl⟩
  · exact .inl h

/-! ### Doubling -/

@[simp] theorem protect_brace (rest : List Char) :
    protect ('$' :: '\x7b' :: rest) = '$' :: '\x7b' :: protect rest := rfl

theorem protect_dollar (h : rest.head? ≠ some '\x7b') :
    protect ('$' :: rest) = '$' :: '$' :: protect rest := by
  rw [protect]
  rintro tail rfl
  exact h rfl

theorem protect_other (h : c ≠ '$') : protect (c :: rest) = c :: protect rest := by
  rw [protect]
  · exact fun _ hc _ => h hc
  · exact h

/-- Doubling happens on both sides of a cut, unless the cut parts a `$` from its brace. -/
theorem protect_append (h : t.head? ≠ some '\x7b') :
    protect (s ++ t) = protect s ++ protect t := by
  fun_induction protect s with
  | case1 => rfl
  | case2 rest ih => simp [ih]
  | case3 rest hr ih =>
      have hrest : (rest ++ t).head? ≠ some '\x7b' := by
        cases rest with
        | nil => exact h
        | cons d rest => simpa using fun hd : d = '\x7b' => hr rest (hd ▸ rfl)
      rw [List.cons_append, protect_dollar hrest, ih]
      rfl
  | case4 c rest _ hc ih =>
      rw [List.cons_append, protect_other hc, ih]
      rfl

theorem mem_protect : c ∈ protect s ↔ c ∈ s := by
  fun_induction protect s <;> simp_all

theorem protect_append_brace :
    protect (inside ++ '\x7d' :: after) = protect inside ++ '\x7d' :: protect after := by
  rw [protect_append (by simp), protect_other (by simp)]

theorem length_le_protect (s : List Char) : s.length ≤ (protect s).length := by
  fun_induction protect s with
  | case1 => exact Nat.le_refl _
  | case2 | case3 | case4 => simp only [List.length_cons]; omega

/-- A text in which every `$` is followed by an opening brace. -/
def Braced (s : List Char) : Prop :=
  ∀ before after, s = before ++ '$' :: after → after.head? = some '\x7b'

theorem braced_cons_iff (h : c ≠ '$') : Braced (c :: s) ↔ Braced s := by
  refine ⟨fun hb before after hs => hb (c :: before) after (by rw [hs]; rfl), ?_⟩
  intro hb before after hs
  cases before with
  | nil => exact absurd (List.cons.inj hs).1 h
  | cons d before => exact hb before after (List.cons.inj hs).2

theorem braced_dollar_iff : Braced ('$' :: s) ↔ s.head? = some '\x7b' ∧ Braced s := by
  refine ⟨fun hb => ⟨hb [] s rfl, fun before after hs => hb ('$' :: before) after (by rw [hs]; rfl)⟩,
    ?_⟩
  rintro ⟨hhead, hb⟩ before after hs
  cases before with
  | nil => exact (List.cons.inj hs).2 ▸ hhead
  | cons d before => exact hb before after (List.cons.inj hs).2

/-- Nothing is doubled exactly where every `$` is followed by a brace. -/
theorem protect_eq_self_iff : protect s = s ↔ Braced s := by
  fun_induction protect s with
  | case1 => simp [Braced]
  | case2 rest ih => simp [braced_dollar_iff, braced_cons_iff, ih]
  | case3 rest hr _ =>
      rw [braced_dollar_iff]
      refine ⟨fun h => ?_, fun ⟨h, _⟩ => ?_⟩
      · have := length_le_protect rest
        have := congrArg List.length h
        simp only [List.length_cons] at this
        omega
      · obtain ⟨tail, rfl⟩ : ∃ tail, rest = '\x7b' :: tail := by
          cases rest <;> simp_all
        exact absurd rfl (hr tail)
  | case4 c rest _ hc ih => rw [List.cons.injEq, ih, braced_cons_iff hc, and_iff_right rfl]

instance : Decidable (Braced s) := decidable_of_iff _ protect_eq_self_iff

/-! ### The second pass -/

theorem substitute_reference (h : '\x7d' ∉ inside) :
    substitute vars ('$' :: '\x7b' :: (inside ++ '\x7d' :: after)) = (do
      let value ← resolve vars inside
      let tail ← substitute vars after
      return value ++ tail) := by
  rw [substitute]
  split
  · next hb => simp [splitBrace_append h] at hb
  · next hb =>
      rw [splitBrace_append h] at hb
      obtain ⟨rfl, rfl⟩ : inside = _ ∧ after = _ := by simpa using hb
      rfl

theorem substitute_unclosed (h : '\x7d' ∉ rest) :
    substitute vars ('$' :: '\x7b' :: rest) =
      (substitute vars rest).map fun tail => '$' :: '\x7b' :: tail := by
  rw [substitute]
  split
  · rfl
  · next hb => simp [splitBrace_of_not_mem h] at hb

@[simp] theorem substitute_dollars (rest : List Char) :
    substitute vars ('$' :: '$' :: rest) = (substitute vars rest).map ('$' :: ·) := by
  rw [substitute]

theorem substitute_other (h : c ≠ '$') :
    substitute vars (c :: rest) = (substitute vars rest).map (c :: ·) := by
  rw [substitute]
  · exact fun _ hc _ => h hc
  · exact fun _ hc _ => h hc

/-- The two passes read a value from left to right, and resolve its references in their
protected form. -/
theorem reads_substitute (vars : Variables) (s : List Char) :
    Reads (fun inside => resolve vars (protect inside)) s (substitute vars (protect s)) := by
  induction hn : s.length using Nat.strongRecOn generalizing s with
  | _ n ih =>
  subst hn
  match s with
  | [] => simpa [protect, substitute] using Reads.done
  | c :: rest =>
    have more := ih rest.length (by simp) rest rfl
    by_cases hc : c = '$'
    · subst hc
      by_cases hb : rest.head? = some '\x7b'
      · obtain ⟨rest, rfl⟩ : ∃ tail, rest = '\x7b' :: tail := by
          cases rest <;> simp_all
        rcases brace_cases rest with hu | ⟨inside, after, hi, rfl⟩
        · -- a brace that is never closed: both characters are copied
          have hu' : '\x7d' ∉ protect rest := mt mem_protect.1 hu
          have hm := ih rest.length (by simp only [List.length_cons]; omega) rest rfl
          have := (hm.copied fun _ _ => not_opens (by decide)).copied
            fun _ _ => not_opens_unclosed hu
          rw [protect_brace, substitute_unclosed hu']
          cases hs : substitute vars (protect rest) <;> simpa [hs, Except.map] using this
        · have opens : Opens ('$' :: '\x7b' :: (inside ++ '\x7d' :: after)) inside after :=
            ⟨rfl, hi⟩
          have hi' : '\x7d' ∉ protect inside := mt mem_protect.1 hi
          have hm := ih after.length (by simp; omega) after rfl
          rw [protect_brace, protect_append_brace, substitute_reference hi']
          cases hr : resolve vars (protect inside) with
          | error name => exact .unset opens hr
          | ok text => exact .replaced opens hr hm
      · rw [protect_dollar hb, substitute_dollars]
        exact more.copied fun _ _ => not_opens_dollar hb
    · rw [protect_other hc, substitute_other hc]
      exact more.copied fun _ _ => not_opens hc

/-! ### References that hold no `$` of their own -/

/-- A value in whose references every `$` is followed by an opening brace. -/
def Plain (s : List Char) : Prop :=
  ∀ t inside after, t <:+ s → Opens t inside after → Braced inside

/-- Where references hold no `$` of their own they are resolved as they are written. -/
theorem Reads.as_written (h : Reads (fun inside => resolve vars (protect inside)) s r)
    (hp : Plain s) : Reads (resolve vars) s r :=
  h.congr fun t inside after ht o => by
    rw [protect_eq_self_iff.2 (hp t inside after ht o)]

/-- The reference that a text begins with. -/
def opened? : List Char → Option (List Char × List Char)
  | '$' :: '\x7b' :: rest => splitBrace rest
  | _ => none

theorem opened?_eq_some_iff : opened? s = some (inside, after) ↔ Opens s inside after := by
  constructor
  · fun_cases opened? s with
    | case1 rest =>
        intro h
        rcases brace_cases rest with hu | ⟨i, a, hi, rfl⟩
        · rw [splitBrace_of_not_mem hu] at h
          cases h
        · rw [splitBrace_append hi] at h
          cases h
          exact ⟨rfl, hi⟩
    | case2 => nofun
  · rintro ⟨rfl, hi⟩
    exact splitBrace_append hi

theorem plain_iff : Plain s ↔ ∀ t ∈ s.tails, ∀ p ∈ opened? t, Braced p.1 := by
  constructor
  · rintro h t ht ⟨inside, after⟩ hp
    exact h t inside after ((List.mem_tails t s).1 ht) (opened?_eq_some_iff.1 hp)
  · intro h t inside after ht o
    exact h t ((List.mem_tails t s).2 ht) (inside, after) (opened?_eq_some_iff.2 o)

instance : Decidable (Plain s) := decidable_of_iff _ plain_iff.symm

end QueueRelay.DotEnv

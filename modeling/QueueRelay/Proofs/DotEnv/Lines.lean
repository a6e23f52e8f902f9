/-
What a file of assignments comes to.

`parseLines` walks over the lines with a table and a line number.  Two things are read off
the walk by induction on the lines.  When it ends well, every value on the way was accepted,
and the value of a line is still there at the end unless a later line has the same key.  When
it fails, the failing line is the first one whose value was refused, and the error holds that
line's number, its key and the name that could not be looked up.

With what `Reading` says about bare values this tells what reading a file does to each of
them: `Outcome`.  References are resolved in their protected form, so a `$` inside a reference
shows twice; a file whose references hold no such `$` is read as it is written.
-/
import QueueRelay.DotEnv
import QueueRelay.Proofs.DotEnv.Reading

namespace QueueRelay.DotEnv

variable {vars : Variables} {ls : List (List Char)} {line key raw : List Char} {n number : Nat}
  {entries entries' : Table String String} {e : ParseError}

/-- The line with index `n` gives `key` the value `raw`, still in the form it is written in. -/
def Assigns (ls : List (List Char)) (n : Nat) (key raw : List Char) : Prop :=
  ∃ line, ls[n]? = some line ∧ assignment? line = some (key, raw)

theorem assigns_zero (h : assignment? line = some (key, raw)) : Assigns (line :: ls) 0 key raw :=
  ⟨line, rfl, h⟩

@[simp] theorem assigns_zero_iff :
    Assigns (line :: ls) 0 key raw ↔ assignment? line = some (key, raw) := by
  simp [Assigns]

@[simp] theorem assigns_succ_iff :
    Assigns (line :: ls) (n + 1) key raw ↔ Assigns ls n key raw := by
  simp [Assigns]

/-! ### One line -/

/-- What a line does: nothing, or its value is stored, or its value is refused. -/
theorem parseLine_cases (vars : Variables) (number : Nat) (entries : Table String String)
    (line : List Char) :
    (assignment? line = none ∧ parseLine vars number entries line = .ok entries) ∨
    (∃ key raw v, assignment? line = some (key, raw) ∧ value vars raw = .ok v ∧
      parseLine vars number entries line = .ok (entries.set (String.ofList key) v)) ∨
    ∃ key raw name, assignment? line = some (key, raw) ∧ value vars raw = .error name ∧
      parseLine vars number entries line = .error ⟨number, String.ofList key, name⟩ := by
  unfold parseLine
  cases ha : assignment? line with
  | none => exact .inl ⟨rfl, rfl⟩
  | some a =>
      obtain ⟨key, raw⟩ := a
      cases hv : value vars raw with
      | ok v => exact .inr (.inl ⟨key, raw, v, rfl, hv, by simp [hv]⟩)
      | error name => exact .inr (.inr ⟨key, raw, name, rfl, hv, by simp [hv]⟩)

/-! ### All lines -/

/-- A key that no line assigns keeps what it has. -/
theorem get?_parseLines_of_not_assigned
    (h : parseLines vars number entries ls = .ok entries')
    (hk : ∀ n raw, ¬ Assigns ls n key raw) :
    entries'.get? (String.ofList key) = entries.get? (String.ofList key) := by
  induction ls generalizing number entries with
  | nil =>
      cases h
      rfl
  | cons line ls ih =>
      have hrest : ∀ n raw, ¬ Assigns ls n key raw := fun n raw ha =>
        hk (n + 1) raw (assigns_succ_iff.2 ha)
      rcases parseLine_cases vars number entries line with
        ⟨-, hl⟩ | ⟨key', raw, v, ha, -, hl⟩ | ⟨_, _, _, -, -, hl⟩ <;> rw [parseLines, hl] at h
      · exact ih h hrest
      · have hne : String.ofList key' ≠ String.ofList key := by
          intro heq
          obtain rfl := String.ofList_injective heq
          exact hk 0 raw (assigns_zero ha)
        rw [ih h hrest, Table.get?_set, if_neg hne]
      · cases h

/-- In a file that is accepted so is the value of every line, and it is stored unless a later
line has the same key. -/
theorem parseLines_ok (h : parseLines vars number entries ls = .ok entries')
    (ha : Assigns ls n key raw) :
    ∃ v, value vars raw = .ok v ∧ ((∀ m > n, ∀ raw', ¬ Assigns ls m key raw') →
      entries'.get? (String.ofList key) = some v) := by
  induction ls generalizing number entries n with
  | nil =>
      obtain ⟨line, hline, -⟩ := ha
      cases hline
  | cons line ls ih =>
      cases n with
      | zero =>
          rw [assigns_zero_iff] at ha
          rcases parseLine_cases vars number entries line with
            ⟨hn, -⟩ | ⟨_, _, v, ha', hv, hl⟩ | ⟨_, _, _, -, -, hl⟩
          · cases ha.symm.trans hn
          · cases ha.symm.trans ha'
            rw [parseLines, hl] at h
            refine ⟨v, hv, fun hlast => ?_⟩
            have hrest : ∀ m raw', ¬ Assigns ls m key raw' := fun m raw' hm =>
              hlast (m + 1) (Nat.succ_pos m) raw' (assigns_succ_iff.2 hm)
            rw [get?_parseLines_of_not_assigned h hrest, Table.get?_set, if_pos rfl]
          · rw [parseLines, hl] at h
            cases h
      | succ n =>
          rw [assigns_succ_iff] at ha
          obtain ⟨entries₁, hrest⟩ :
              ∃ entries₁, parseLines vars (number + 1) entries₁ ls = .ok entries' := by
            rw [parseLines] at h
            cases hl : parseLine vars number entries line with
            | ok entries₁ =>
                rw [hl] at h
                exact ⟨entries₁, h⟩
            | error e =>
                rw [hl] at h
                cases h
          obtain ⟨v, hv, hstored⟩ := ih hrest ha
          refine ⟨v, hv, fun hlast => hstored fun m hm raw' hm' => ?_⟩
          exact hlast (m + 1) (Nat.succ_lt_succ hm) raw' (assigns_succ_iff.2 hm')

/-- A file is refused for the first line whose value is. -/
theorem parseLines_error (h : parseLines vars number entries ls = .error e) :
    ∃ n key raw name, Assigns ls n key raw ∧ value vars raw = .error name ∧
      e = ⟨number + n, String.ofList key, name⟩ ∧
      ∀ m < n, ∀ key raw, Assigns ls m key raw → ∃ v, value vars raw = .ok v := by
  induction ls generalizing number entries with
  | nil => cases h
  | cons line ls ih =>
      -- a line that is skipped or stored leaves the error to the lines behind it
      have later : ∀ entries₁, parseLines vars (number + 1) entries₁ ls = .error e →
          (∀ key raw, assignment? line = some (key, raw) → ∃ v, value vars raw = .ok v) →
          ∃ n key raw name, Assigns (line :: ls) n key raw ∧ value vars raw = .error name ∧
            e = ⟨number + n, String.ofList key, name⟩ ∧ ∀ m < n, ∀ key raw,
              Assigns (line :: ls) m key raw → ∃ v, value vars raw = .ok v := by
        intro entries₁ hrest hfirst
        obtain ⟨n, key, raw, name, ha, hv, rfl, hbefore⟩ := ih hrest
        refine ⟨n + 1, key, raw, name, assigns_succ_iff.2 ha, hv, ?_, ?_⟩
        · rw [show number + 1 + n = number + (n + 1) by omega]
        · intro m hm key raw ham
          cases m with
          | zero => exact hfirst key raw (assigns_zero_iff.1 ham)
          | succ m => exact hbefore m (Nat.lt_of_succ_lt_succ hm) key raw (assigns_succ_iff.1 ham)
      rcases parseLine_cases vars number entries line with
        ⟨hn, hl⟩ | ⟨key, raw, v, ha, hv, hl⟩ | ⟨key, raw, name, ha, hv, hl⟩ <;>
        rw [parseLines, hl] at h
      · exact later entries h fun _ _ ha => by cases hn.symm.trans ha
      · refine later _ h fun _ _ ha' => ?_
        cases ha.symm.trans ha'
        exact ⟨v, hv⟩
      · cases h
        exact ⟨0, key, raw, name, assigns_zero ha, hv, rfl, fun m hm => by cases hm⟩

/-! ### Bare values -/

/-- The line with index `n` gives `key` the value `raw`, which stands in no quotes. -/
structure Bare (contents : String) (n : Nat) (key raw : List Char) : Prop where
  assigns : Assigns (lines contents.toList) n key raw
  single : unquote? '\'' raw = none
  double : unquote? '"' raw = none

theorem value_of_bare {contents : String} (h : Bare contents n key raw) :
    value vars raw = (substitute vars (protect raw)).map String.ofList := by
  rw [value, h.single, h.double]
  simp [expand]

/-- A value that is refused stands in no quotes. -/
theorem bare_of_error {contents name : String} (ha : Assigns (lines contents.toList) n key raw)
    (h : value vars raw = .error name) : Bare contents n key raw := by
  unfold value at h
  split at h
  · cases h
  · next hq =>
      obtain ⟨hs, hd⟩ := Option.or_eq_none_iff.1 hq
      exact ⟨ha, hs, hd⟩

/-- What reading a file comes to when `look` tells what a reference in a bare value stands
for.  Either all bare values can be read and the last one for a key is stored, or the error
names the first one that cannot. -/
def Outcome (look : List Char → Except String (List Char)) (contents : String) :
    Except ParseError DotEnv → Prop
  | .ok file => ∀ n key raw, Bare contents n key raw → ∃ text, Reads look raw (.ok text) ∧
      ((∀ m > n, ∀ raw', ¬ Assigns (lines contents.toList) m key raw') →
        file.get? (String.ofList key) = some (String.ofList text))
  | .error e => ∃ n key raw, Bare contents n key raw ∧ Reads look raw (.error e.name) ∧
      e.line = n + 1 ∧ e.key = String.ofList key ∧
      ∀ m < n, ∀ key raw, Bare contents m key raw → ∃ text, Reads look raw (.ok text)

/-- Bare values are read with their references resolved in the protected form. -/
theorem outcome_protected (vars : Variables) (contents : String) :
    Outcome (fun inside => resolve vars (protect inside)) contents (parse vars contents) := by
  have reads : ∀ {n key raw v}, Bare contents n key raw → value vars raw = .ok v →
      ∃ text, Reads (fun inside => resolve vars (protect inside)) raw (.ok text) ∧
        v = String.ofList text := by
    intro n key raw v hb hv
    rw [value_of_bare hb] at hv
    have hr := reads_substitute vars raw
    cases hs : substitute vars (protect raw) with
    | ok text =>
        rw [hs] at hr hv
        cases hv
        exact ⟨text, hr, rfl⟩
    | error name =>
        rw [hs] at hv
        cases hv
  unfold parse
  cases hp : parseLines vars 1 .empty (lines contents.toList) with
  | ok entries =>
      intro n key raw hb
      obtain ⟨v, hv, hstored⟩ := parseLines_ok hp hb.assigns
      obtain ⟨text, hr, rfl⟩ := reads hb hv
      exact ⟨text, hr, hstored⟩
  | error e =>
      obtain ⟨n, key, raw, name, ha, hv, rfl, hbefore⟩ := parseLines_error hp
      have hb := bare_of_error ha hv
      have hr := reads_substitute vars raw
      rw [value_of_bare hb] at hv
      refine ⟨n, key, raw, hb, ?_, Nat.add_comm 1 n, rfl, ?_⟩
      · cases hs : substitute vars (protect raw) with
        | ok text =>
            rw [hs] at hv
            cases hv
        | error name' =>
            rw [hs] at hr hv
            cases hv
            exact hr
      · intro m hm key raw hbm
        obtain ⟨v, hv⟩ := hbefore m hm key raw hbm.assigns
        obtain ⟨text, hr, -⟩ := reads hbm hv
        exact ⟨text, hr⟩

/-- **What bare values come to.**  A bare value is read from left to right, its references are
replaced and everything else is copied, with every `$` doubled in what a reference holds
unless a brace follows it.  Where no reference of the file holds such a `$`, names and
defaults are taken exactly as they are written. -/
theorem bare_values_read (vars : Variables) (contents : String) :
    Outcome (fun inside => resolve vars (protect inside)) contents (parse vars contents) ∧
    ((∀ n key raw, Bare contents n key raw → Plain raw) →
      Outcome (resolve vars) contents (parse vars contents)) := by
  have h := outcome_protected vars contents
  refine ⟨h, fun hp => ?_⟩
  cases hr : parse vars contents with
  | ok file =>
      rw [hr] at h
      intro n key raw hb
      obtain ⟨text, hread, hstored⟩ := h n key raw hb
      exact ⟨text, hread.as_written (hp n key raw hb), hstored⟩
  | error e =>
      rw [hr] at h
      obtain ⟨n, key, raw, hb, hread, hline, hkey, hbefore⟩ := h
      refine ⟨n, key, raw, hb, hread.as_written (hp n key raw hb), hline, hkey, ?_⟩
      intro m hm key raw hbm
      obtain ⟨text, hread⟩ := hbefore m hm key raw hbm
      exact ⟨text, hread.as_written (hp m key raw hbm)⟩

/-- A file of one line has no bare values but that line's. -/
theorem bare_of_one_line {contents : String} {line key' raw' : List Char}
    (hl : lines contents.toList = [line]) (ha : assignment? line = some (key', raw'))
    (h : Bare contents n key raw) : n = 0 ∧ key = key' ∧ raw = raw' := by
  have hassigns := h.assigns
  rw [hl] at hassigns
  cases n with
  | zero =>
      cases ha.symm.trans (assigns_zero_iff.1 hassigns)
      exact ⟨rfl, rfl, rfl⟩
  | succ n =>
      obtain ⟨_, hline, -⟩ := assigns_succ_iff.1 hassigns
      cases hline

/-- A default that is used, between a `$` before it and one behind it. -/
theorem bare_values_read_default :
    (∀ n key raw, Bare "cost=$$\x7bRATE:-5\x7d$" n key raw → Plain raw) ∧
    Outcome (resolve fun _ => none) "cost=$$\x7bRATE:-5\x7d$" (.ok ⟨.ofList [("cost", "$5$")]⟩) := by
  have hp : ∀ n key raw, Bare "cost=$$\x7bRATE:-5\x7d$" n key raw → Plain raw := by
    intro n key raw h
    have hline : lines "cost=$$\x7bRATE:-5\x7d$".toList = ["cost=$$\x7bRATE:-5\x7d$".toList] := by
      decide
    have hassigned : assignment? "cost=$$\x7bRATE:-5\x7d$".toList =
        some ("cost".toList, "$$\x7bRATE:-5\x7d$".toList) := by decide +kernel
    obtain ⟨-, -, rfl⟩ := bare_of_one_line hline hassigned h
    decide
  have hr : parse (fun _ => none) "cost=$$\x7bRATE:-5\x7d$" = .ok ⟨.ofList [("cost", "$5$")]⟩ := by
    decide +kernel
  have h := (bare_values_read (fun _ => none) "cost=$$\x7bRATE:-5\x7d$").2 hp
  rw [hr] at h
  exact ⟨hp, h⟩

/-- A `$` in a default that is used shows twice. -/
theorem dollar_in_default_doubled :
    ¬ ∀ vars contents, Outcome (resolve vars) contents (parse vars contents) := by
  intro h
  have h := h (fun _ => none) "k=$\x7bX:-a$b\x7d"
  have hr : parse (fun _ => none) "k=$\x7bX:-a$b\x7d" = .ok ⟨.ofList [("k", "a$$b")]⟩ := by
    decide +kernel
  rw [hr] at h
  have hb : Bare "k=$\x7bX:-a$b\x7d" 0 "k".toList "$\x7bX:-a$b\x7d".toList :=
    ⟨⟨"k=$\x7bX:-a$b\x7d".toList, by decide, by decide +kernel⟩, by decide, by decide⟩
  obtain ⟨text, hread, hstored⟩ := h 0 _ _ hb
  have hlast : ∀ m > 0, ∀ raw', ¬ Assigns (lines "k=$\x7bX:-a$b\x7d".toList) m "k".toList raw' := by
    rintro m hm raw' ⟨line, hline, -⟩
    rw [show lines "k=$\x7bX:-a$b\x7d".toList = ["k=$\x7bX:-a$b\x7d".toList] by decide,
      List.getElem?_eq_none (Nat.succ_le_of_lt hm)] at hline
    cases hline
  have opens : Opens "$\x7bX:-a$b\x7d".toList "X:-a$b".toList [] := ⟨by decide, by decide⟩
  have stands : resolve (fun _ => none) "X:-a$b".toList = .ok "a$b".toList := by decide +kernel
  have hwritten := Reads.replaced opens stands .done
  cases hread.unique hwritten
  exact absurd (hstored hlast) (by decide +kernel)

end QueueRelay.DotEnv

/-
What a file of two parts comes to.

The lines of two texts with a line feed between them are the lines of the one and then the
lines of the other, whatever the texts begin and end with.  So the second part is read as it
would be on its own, but from a later line on and with the entries of the first part already
there.  Neither makes a difference to what its lines are read as: the line only shows in an
error, and the entries lie beneath those of the second part at every step.
-/
import QueueRelay.DotEnv
import QueueRelay.Proofs.DotEnv.Lines
import QueueRelay.Proofs.DotEnv.Written

namespace QueueRelay.DotEnv

variable {vars : Variables} {ls : List (List Char)} {t t' u : Table String String}

/-! ### Later lines -/

/-- The error as it is when `k` more lines stand in front. -/
def ParseError.movedBy (e : ParseError) (k : Nat) : ParseError := { e with line := e.line + k }

theorem length_lines (s : List Char) : (lines s).length = s.count '\n' + 1 := by
  fun_induction lines s <;> simp_all

theorem parseLines_append (vars : Variables) (number : Nat) (t : Table String String)
    (ls ls' : List (List Char)) :
    parseLines vars number t (ls ++ ls') =
      parseLines vars number t ls >>= fun t' => parseLines vars (number + ls.length) t' ls' := by
  induction ls generalizing number t with
  | nil => rfl
  | cons line ls ih =>
      rw [List.cons_append, parseLines, parseLines, bind_assoc]
      refine congrArg _ (funext fun t' => ?_)
      rw [ih, List.length_cons, Nat.add_assoc, Nat.add_comm 1]

/-! ### Entries beneath -/

theorem nodup_parseLine {number : Nat} {line : List Char}
    (h : parseLine vars number t line = .ok t') (hn : t.keys.Nodup) : t'.keys.Nodup := by
  rcases parseLine_cases vars number t line with ⟨-, hl⟩ | ⟨_, _, _, -, -, hl⟩ | ⟨_, _, _, -, -, hl⟩
  all_goals cases hl.symm.trans h
  · exact hn
  · exact Table.nodup_keys_set hn _ _

theorem nodup_parseLines {number : Nat} (h : parseLines vars number t ls = .ok t')
    (hn : t.keys.Nodup) : t'.keys.Nodup := by
  induction ls generalizing number t with
  | nil =>
      cases h
      exact hn
  | cons line ls ih =>
      rw [parseLines] at h
      cases hl : parseLine vars number t line with
      | error e =>
          rw [hl] at h
          cases h
      | ok t₁ =>
          rw [hl] at h
          exact ih h (nodup_parseLine hl hn)

/-- A line does the same over other entries and at another place. -/
theorem parseLine_overriddenBy (vars : Variables) (hu : u.keys.Nodup) (t : Table String String)
    (number k : Nat) (line : List Char) :
    parseLine vars (number + k) (t.overriddenBy u) line =
      ((parseLine vars number u line).map t.overriddenBy).mapError (·.movedBy k) := by
  unfold parseLine
  cases assignment? line with
  | none => rfl
  | some a =>
      obtain ⟨key, raw⟩ := a
      dsimp only
      cases value vars raw with
      | error name => rfl
      | ok v => exact congrArg Except.ok (Table.overriddenBy_set hu t _ v).symm

theorem parseLines_overriddenBy (vars : Variables) (hu : u.keys.Nodup) (t : Table String String)
    (number k : Nat) (ls : List (List Char)) :
    parseLines vars (number + k) (t.overriddenBy u) ls =
      ((parseLines vars number u ls).map t.overriddenBy).mapError (·.movedBy k) := by
  induction ls generalizing number u with
  | nil => rfl
  | cons line ls ih =>
      rw [parseLines, parseLines, parseLine_overriddenBy vars hu]
      cases hl : parseLine vars number u line with
      | error e => rfl
      | ok u₁ =>
          have hrest := ih (nodup_parseLine hl hu) (number + 1)
          rw [Nat.add_right_comm] at hrest
          exact hrest

/-! ### Two parts -/

/-- The file with what `d'` says in place of what it says itself for the same keys. -/
def overriddenBy (d d' : DotEnv) : DotEnv := ⟨d.entries.overriddenBy d'.entries⟩

theorem nodup_parse {contents : String} {d : DotEnv} (h : parse vars contents = .ok d) :
    d.entries.keys.Nodup := by
  unfold parse at h
  cases hl : parseLines vars 1 .empty (lines contents.toList) with
  | error e =>
      rw [hl] at h
      cases h
  | ok entries =>
      rw [hl] at h
      cases h
      exact nodup_parseLines hl List.nodup_nil

/-- **What a file of two parts comes to is decided by the parts.**  The first part is read first,
and what is wrong with it is wrong with the file.  Then the second part is, and what is wrong
with it is wrong with the file as well, as many lines later as the first part has.  When nothing
is, the file says what the second part says, and what the first part says of keys that the
second does not mention. -/
theorem parse_joined (vars : Variables) (a b : String) :
    parse vars (a ++ "\n" ++ b) = (do
      let d ← parse vars a
      let d' ← (parse vars b).mapError (·.movedBy (1 + a.toList.count '\n'))
      return d.overriddenBy d') ∧
    ∀ d d' key, parse vars a = .ok d → parse vars b = .ok d' →
      (d.overriddenBy d').get? key = (d'.get? key).or (d.get? key) := by
  refine ⟨?_, fun d d' key _ hb => Table.get?_overriddenBy (nodup_parse hb) key⟩
  have hlines : lines (a ++ "\n" ++ b).toList = lines a.toList ++ lines b.toList := by
    rw [← lines_append]
    simp
  unfold parse
  rw [hlines, parseLines_append, length_lines, Nat.add_comm _ 1]
  cases parseLines vars 1 .empty (lines a.toList) with
  | error e => rfl
  | ok t =>
      have hempty : (Table.empty : Table String String).keys.Nodup := List.nodup_nil
      have hsecond := parseLines_overriddenBy vars hempty t 1 (1 + a.toList.count '\n')
        (lines b.toList)
      rw [Table.overriddenBy_empty] at hsecond
      change (parseLines vars _ t (lines b.toList)).map DotEnv.mk = _
      rw [hsecond]
      cases parseLines vars 1 .empty (lines b.toList) <;> rfl

/-- A key on both sides of the cut, and an error behind it.  The first part ends its lines in two
ways, and has a third that is empty. -/
theorem parse_joined_given_again :
    let a := "A=1\r\nB=2\n"
    (∃ d d', parse (fun _ => none) a = .ok d ∧ parse (fun _ => none) "B='3'" = .ok d' ∧
      parse (fun _ => none) (a ++ "\n" ++ "B='3'") = .ok (d.overriddenBy d') ∧
      (d.overriddenBy d').get? "A" = some "1" ∧ (d.overriddenBy d').get? "B" = some "3") ∧
    parse (fun _ => none) "C=$\x7bX\x7d" = .error ⟨1, "C", "X"⟩ ∧
    parse (fun _ => none) (a ++ "\n" ++ "C=$\x7bX\x7d") = .error ⟨4, "C", "X"⟩ := by
  intro a
  have ha : parse (fun _ => none) a = .ok (ofPairs [("A", "1"), ("B", "2")]) := by decide +kernel
  have hb : parse (fun _ => none) "B='3'" = .ok (ofPairs [("B", "3")]) := by decide +kernel
  have hc : parse (fun _ => none) "C=$\x7bX\x7d" = .error ⟨1, "C", "X"⟩ := by decide +kernel
  obtain ⟨hwhole, hget⟩ := parse_joined (fun _ => none) a "B='3'"
  have hbad := (parse_joined (fun _ => none) a "C=$\x7bX\x7d").1
  rw [ha, hb] at hwhole
  rw [ha, hc] at hbad
  refine ⟨⟨_, _, ha, hb, hwhole, ?_, ?_⟩, hc, hbad.trans (by decide)⟩
  · rw [hget _ _ _ ha hb]
    decide
  · rw [hget _ _ _ ha hb]
    decide

end QueueRelay.DotEnv

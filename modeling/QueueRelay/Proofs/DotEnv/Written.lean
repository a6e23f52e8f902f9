/-
A file that is written from a map reads back as that map.

Every entry has one line, with its value in double quotes; around the key, the `=` and the
value there may be blanks, and before the key the word that shells export with.  In between
there may be lines that hold no entry.  Nothing is escaped in a value, and nothing has to be:
what is between the outermost quotes is taken as it stands.

A line is taken apart in the order in which it is read.  First the blanks at its ends fall away,
then it is cut at its first `=`, which is the one that was written, as no key holds one.  What
stands before that is the key, and what stands behind it begins and ends with a double quote,
so that neither single quotes nor references in the value are ever looked at.
-/
import QueueRelay.DotEnv
import QueueRelay.Proofs.Table

namespace QueueRelay.DotEnv

variable {vars : Variables} {key value line pre lead tail s : List Char}

/-! ### Files as they are written -/

/-- Blanks within a line. -/
def Gap (s : List Char) : Prop := ∀ c ∈ s, Text.isBlank c = true ∧ c ≠ '\n'

/-- A text that neither begins nor ends with a blank, nor is empty. -/
structure Tight (s : List Char) : Prop where
  nonempty : s ≠ []
  head : ∀ c ∈ s.head?, Text.isBlank c = false
  last : ∀ c ∈ s.getLast?, Text.isBlank c = false

/-- A text that can be written as a key. -/
structure IsKey (key : List Char) : Prop where
  tight : Tight key
  one_line : '\n' ∉ key
  no_equals : '=' ∉ key
  no_comment : key.head? ≠ some '#'
  no_export : ¬ exportWord <+: key

-- Decided on the characters at hand: a quantifier over all characters would not evaluate.
instance : Decidable (Gap s) :=
  decidable_of_iff (s.all fun c => Text.isBlank c && c != '\n') (by simp [Gap])

instance : Decidable (Tight s) :=
  decidable_of_iff (s ≠ [] ∧ (s.head?.all fun c => !Text.isBlank c) ∧
    s.getLast?.all fun c => !Text.isBlank c)
    ⟨fun ⟨hs, hhead, hlast⟩ => ⟨hs, by simpa [Option.all_eq_true] using hhead,
        by simpa [Option.all_eq_true] using hlast⟩,
      fun h => ⟨h.nonempty, by simpa [Option.all_eq_true] using h.head,
        by simpa [Option.all_eq_true] using h.last⟩⟩

instance : Decidable (IsKey key) :=
  decidable_of_iff (Tight key ∧ '\n' ∉ key ∧ '=' ∉ key ∧ key.head? ≠ some '#' ∧
    ¬ exportWord <+: key)
    ⟨fun ⟨ht, hn, he, hc, hx⟩ => ⟨ht, hn, he, hc, hx⟩,
      fun h => ⟨h.tight, h.one_line, h.no_equals, h.no_comment, h.no_export⟩⟩

/-- What may stand before a key. -/
inductive Opening : List Char → Prop
  | nothing : Opening []
  | exported {gap : List Char} (h : Gap gap) : Opening (exportWord ++ gap)

/-- A value in double quotes. -/
def inQuotes (value : List Char) : List Char := '"' :: (value ++ ['"'])

/-- The line gives the key its value in quotes. -/
inductive Writes (key value : List Char) : List Char → Prop
  | mk {lead pre a b tail : List Char} (hlead : Gap lead) (hpre : Opening pre) (ha : Gap a)
      (hb : Gap b) (htail : Gap tail) :
      Writes key value (lead ++ (pre ++ key ++ a ++ '=' :: (b ++ inQuotes value) ++ tail))

/-- The line holds no entry. -/
inductive Skips : List Char → Prop
  | blank {line : List Char} (h : Gap line) : Skips line
  | comment {lead rest : List Char} (hlead : Gap lead) (hrest : '\n' ∉ rest) :
      Skips (lead ++ '#' :: rest)
  | unassigned {line : List Char} (h : '=' ∉ line) (hline : '\n' ∉ line) : Skips line

/-- The lines hold the entries one after the other, each in a line of its own. -/
inductive Layout : List (String × String) → List (List Char) → Prop
  | done : Layout [] []
  | skip {es : List (String × String)} {line : List Char} {ls : List (List Char)}
      (h : Skips line) (rest : Layout es ls) : Layout es (line :: ls)
  | entry {key value : String} {es : List (String × String)} {line : List Char}
      {ls : List (List Char)} (h : Writes key.toList value.toList line) (rest : Layout es ls) :
      Layout ((key, value) :: es) (line :: ls)

/-! ### Blanks -/

theorem Gap.nil : Gap [] := nofun

theorem Gap.blank (h : Gap s) : ∀ c ∈ s, Text.isBlank c = true := fun c hc => (h c hc).1

/-- What is no blank is not among blanks. -/
theorem Gap.not_mem (h : Gap s) {c : Char} (hc : Text.isBlank c = false) : c ∉ s := by
  intro hm
  rw [h.blank c hm] at hc
  cases hc

theorem Gap.one_line (h : Gap s) : '\n' ∉ s := fun hm => (h _ hm).2 rfl

theorem Tight.append {t : List Char} (hs : Tight s) (ht : Tight t) (mid : List Char) :
    Tight (s ++ mid ++ t) := by
  refine ⟨by simp [hs.nonempty], ?_, ?_⟩
  · intro c hc
    obtain ⟨d, s, rfl⟩ := List.exists_cons_of_ne_nil hs.nonempty
    exact hs.head c hc
  · intro c hc
    rw [List.getLast?_append, List.getLast?_eq_some_getLast ht.nonempty, Option.some_or,
      ← List.getLast?_eq_some_getLast] at hc
    exact ht.last c hc

/-- Blanks at the ends of a text fall away, and nothing else does. -/
theorem trimList_around (hlead : Gap lead) (hs : Tight s) (htail : Gap tail) :
    Text.trimList (lead ++ (s ++ tail)) = s := by
  have hfront : (s ++ tail).dropWhile Text.isBlank = s ++ tail := by
    cases s with
    | nil => exact absurd rfl hs.nonempty
    | cons c s => exact List.dropWhile_cons_of_neg (by simp [hs.head c rfl])
  have hback : s.reverse.dropWhile Text.isBlank = s.reverse := by
    cases hr : s.reverse with
    | nil => rfl
    | cons c r =>
        have hlast : s.getLast? = some c := by rw [← List.head?_reverse, hr, List.head?_cons]
        exact List.dropWhile_cons_of_neg (by simp [hs.last c hlast])
  unfold Text.trimList
  rw [List.dropWhile_append_of_pos hlead.blank, hfront, List.reverse_append,
    List.dropWhile_append_of_pos (by simpa using htail.blank), hback, List.reverse_reverse]

theorem trimList_front (hlead : Gap lead) (hs : Tight s) : Text.trimList (lead ++ s) = s := by
  have hboth := trimList_around hlead hs Gap.nil
  rwa [List.append_nil] at hboth

theorem trimList_back (hs : Tight s) (htail : Gap tail) : Text.trimList (s ++ tail) = s :=
  trimList_around Gap.nil hs htail

/-- Trimming leaves nothing that was not there. -/
theorem mem_of_mem_trimList {c : Char} (h : c ∈ Text.trimList s) : c ∈ s := by
  unfold Text.trimList at h
  have hback := (List.dropWhile_sublist _).subset (List.mem_reverse.1 h)
  exact (List.dropWhile_sublist _).subset (List.mem_reverse.1 hback)

/-- A text begins, when it is trimmed, with the first character that is no blank. -/
theorem head?_trimList {c : Char} (hlead : Gap lead) (hc : Text.isBlank c = false) :
    (Text.trimList (lead ++ c :: tail)).head? = some c := by
  have hfront : (c :: tail).dropWhile Text.isBlank = c :: tail :=
    List.dropWhile_cons_of_neg (by simp [hc])
  unfold Text.trimList
  rw [List.dropWhile_append_of_pos hlead.blank, hfront, List.reverse_cons, List.dropWhile_append]
  split
  · rw [List.dropWhile_cons_of_neg (by simp [hc])]
    rfl
  · simp

/-! ### The parts of a line -/

theorem lines_eq_self (h : '\n' ∉ s) : lines s = [s] := by
  induction s with
  | nil => rfl
  | cons c s ih =>
      have hc : c ≠ '\n' := (List.ne_of_not_mem_cons h).symm
      have hs : '\n' ∉ s := List.not_mem_of_not_mem_cons h
      simp [lines, ih hs]

theorem lines_ne_nil (s : List Char) : lines s ≠ [] := by
  fun_cases lines s <;> simp_all

/-- The lines of two texts with a line feed between them. -/
theorem lines_append (s t : List Char) : lines (s ++ '\n' :: t) = lines s ++ lines t := by
  induction s with
  | nil => rfl
  | cons c s ih =>
      by_cases hc : c = '\n'
      · subst hc
        simp [lines, ih]
      · obtain ⟨line, more, hs⟩ := List.exists_cons_of_ne_nil (lines_ne_nil s)
        simp [lines, ih, hs]

/-- Lines that are put together come apart again. -/
theorem lines_intercalate {ls : List (List Char)} (hne : ls ≠ []) (h : ∀ l ∈ ls, '\n' ∉ l) :
    lines (['\n'].intercalate ls) = ls := by
  induction ls with
  | nil => exact absurd rfl hne
  | cons l ls ih =>
      obtain ⟨hl, hls⟩ := List.forall_mem_cons.1 h
      cases ls with
      | nil => rw [List.intercalate_singleton, lines_eq_self hl]
      | cons l' ls =>
          rw [List.intercalate_cons_cons, List.append_assoc, List.singleton_append,
            lines_append, lines_eq_self hl, ih (by simp) hls]
          rfl

/-- A line is cut at its first `=`. -/
theorem splitAssignment_append (h : '=' ∉ s) (t : List Char) :
    splitAssignment (s ++ '=' :: t) = some (s, t) := by
  induction s with
  | nil => rfl
  | cons c s ih =>
      have hc : c ≠ '=' := (List.ne_of_not_mem_cons h).symm
      have hs : '=' ∉ s := List.not_mem_of_not_mem_cons h
      simp [splitAssignment, ih hs]

theorem splitAssignment_none (h : '=' ∉ s) : splitAssignment s = none := by
  induction s with
  | nil => rfl
  | cons c s ih =>
      have hc : c ≠ '=' := (List.ne_of_not_mem_cons h).symm
      have hs : '=' ∉ s := List.not_mem_of_not_mem_cons h
      simp [splitAssignment, ih hs]

theorem dropExports_eq_self (h : ¬ exportWord <+: s) : dropExports s = s := by
  rw [dropExports, dif_neg (by simpa using h)]

theorem dropExports_exportWord (s : List Char) : dropExports (exportWord ++ s) = dropExports s := by
  rw [dropExports, dif_pos (by simp)]
  rfl

/-- A value in double quotes is what is between them. -/
theorem value_quoted (vars : Variables) (v : List Char) :
    DotEnv.value vars (inQuotes v) = .ok (String.ofList v) := by
  have hsingle : unquote? '\'' (inQuotes v) = none := by simp [unquote?, inQuotes]
  have hdouble : unquote? '"' (inQuotes v) = some v := by simp [unquote?, inQuotes]
  rw [DotEnv.value, hsingle, hdouble]
  rfl

theorem tight_inQuotes (v : List Char) : Tight (inQuotes v) := by
  refine ⟨by simp [inQuotes], ?_, ?_⟩
  · rintro c ⟨⟩
    rfl
  · intro c hc
    rw [inQuotes, ← List.cons_append, List.getLast?_concat] at hc
    cases hc
    rfl

/-! ### One line -/

theorem tight_export : Tight ['e', 'x', 'p', 'o', 'r', 't'] := by decide

theorem Opening.tight (h : Opening pre) (hk : Tight key) : Tight (pre ++ key) := by
  cases h with
  | nothing => exact hk
  | @exported gap h => exact tight_export.append hk (' ' :: gap)

/-- What neither a gap nor the word of export holds, nothing before a key does. -/
theorem Opening.not_mem (h : Opening pre) {c : Char} (hword : c ∉ exportWord)
    (hgap : ∀ gap, Gap gap → c ∉ gap) : c ∉ pre := by
  cases h with
  | nothing => exact List.not_mem_nil
  | exported h =>
      intro hm
      exact (List.mem_append.1 hm).elim hword (hgap _ h)

theorem Opening.no_equals (h : Opening pre) : '=' ∉ pre :=
  h.not_mem (by decide) fun _ hgap => hgap.not_mem (by decide)

theorem Opening.one_line (h : Opening pre) : '\n' ∉ pre :=
  h.not_mem (by decide) fun _ hgap => hgap.one_line

theorem Opening.no_comment (h : Opening pre) (hk : IsKey key) (t : List Char) :
    (pre ++ key ++ t).head? ≠ some '#' := by
  cases h with
  | nothing =>
      obtain ⟨c, key, rfl⟩ := List.exists_cons_of_ne_nil hk.tight.nonempty
      exact hk.no_comment
  | exported => simp [exportWord]

/-- No key is mistaken for a word that it is exported with. -/
theorem dropExports_gap {gap : List Char} (hgap : Gap gap) (hk : IsKey key) :
    dropExports (gap ++ key) = gap ++ key := by
  refine dropExports_eq_self ?_
  cases gap with
  | nil => exact hk.no_export
  | cons g gap =>
      intro hp
      obtain rfl : 'e' = g := (List.cons_prefix_cons.1 hp).1
      cases hgap.blank 'e' List.mem_cons_self

/-- What stands before the `=` is read as the key. -/
theorem key_read {a : List Char} (hpre : Opening pre) (hk : IsKey key) (ha : Gap a) :
    Text.trimList (dropExports (Text.trimList (pre ++ key ++ a))) = key := by
  rw [trimList_back (hpre.tight hk.tight) ha]
  cases hpre with
  | nothing => rw [dropExports_gap Gap.nil hk, trimList_front Gap.nil hk.tight]
  | exported hgap =>
      rw [List.append_assoc, dropExports_exportWord, dropExports_gap hgap hk,
        trimList_front hgap hk.tight]

/-- A line that is written for an entry is read as that entry, with the value in quotes. -/
theorem assignment?_writes (hk : IsKey key) (h : Writes key value line) :
    assignment? line = some (key, inQuotes value) := by
  cases h with
  | @mk lead pre a b tail hlead hpre ha hb htail =>
      have htight : Tight (pre ++ key ++ a ++ '=' :: (b ++ inQuotes value)) := by
        have hends := (hpre.tight hk.tight).append (tight_inQuotes value) (a ++ '=' :: b)
        simpa using hends
      have hcomment : (pre ++ key ++ a ++ '=' :: (b ++ inQuotes value)).head? ≠ some '#' := by
        rw [List.append_assoc]
        exact hpre.no_comment hk _
      have hfirst : '=' ∉ pre ++ key ++ a := by
        have hblank : '=' ∉ a := ha.not_mem (by decide)
        simp [hpre.no_equals, hk.no_equals, hblank]
      have hkey : key.isEmpty = false := by simpa using hk.tight.nonempty
      unfold assignment?
      simp only [trimList_around hlead htight htail, hcomment, if_false,
        splitAssignment_append hfirst, Option.bind_eq_bind, Option.bind_some,
        key_read hpre hk ha, trimList_front hb (tight_inQuotes value), hkey, Bool.false_eq_true]

/-- A line that holds no entry is passed over. -/
theorem assignment?_skips (h : Skips line) : assignment? line = none := by
  have hnone : ∀ line : List Char, '=' ∉ line → assignment? line = none := by
    intro line hline
    have hsplit : splitAssignment (Text.trimList line) = none :=
      splitAssignment_none fun hm => hline (mem_of_mem_trimList hm)
    simp [assignment?, hsplit]
  cases h with
  | blank hgap => exact hnone _ (hgap.not_mem (by decide))
  | comment hlead =>
      have hmark : Text.isBlank '#' = false := by decide
      simp [assignment?, head?_trimList hlead hmark]
  | unassigned h => exact hnone _ h

theorem Writes.one_line (h : Writes key value line) (hk : '\n' ∉ key) (hv : '\n' ∉ value) :
    '\n' ∉ line := by
  cases h with
  | mk hlead hpre ha hb htail =>
      simp [inQuotes, hlead.one_line, hpre.one_line, ha.one_line, hb.one_line, htail.one_line,
        hk, hv]

theorem Skips.one_line (h : Skips line) : '\n' ∉ line := by
  cases h with
  | blank hgap => exact hgap.one_line
  | comment hlead hrest => simp [hlead.one_line, hrest]
  | unassigned _ hline => exact hline

/-! ### All lines -/

variable {es : List (String × String)} {ls : List (List Char)}

theorem Layout.one_line (h : Layout es ls) (hkeys : ∀ e ∈ es, IsKey e.1.toList)
    (hvalues : ∀ e ∈ es, '\n' ∉ e.2.toList) : ∀ l ∈ ls, '\n' ∉ l := by
  induction h with
  | done => exact nofun
  | skip hline _ ih => exact List.forall_mem_cons.2 ⟨hline.one_line, ih hkeys hvalues⟩
  | entry hline _ ih =>
      obtain ⟨hk, hkeys⟩ := List.forall_mem_cons.1 hkeys
      obtain ⟨hv, hvalues⟩ := List.forall_mem_cons.1 hvalues
      exact List.forall_mem_cons.2 ⟨hline.one_line hk.one_line hv, ih hkeys hvalues⟩

/-- The lines set the entries one after the other. -/
theorem parseLines_layout (h : Layout es ls) (hkeys : ∀ e ∈ es, IsKey e.1.toList)
    (number : Nat) (t : Table String String) :
    parseLines vars number t ls = .ok (es.foldl (fun t e => t.set e.1 e.2) t) := by
  induction h generalizing number t with
  | done => rfl
  | @skip _ line _ hline _ ih =>
      have hskip : parseLine vars number t line = .ok t := by
        rw [parseLine, assignment?_skips hline]
      rw [parseLines, hskip]
      exact ih hkeys _ _
  | @entry key value _ line _ hline _ ih =>
      obtain ⟨hk, hkeys⟩ := List.forall_mem_cons.1 hkeys
      have hset : parseLine vars number t line = .ok (t.set key value) := by
        simp [parseLine, assignment?_writes hk hline, value_quoted]
      rw [parseLines, hset]
      exact ih hkeys _ _

/-- A file is read as the entries that it was laid out from. -/
theorem parse_layout (h : Layout es ls) (hkeys : ∀ e ∈ es, IsKey e.1.toList)
    (hvalues : ∀ e ∈ es, '\n' ∉ e.2.toList) :
    parse vars (String.ofList (['\n'].intercalate ls)) = .ok (ofPairs es) := by
  unfold parse
  rw [String.toList_ofList]
  cases ls with
  | nil =>
      cases h
      rfl
  | cons l ls =>
      rw [lines_intercalate (by simp) (h.one_line hkeys hvalues), parseLines_layout h hkeys]
      rfl

/-- **A file that is written from a map reads back as that map.**  The entries may be written
in any order, with blanks where they are not part of a key or a value, and with lines that
hold none in between.  What the values hold does not matter as long as it is no line feed, nor
does what variables are set. -/
theorem parse_written {d : DotEnv} (hd : d.entries.keys.Nodup)
    (hkeys : ∀ e ∈ d.entries.entries, IsKey e.1.toList)
    (hvalues : ∀ e ∈ d.entries.entries, '\n' ∉ e.2.toList)
    (hes : es.Perm d.entries.entries) (hls : Layout es ls) (vars : Variables) :
    ∃ d', parse vars (String.ofList (['\n'].intercalate ls)) = .ok d' ∧
      d'.entries.entries = es ∧ ∀ key, d'.get? key = d.get? key := by
  have hkeys' : ∀ e ∈ es, IsKey e.1.toList := fun e he => hkeys e (hes.subset he)
  have hvalues' : ∀ e ∈ es, '\n' ∉ e.2.toList := fun e he => hvalues e (hes.subset he)
  have hnodup : (es.map Prod.fst).Nodup := (hes.map Prod.fst).nodup_iff.2 hd
  have hentries : (ofPairs es).entries.entries = es := Table.entries_foldl_set hnodup
  refine ⟨ofPairs es, parse_layout hls hkeys' hvalues', hentries, ?_⟩
  intro key
  refine (Table.get?_eq_of_perm hd ?_ key).symm
  rw [hentries]
  exact hes.symm

/-- A password full of quotes and other marks, behind a key that is exported in a file with
line ends of two characters. -/
theorem parse_written_password :
    let password := "'a\"b$\x7bc\x7d#d=e\\'\r"
    let d := ofPairs [("PASSWORD", password), ("export", "'x'")]
    let text := "# not = this\n\r\n\texport  PASSWORD = \"" ++ password ++
      "\" \r\nno assignment\nexport=\"'x'\"\n"
    ∃ d', parse (fun _ => none) text = .ok d' ∧ ∀ key, d'.get? key = d.get? key := by
  intro password d text
  let first : List Char := ['\t'] ++ (exportWord ++ [' '] ++ "PASSWORD".toList ++ [' '] ++
    '=' :: ([' '] ++ inQuotes password.toList) ++ [' ', '\r'])
  let second : List Char :=
    [] ++ ([] ++ "export".toList ++ [] ++ '=' :: ([] ++ inQuotes "'x'".toList) ++ [])
  have hfirst : Writes "PASSWORD".toList password.toList first :=
    .mk (by decide) (.exported (by decide)) (by decide) (by decide) (by decide)
  have hsecond : Writes "export".toList "'x'".toList second :=
    .mk Gap.nil .nothing Gap.nil Gap.nil Gap.nil
  let ls : List (List Char) := [[] ++ '#' :: " not = this".toList, ['\r'], first,
    "no assignment".toList, second, []]
  have hlayout : Layout d.entries.entries ls :=
    .skip (.comment Gap.nil (by decide)) (.skip (.blank (by decide)) (.entry hfirst
      (.skip (.unassigned (by decide) (by decide)) (.entry hsecond (.skip (.blank Gap.nil)
        .done)))))
  have htext : String.ofList (['\n'].intercalate ls) = text := by decide +kernel
  obtain ⟨d', hparse, -, hget⟩ := parse_written (d := d) (by decide +kernel) (by decide +kernel)
    (by decide +kernel) (.refl _) hlayout fun _ => none
  rw [htext] at hparse
  exact ⟨d', hparse, hget⟩

end QueueRelay.DotEnv

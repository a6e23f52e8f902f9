/-
What a connection string comes to.

Its parts are looked at one after the other, and each replaces what an earlier part gave to the
same name.  So what has been gathered in the end is, for each of the three names that count, the
last value that was given to it (`foldlM_add`), unless a part without a `=` ends the reading at
once (`foldlM_malformed`).  Whatever leaves the last values alone leaves the result alone: parts
that are reordered without passing another part of their name, further parts that give nothing
to the three names, and blanks around a part.
-/
import Mathlib.Data.List.TakeWhile
import QueueRelay.Proofs.Bus.Credentials

namespace QueueRelay.Bus

variable {name value : String} {part : List Char} {parts : List (List Char)}

/-! ### Parts -/

/-- The part gives the value to the name: a word that is the name but for the case of its letters,
the first `=`, and the value behind it. -/
def Gives (part : List Char) (name value : String) : Prop :=
  ∃ word, part = word ++ '=' :: value.toList ∧ '=' ∉ word ∧
    Text.asciiLower (String.ofList word) = Text.asciiLower name

/-- The value is the last one that the parts give to the name. -/
def GivesLast (parts : List (List Char)) (name value : String) : Prop :=
  ∃ before part after, parts = before ++ part :: after ∧ Gives part name value ∧
    ∀ p ∈ after, ∀ v, ¬ Gives p name v

/-- The names that count. -/
def partNames : List String := ["Endpoint", "SharedAccessKeyName", "SharedAccessKey"]

/-- The name in front of the first `=`, in small letters. -/
def nameOf (part : List Char) : Option String :=
  (splitPair part).map fun pair => Text.asciiLower (String.ofList pair.1)

/-- The value of a part with the name, which is in small letters. -/
def valueFor (name : String) (part : List Char) : Option String :=
  (splitPair part).bind fun pair =>
    if Text.asciiLower (String.ofList pair.1) = name then some (String.ofList pair.2) else none

theorem splitPair_eq_some_iff {word rest : List Char} :
    splitPair part = some (word, rest) ↔ part = word ++ '=' :: rest ∧ '=' ∉ word := by
  refine ⟨fun h => ?_, fun ⟨hpart, hword⟩ => hpart ▸ splitPair_append hword rest⟩
  induction part generalizing word with
  | nil => cases h
  | cons c part ih =>
      by_cases hc : c = '='
      · subst hc
        cases h
        exact ⟨rfl, List.not_mem_nil⟩
      · simp only [splitPair] at h
        obtain ⟨⟨word', rest'⟩, hsplit, hpair⟩ := Option.map_eq_some_iff.1 h
        cases hpair
        obtain ⟨rfl, hword⟩ := ih hsplit
        exact ⟨rfl, by simp [hword, Ne.symm hc]⟩

theorem splitPair_eq_none_iff : splitPair part = none ↔ '=' ∉ part := by
  constructor
  · intro h hm
    obtain ⟨word, rest, rfl, hword⟩ := List.eq_append_cons_of_mem hm
    rw [splitPair_append hword] at h
    cases h
  · intro h
    cases hs : splitPair part with
    | none => rfl
    | some pair =>
        rw [(splitPair_eq_some_iff.1 hs).1] at h
        exact absurd (List.mem_append_right _ List.mem_cons_self) h

theorem valueFor_eq_some_iff : valueFor (Text.asciiLower name) part = some value ↔
    Gives part name value := by
  constructor
  · intro h
    obtain ⟨⟨word, rest⟩, hsplit, hvalue⟩ := Option.bind_eq_some_iff.1 h
    obtain ⟨hname, hvalue⟩ := Option.ite_none_right_eq_some.1 hvalue
    cases hvalue
    obtain ⟨hpart, hword⟩ := splitPair_eq_some_iff.1 hsplit
    exact ⟨word, by rw [hpart, String.toList_ofList], hword, hname⟩
  · rintro ⟨word, hpart, hword, hname⟩
    simp [valueFor, splitPair_eq_some_iff.2 ⟨hpart, hword⟩, hname]

theorem valueFor_eq_none_iff : valueFor (Text.asciiLower name) part = none ↔
    ∀ v, ¬ Gives part name v := by
  simp only [Option.eq_none_iff_forall_ne_some, ne_eq, valueFor_eq_some_iff]

/-! ### What is gathered -/

/-- The last value of a name that is in small letters. -/
def lastFor (name : String) (parts : List (List Char)) : Option String :=
  parts.reverse.findSome? (valueFor name)

theorem lastFor_cons (name : String) (part : List Char) (parts : List (List Char)) :
    lastFor name (part :: parts) = (lastFor name parts).or (valueFor name part) := by
  simp [lastFor, List.findSome?_append]

theorem lastFor_eq_some_iff :
    lastFor (Text.asciiLower name) parts = some value ↔ GivesLast parts name value := by
  rw [lastFor, List.findSome?_eq_some_iff]
  constructor
  · rintro ⟨after, part, before, hparts, hpart, hafter⟩
    refine ⟨before.reverse, part, after.reverse, ?_, valueFor_eq_some_iff.1 hpart, ?_⟩
    · simpa using congrArg List.reverse hparts
    · exact fun p hp => valueFor_eq_none_iff.1 (hafter p (List.mem_reverse.1 hp))
  · rintro ⟨before, part, after, rfl, hpart, hafter⟩
    refine ⟨after.reverse, part, before.reverse, by simp, valueFor_eq_some_iff.2 hpart, ?_⟩
    exact fun p hp => valueFor_eq_none_iff.2 (hafter p (List.mem_reverse.1 hp))

/-- What the parts give in the end where `p` was gathered before. -/
def Parts.after (p : Parts) (parts : List (List Char)) : Parts where
  endpoint := (lastFor (Text.asciiLower "Endpoint") parts).or p.endpoint
  keyName := (lastFor (Text.asciiLower "SharedAccessKeyName") parts).or p.keyName
  key := (lastFor (Text.asciiLower "SharedAccessKey") parts).or p.key

/-- A part gives its value to at most one of the three names. -/
theorem add_of_mem (p : Parts) (h : '=' ∈ part) : p.add part = .ok (p.after [part]) := by
  cases hs : splitPair part with
  | none => exact absurd h (splitPair_eq_none_iff.1 hs)
  | some pair =>
      obtain ⟨word, rest⟩ := pair
      have hlast : ∀ name, lastFor name [part] = valueFor name part := fun name => by
        simp [lastFor]
      have hvalue : ∀ name, valueFor name part =
          if String.ofList (word.map Char.toLower) = name then some (String.ofList rest)
          else none := fun name => by
        simp [valueFor, hs, Text.asciiLower]
      have hendpoint : Text.asciiLower "Endpoint" = "endpoint" := rfl
      have hname : Text.asciiLower "SharedAccessKeyName" = "sharedaccesskeyname" := rfl
      have hkey : Text.asciiLower "SharedAccessKey" = "sharedaccesskey" := rfl
      simp only [Parts.add, hs, Parts.after, hlast, hvalue, hendpoint, hname, hkey]
      split_ifs <;> simp_all

theorem foldlM_add (h : ∀ part ∈ parts, '=' ∈ part) (p : Parts) :
    parts.foldlM Parts.add p = .ok (p.after parts) := by
  induction parts generalizing p with
  | nil => rfl
  | cons part parts ih =>
      obtain ⟨hpart, hparts⟩ := List.forall_mem_cons.1 h
      have hafter : (p.after [part]).after parts = p.after (part :: parts) := by
        simp only [Parts.after, lastFor_cons, Option.or_assoc]
        rfl
      rw [List.foldlM_cons, add_of_mem p hpart, ← hafter]
      exact ih hparts _

theorem foldlM_malformed {before after : List (List Char)} (hbefore : ∀ part ∈ before, '=' ∈ part)
    (hpart : '=' ∉ part) (p : Parts) :
    (before ++ part :: after).foldlM Parts.add p = .error (.invalidConfig
      ("malformed connection string segment '" ++ String.ofList part ++ "'")) := by
  have hadd : (p.after before).add part = .error (.invalidConfig
      ("malformed connection string segment '" ++ String.ofList part ++ "'")) := by
    rw [Parts.add, splitPair_eq_none_iff.2 hpart]
  rw [List.foldlM_append, foldlM_add hbefore]
  change (part :: after).foldlM Parts.add (p.after before) = _
  rw [List.foldlM_cons, hadd]
  rfl

/-! ### What makes no difference -/

/-- Parts with one name, and parts without any, stand in the same order in both. -/
def SameOrder (parts parts' : List (List Char)) : Prop :=
  ∀ name : Option String, parts.filter (nameOf · = name) = parts'.filter (nameOf · = name)

/-- Neighbours with different names may change places. -/
theorem sameOrder_swap {a b : List Char} (h : nameOf a ≠ nameOf b)
    (before after : List (List Char)) :
    SameOrder (before ++ a :: b :: after) (before ++ b :: a :: after) := by
  intro name
  rw [List.filter_append, List.filter_append]
  congr 1
  by_cases ha : nameOf a = name
  · have hb : nameOf b ≠ name := fun hb => h (ha.trans hb.symm)
    simp [ha, hb]
  · simp [List.filter_cons, ha]

theorem nameOf_eq_none_iff : nameOf part = none ↔ '=' ∉ part :=
  Option.map_eq_none_iff.trans splitPair_eq_none_iff

/-- The last value of a name is found among the parts of that name. -/
theorem lastFor_filter (name : String) (parts : List (List Char)) :
    lastFor name (parts.filter (nameOf · = some name)) = lastFor name parts := by
  induction parts with
  | nil => rfl
  | cons part parts ih =>
      by_cases hname : nameOf part = some name
      · rw [List.filter_cons_of_pos (by simpa using hname), lastFor_cons, lastFor_cons, ih]
      · have hnone : valueFor name part = none := by
          cases hs : splitPair part with
          | none => simp [valueFor, hs]
          | some pair =>
              have hne : Text.asciiLower (String.ofList pair.1) ≠ name := by
                simpa [nameOf, hs] using hname
              simp [valueFor, hs, hne]
        rw [List.filter_cons_of_neg (by simpa using hname), lastFor_cons, hnone, ih, Option.or_none]

theorem foldlM_congr {parts' : List (List Char)} (h : SameOrder parts parts') (p : Parts) :
    parts.foldlM Parts.add p = parts'.foldlM Parts.add p := by
  have hlast : ∀ name, lastFor name parts = lastFor name parts' := by
    intro name
    rw [← lastFor_filter, h (some name), lastFor_filter]
  -- The first part without a name is the first of those that have none, in both.
  have hfirst : ∀ parts : List (List Char), ∀ bad rest,
      parts.filter (nameOf · = none) = bad :: rest → parts.foldlM Parts.add p =
        .error (.invalidConfig
          ("malformed connection string segment '" ++ String.ofList bad ++ "'")) := by
    intro parts bad rest hparts
    obtain ⟨before, after, rfl, hbefore, hbad, -⟩ := List.filter_eq_cons_iff.1 hparts
    refine foldlM_malformed (fun part hpart => ?_) (nameOf_eq_none_iff.1 (by simpa using hbad)) p
    have hsome := hbefore part hpart
    simpa [nameOf_eq_none_iff] using hsome
  have hall : ∀ parts : List (List Char), parts.filter (nameOf · = none) = [] →
      ∀ part ∈ parts, '=' ∈ part := by
    intro parts hparts part hpart
    have hsome := List.filter_eq_nil_iff.1 hparts part hpart
    simpa [nameOf_eq_none_iff] using hsome
  have hnone := h none
  cases hbad : parts.filter (nameOf · = none) with
  | nil =>
      rw [foldlM_add (hall _ hbad), foldlM_add (hall _ (hnone ▸ hbad))]
      simp only [Parts.after, hlast]
  | cons bad rest => rw [hfirst _ bad rest hbad, hfirst _ bad rest (hnone ▸ hbad)]

/-- Parts that give nothing to the names that count. -/
def Idle (parts : List (List Char)) : Prop :=
  ∀ part ∈ parts, '=' ∈ part ∧ ∀ name ∈ partNames, ∀ v, ¬ Gives part name v

theorem foldlM_idle (h : Idle parts) (p : Parts) : parts.foldlM Parts.add p = .ok p := by
  have hnone : ∀ name ∈ partNames, lastFor (Text.asciiLower name) parts = none := by
    intro name hname
    refine Option.eq_none_iff_forall_ne_some.2 fun v hv => ?_
    obtain ⟨before, part, after, rfl, hgives, -⟩ := lastFor_eq_some_iff.1 hv
    exact (h part (List.mem_append_right _ List.mem_cons_self)).2 name hname v hgives
  simp only [partNames, List.forall_mem_cons] at hnone
  obtain ⟨hendpoint, hname, hkey, -⟩ := hnone
  rw [foldlM_add (fun part hpart => (h part hpart).1), Parts.after, hendpoint, hname, hkey]
  rfl

/-- Blanks at the ends of a text do not count. -/
theorem trimList_blanks {lead tail : List Char} (hlead : ∀ c ∈ lead, Text.isBlank c = true)
    (htail : ∀ c ∈ tail, Text.isBlank c = true) (s : List Char) :
    Text.trimList (lead ++ s ++ tail) = Text.trimList s := by
  have hgone : tail.dropWhile Text.isBlank = [] := List.dropWhile_eq_nil_iff.2 htail
  unfold Text.trimList
  rw [List.append_assoc, List.dropWhile_append_of_pos hlead, List.dropWhile_append]
  split
  · rename_i hs
    rw [hgone, List.isEmpty_iff.1 hs]
  · rw [List.reverse_append, List.dropWhile_append_of_pos (by simpa using htail)]

theorem segmentsOf_blanks {lead s tail : String} (hlead : Text.allBlank lead = true)
    (hs : ';' ∉ s.toList) (htail : Text.allBlank tail = true) :
    segmentsOf (lead ++ s ++ tail) = segmentsOf s := by
  have hblank : ∀ t : String, Text.allBlank t = true → ∀ c ∈ t.toList, Text.isBlank c = true :=
    fun t ht => List.all_eq_true.1 ht
  have hone : ∀ t : String, Text.allBlank t = true → ';' ∉ t.toList := fun t ht hm =>
    absurd (hblank t ht ';' hm) (by decide)
  have hwhole : ';' ∉ (lead ++ s ++ tail).toList := by
    simp [hone lead hlead, hs, hone tail htail]
  rw [segmentsOf, segmentsOf, splitAt_of_not_mem hwhole, splitAt_of_not_mem hs, List.map_singleton,
    List.map_singleton, String.toList_append, String.toList_append,
    trimList_blanks (hblank lead hlead) (hblank tail htail)]

/-! ### The whole text -/

section
variable (host? : String → Option String)

theorem credentials_eq_ok_iff {p : Parts} {c : Credentials} :
    p.credentials host? = .ok c ↔ ∃ endpoint, p.endpoint = some endpoint ∧
      host? endpoint = some c.host ∧ p.keyName = some c.keyName ∧ p.key = some c.key := by
  obtain ⟨endpoint, keyName, key⟩ := p
  obtain ⟨host, name, secret⟩ := c
  cases endpoint with
  | none => exact iff_of_false nofun (by simp)
  | some endpoint =>
      unfold Parts.credentials
      dsimp only
      cases hh : host? endpoint <;> cases keyName <;> cases key <;>
        simp [hh, pure, Except.pure]

theorem parse_of_equals {s : String} (h : ∀ part ∈ segmentsOf s, '=' ∈ part) :
    Credentials.parseWith host? s = (Parts.after {} (segmentsOf s)).credentials host? := by
  rw [Credentials.parseWith, foldlM_add h]
  rfl

theorem parse_congr {s t : String}
    (h : (segmentsOf s).foldlM Parts.add {} = (segmentsOf t).foldlM Parts.add {}) :
    Credentials.parseWith host? s = Credentials.parseWith host? t := by
  rw [Credentials.parseWith, Credentials.parseWith, h]

end

/-- The connection string that is put together from parts. -/
def joined (parts : List String) : String := ";".intercalate parts

/-- **What a connection string comes to.**  It is refused for the first part without a `=`, whatever
else it holds.  Where there is none, it depends on the last values of the three names, and gives
access just when each name has one and that of the endpoint is a URL with a host, which is for
`host?` to tell (for `endpointHost?` where the text is read by `Credentials.parse`).  So the result
stays the same when parts are reordered but for those of one name, when parts are added that give
nothing to the three names, and when there are blanks around a part. -/
theorem parse_decided (host? : String → Option String) (s : String) :
    (∀ before part after, segmentsOf s = before ++ part :: after → (∀ p ∈ before, '=' ∈ p) →
      '=' ∉ part → Credentials.parseWith host? s = .error (.invalidConfig
        ("malformed connection string segment '" ++ String.ofList part ++ "'"))) ∧
    ((∀ part ∈ segmentsOf s, '=' ∈ part) →
      (∀ c, Credentials.parseWith host? s = .ok c ↔ ∃ endpoint,
        GivesLast (segmentsOf s) "Endpoint" endpoint ∧ host? endpoint = some c.host ∧
        GivesLast (segmentsOf s) "SharedAccessKeyName" c.keyName ∧
        GivesLast (segmentsOf s) "SharedAccessKey" c.key) ∧
      ∀ t, (∀ part ∈ segmentsOf t, '=' ∈ part) →
        (∀ name ∈ partNames, ∀ value,
          GivesLast (segmentsOf s) name value ↔ GivesLast (segmentsOf t) name value) →
        Credentials.parseWith host? s = Credentials.parseWith host? t) ∧
    (∀ t, SameOrder (segmentsOf s) (segmentsOf t) →
      Credentials.parseWith host? s = Credentials.parseWith host? t) ∧
    (∀ front part back, Idle (segmentsOf part) →
      Credentials.parseWith host? (joined (front ++ part :: back)) =
        Credentials.parseWith host? (joined (front ++ back))) ∧
    ∀ front lead part tail back, Text.allBlank lead = true → ';' ∉ part.toList →
      Text.allBlank tail = true →
        Credentials.parseWith host? (joined (front ++ (lead ++ part ++ tail) :: back)) =
          Credentials.parseWith host? (joined (front ++ part :: back)) := by
  refine ⟨?_, fun hs => ⟨fun c => ?_, fun t ht hlast => ?_⟩, fun t h => ?_, ?_, ?_⟩
  · intro before part after hparts hbefore hpart
    rw [Credentials.parseWith, hparts, foldlM_malformed hbefore hpart]
    rfl
  · simp only [parse_of_equals host? hs, credentials_eq_ok_iff, Parts.after, Option.or_none,
      lastFor_eq_some_iff]
  · have hsame : ∀ name ∈ partNames, lastFor (Text.asciiLower name) (segmentsOf s) =
        lastFor (Text.asciiLower name) (segmentsOf t) := fun name hname =>
      Option.ext fun v => by rw [lastFor_eq_some_iff, lastFor_eq_some_iff, hlast name hname v]
    simp only [partNames, List.forall_mem_cons] at hsame
    obtain ⟨hendpoint, hname, hkey, -⟩ := hsame
    simp only [parse_of_equals host? hs, parse_of_equals host? ht, Parts.after, hendpoint, hname,
      hkey]
  · exact parse_congr host? (foldlM_congr h {})
  · intro front part back hidle
    refine parse_congr host? ?_
    simp only [joined, segmentsOf_intercalate, List.flatMap_append, List.flatMap_cons,
      List.foldlM_append, foldlM_idle hidle]
    rfl
  · intro front lead part tail back hlead hpart htail
    refine parse_congr host? ?_
    simp only [joined, segmentsOf_intercalate, List.flatMap_append, List.flatMap_cons,
      segmentsOf_blanks hlead hpart htail]

/-- Of two keys the later counts, with the `=` that it holds.  Neither what stood before it nor the
order of the names matters, nor a blank part, nor one that is called otherwise. -/
theorem parse_decided_reordered :
    let s := "SharedAccessKey=a=b;Endpoint=sb://h;sharedaccesskeyname=n;SharedAccessKey=c=d"
    let alone := "Endpoint=sb://h;SharedAccessKeyName=n;SharedAccessKey=c=d"
    let moved := "SharedAccessKey=a=b;sharedaccesskeyname=n;Endpoint=sb://h;SharedAccessKey=c=d"
    Credentials.parse s = .ok ⟨"h", "n", "c=d"⟩ ∧ Credentials.parse s = Credentials.parse alone ∧
      Credentials.parse s = Credentials.parse moved ∧
      Credentials.parse (joined (["Endpoint=sb://h"] ++ "\t;Region= x=" :: [alone])) =
        Credentials.parse (joined (["Endpoint=sb://h"] ++ [alone])) ∧
      Credentials.parse (joined ([] ++ (" " ++ "a=b" ++ "\n") :: [alone])) =
        Credentials.parse (joined ([] ++ "a=b" :: [alone])) ∧
      Credentials.parse "Endpoint=no url;b;c" =
        .error (.invalidConfig "malformed connection string segment 'b'") := by
  intro s alone moved
  have hequals : ∀ part ∈ segmentsOf s, '=' ∈ part := by decide +kernel
  have hlast : ∀ name ∈ partNames, lastFor (Text.asciiLower name) (segmentsOf s) =
      lastFor (Text.asciiLower name) (segmentsOf alone) := by decide +kernel
  obtain ⟨-, hdecided, hmoved, hidle, hblank⟩ := parse_decided endpointHost? s
  obtain ⟨hok, hsame⟩ := hdecided hequals
  refine ⟨(hok _).2 ⟨"sb://h", ?_, by decide +kernel, ?_, ?_⟩, hsame alone ?_ ?_, hmoved moved ?_,
    hidle _ _ _ ?_, hblank _ _ _ _ _ rfl (by decide) rfl,
    (parse_decided endpointHost? _).1 ["Endpoint=no url".toList] ['b'] [['c']]
      (by decide +kernel) ?_ ?_⟩
  · exact lastFor_eq_some_iff.1 (by decide +kernel)
  · exact lastFor_eq_some_iff.1 (by decide +kernel)
  · exact lastFor_eq_some_iff.1 (by decide +kernel)
  · decide +kernel
  · intro name hname value
    rw [← lastFor_eq_some_iff, ← lastFor_eq_some_iff, hlast name hname]
  · have hs : segmentsOf s = ["SharedAccessKey=a=b".toList] ++ "Endpoint=sb://h".toList ::
        "sharedaccesskeyname=n".toList :: ["SharedAccessKey=c=d".toList] := by decide +kernel
    have hm : segmentsOf moved = ["SharedAccessKey=a=b".toList] ++ "sharedaccesskeyname=n".toList ::
        "Endpoint=sb://h".toList :: ["SharedAccessKey=c=d".toList] := by decide +kernel
    rw [hs, hm]
    exact sameOrder_swap (by decide +kernel) _ _
  · have hvalues : ∀ part ∈ segmentsOf "\t;Region= x=", '=' ∈ part ∧
        ∀ name ∈ partNames, valueFor (Text.asciiLower name) part = none := by decide +kernel
    exact fun part hpart => ⟨(hvalues part hpart).1, fun name hname =>
      valueFor_eq_none_iff.1 ((hvalues part hpart).2 name hname)⟩
  · decide
  · decide

end QueueRelay.Bus

/-
Paths in their written form.

`IsSegment` is what reading makes of a segment: nothing in it is encoded again, and it is no
dot.  A path of such segments is read back (`readPath_renderSegments`), since cutting it at
its slashes gives the segments.  What a new segment turns into is one of them too
(`isSegment_pushed`), and it stands for the segment except where the segment is lost: one
or two dots are left out, and tabs and line breaks are taken away (`decode?_pushed_iff`).
-/
import Mathlib.Data.List.Basic
import QueueRelay.Proofs.Url.Encoding
import QueueRelay.Url.Path

namespace QueueRelay.Url

variable {isSlash : Char → Bool} {c d : Char} {s part : List Char} {parts : List (List Char)}

/-! ### Segments -/

/-- A segment in the form that reading a path gives it. -/
structure IsSegment (part : List Char) : Prop where
  written : Written inPathSet part
  no_slash : '/' ∉ part
  not_single : isSingleDot part = false
  not_double : isDoubleDot part = false

theorem segments_eq_splitOnP (s : List Char) : segments isSlash s = s.splitOnP isSlash := by
  induction s with
  | nil => rfl
  | cons c s ih =>
      rw [List.splitOnP_cons_eq_if_modifyHead, segments]
      split
      · rw [ih]
      · obtain ⟨part, parts, hp⟩ := List.exists_cons_of_ne_nil (List.splitOnP_ne_nil isSlash s)
        rw [ih, hp]
        rfl

@[simp] theorem renderSegments_nil : renderSegments [] = [] := rfl

@[simp] theorem renderSegments_cons :
    renderSegments (part :: parts) = '/' :: (part ++ renderSegments parts) := rfl

theorem splitOnP_renderSegments (hs : isSlash '/' = true)
    (hpart : ∀ c ∈ part, isSlash c = false) (hparts : ∀ p ∈ parts, ∀ c ∈ p, isSlash c = false) :
    (part ++ renderSegments parts).splitOnP isSlash = part :: parts := by
  induction parts generalizing part with
  | nil =>
      rw [renderSegments_nil, List.append_nil]
      exact List.splitOnP_eq_singleton hpart
  | cons next parts ih =>
      obtain ⟨hnext, hrest⟩ := List.forall_mem_cons.mp hparts
      rw [renderSegments_cons, List.splitOnP_append_cons_of_forall_mem hpart _ hs, ih hnext hrest]

/-- Segments that are no dots are all kept. -/
theorem resolveDots_of_isSegment (seen : List (List Char)) (h : ∀ part ∈ parts, IsSegment part) :
    resolveDots seen parts = parts.reverse ++ seen := by
  induction parts generalizing seen with
  | nil => rfl
  | cons part parts ih =>
      obtain ⟨hpart, hparts⟩ := List.forall_mem_cons.mp h
      cases parts with
      | nil => simp [resolveDots, hpart.not_single, hpart.not_double]
      | cons next parts =>
          rw [resolveDots, hpart.not_double, hpart.not_single, if_neg Bool.false_ne_true,
            if_neg Bool.false_ne_true, ih _ hparts]
          · simp
          · exact List.cons_ne_nil _ _

theorem readPath_renderSegments (hs : ∀ c, isSlash c = true ↔ c = '/')
    (h : ∀ part ∈ parts, IsSegment part) (hn : parts ≠ []) :
    readPath isSlash (renderSegments parts) = renderSegments parts := by
  have hslash : isSlash '/' = true := (hs '/').mpr rfl
  have hplain : ∀ part ∈ parts, ∀ c ∈ part, isSlash c = false := fun part hp c hc =>
    Bool.eq_false_iff.mpr fun hc' => (h part hp).no_slash ((hs c).mp hc' ▸ hc)
  obtain ⟨part, rest, rfl⟩ := List.exists_cons_of_ne_nil hn
  obtain ⟨hpart, hrest⟩ := List.forall_mem_cons.mp hplain
  have hmap : (part :: rest).map (encode inPathSet) = part :: rest :=
    (List.map_congr_left fun p hp => encode_of_written (h p hp).written).trans (List.map_id _)
  rw [renderSegments_cons, readPath]
  simp only [hslash, if_true]
  rw [segments_eq_splitOnP, splitOnP_renderSegments hslash hpart hrest, hmap,
    resolveDots_of_isSegment [] h, List.append_nil, List.reverse_reverse, renderSegments_cons]

theorem mem_renderSegments (h : ∀ part ∈ parts, IsSegment part) (hc : c ∈ renderSegments parts) :
    0x20 < c.toNat ∧ c ≠ '?' ∧ c ≠ '#' := by
  obtain ⟨part, hp, hc⟩ := List.mem_flatMap.mp hc
  rcases List.mem_cons.mp hc with rfl | hm
  · decide
  · have hw := (h part hp).written
    exact ⟨hw.lt_toNat coversBlanks_inPathSet hm, fun he => hw.not_mem (by decide) (he ▸ hm),
      fun he => hw.not_mem (by decide) (he ▸ hm)⟩

/-! ### Dots -/

theorem toLower_eq (c : Char) : c.toLower = c ∨ 65 ≤ c.toNat ∧ c.toNat ≤ 90 := by
  by_cases h : c.val ≥ 'A'.val ∧ c.val ≤ 'Z'.val
  · exact .inr h
  · exact .inl (dif_neg h)

theorem eq_of_toLower (h : c.toLower = d) (hd : d ∈ ['%', '2', '.']) : c = d := by
  have letters : ∀ n ∈ List.range' 65 26, (Char.ofNat n).toLower ∉ ['%', '2', '.'] := by decide
  rcases toLower_eq c with he | ⟨hlo, hhi⟩
  · exact he.symm.trans h
  · refine absurd (h ▸ hd) ?_
    have hn := letters c.toNat (List.mem_range'_1.mpr ⟨hlo, by omega⟩)
    rwa [Char.ofNat_toNat] at hn

theorem eq_of_toLower_e (h : c.toLower = 'e') : c = 'e' ∨ c = 'E' := by
  have letters : ∀ n ∈ List.range' 65 26,
      (Char.ofNat n).toLower = 'e' → Char.ofNat n = 'E' := by decide
  rcases toLower_eq c with he | ⟨hlo, hhi⟩
  · exact .inl (he.symm.trans h)
  · have hn := letters c.toNat (List.mem_range'_1.mpr ⟨hlo, by omega⟩)
    rw [Char.ofNat_toNat] at hn
    exact .inr (hn h)

/-- A dot, written as it is or as an escape, is decoded as one. -/
theorem decodeBytes_dot {t : List Char}
    (h : s.map Char.toLower = '.' :: t ∨ s.map Char.toLower = '%' :: '2' :: 'e' :: t) :
    ∃ rest, rest.map Char.toLower = t ∧ decodeBytes s = utf8 ['.'] ++ decodeBytes rest := by
  rcases h with h | h
  · obtain ⟨c, rest, rfl, hc, hr⟩ := List.map_eq_cons_iff.mp h
    have hdot := eq_of_toLower hc (by decide)
    subst hdot
    exact ⟨rest, hr, decodeBytes_copied (not_escapes (by decide))⟩
  · obtain ⟨c, s, rfl, hc, h⟩ := List.map_eq_cons_iff.mp h
    obtain ⟨d, s, rfl, hd, h⟩ := List.map_eq_cons_iff.mp h
    obtain ⟨e, rest, rfl, he, hr⟩ := List.map_eq_cons_iff.mp h
    have hc := eq_of_toLower hc (by decide)
    have hd := eq_of_toLower hd (by decide)
    subst hc hd
    refine ⟨rest, hr, ?_⟩
    rcases eq_of_toLower_e he with rfl | rfl
    · exact decodeBytes_escaped (x := 2) (y := 14) rfl rfl
    · exact decodeBytes_escaped (x := 2) (y := 14) rfl rfl

theorem decodeBytes_of_isSingleDot (h : isSingleDot s = true) : decodeBytes s = utf8 ['.'] := by
  simp only [isSingleDot, Bool.or_eq_true, decide_eq_true_eq] at h
  have hdot : s.map Char.toLower = ['.'] ∨ s.map Char.toLower = ['%', '2', 'e'] :=
    h.imp_left fun hs => by rw [hs]; rfl
  obtain ⟨rest, hr, hs⟩ := decodeBytes_dot hdot
  rw [hs, List.map_eq_nil_iff.mp hr]
  rfl

theorem decodeBytes_of_isDoubleDot (h : isDoubleDot s = true) :
    decodeBytes s = utf8 ['.', '.'] := by
  simp only [isDoubleDot, Bool.or_eq_true, decide_eq_true_eq] at h
  obtain ⟨t, hs, ht⟩ : ∃ t, (s.map Char.toLower = '.' :: t ∨
      s.map Char.toLower = '%' :: '2' :: 'e' :: t) ∧ (t = ['.'] ∨ t = ['%', '2', 'e']) := by
    rcases h with ((h | h) | h) | h
    · exact ⟨_, .inl h, .inl rfl⟩
    · exact ⟨_, .inr h, .inl rfl⟩
    · exact ⟨_, .inl h, .inr rfl⟩
    · exact ⟨_, .inr h, .inr rfl⟩
  obtain ⟨rest, hr, hs⟩ := decodeBytes_dot hs
  obtain ⟨last, hl, hr⟩ := decodeBytes_dot (hr ▸ ht)
  rw [hs, hr, List.map_eq_nil_iff.mp hl]
  rfl

/-- Nothing but a dot is encoded as one. -/
theorem isSingleDot_encode : isSingleDot (encode inSegmentSet s) = true ↔ s = ['.'] := by
  constructor
  · intro h
    have hd := decode?_eq_some_iff.mpr (decodeBytes_of_isSingleDot h)
    rw [decode?_encode rfl] at hd
    exact Option.some.inj hd
  · rintro rfl
    decide

theorem isDoubleDot_encode : isDoubleDot (encode inSegmentSet s) = true ↔ s = ['.', '.'] := by
  constructor
  · intro h
    have hd := decode?_eq_some_iff.mpr (decodeBytes_of_isDoubleDot h)
    rw [decode?_encode rfl] at hd
    exact Option.some.inj hd
  · rintro rfl
    decide

/-! ### A new segment -/

/-- What is left of a segment without the characters that mean nothing. -/
def meant (segment : String) : List Char := segment.toList.filter fun c => !isIgnored c

/-- What a new segment of a path is written as.  One or two dots add nothing. -/
def pushed (segment : String) : List Char :=
  if meant segment = ['.'] ∨ meant segment = ['.', '.'] then []
  else encode inSegmentSet (meant segment)

theorem meant_of_dots {segment : String}
    (h : segment.toList = ['.'] ∨ segment.toList = ['.', '.']) :
    meant segment = segment.toList := by
  rw [meant]
  rcases h with h | h <;> rw [h] <;> rfl

theorem pushSegment_root (segment : String) :
    pushSegment ['/'] segment = '/' :: pushed segment := by
  have hdrop : dropLastSegment ['/'] = ['/'] := rfl
  by_cases hdots : segment.toList = ['.'] ∨ segment.toList = ['.', '.']
  · have hm := meant_of_dots hdots
    rw [pushSegment, pushed, hm, if_pos hdots]
    simp [hdots]
  · rw [pushSegment, ← meant]
    simp only [hdots, if_false, Bool.or_eq_true, decide_eq_true_eq, List.length_singleton,
      isDoubleDot_encode, isSingleDot_encode, pushed]
    by_cases hd : meant segment = ['.', '.']
    · simp [hd, hdrop]
    · by_cases hs : meant segment = ['.']
      · simp [hs]
      · simp [hd, hs]

/-- What is written for a new segment is a segment. -/
theorem isSegment_pushed (segment : String) : IsSegment (pushed segment) := by
  unfold pushed
  split
  · exact ⟨written_nil, List.not_mem_nil, rfl, rfl⟩
  · rename_i h
    obtain ⟨hs, hd⟩ := not_or.mp h
    have hslash : '/' ∉ encode inSegmentSet (meant segment) := fun hc => by
      rcases mem_encode hc with ⟨-, -, hf⟩ | he
      · cases hf
      · exact absurd he (by decide)
    exact
      { written := spares_inPathSet.written_encode fun c _ hc => by simp [inSegmentSet, hc]
        no_slash := hslash
        not_single := Bool.eq_false_iff.mpr (mt isSingleDot_encode.mp hs)
        not_double := Bool.eq_false_iff.mpr (mt isDoubleDot_encode.mp hd) }

/-- What is written for a new segment stands for it, unless it is one or two dots or holds a
character that means nothing. -/
theorem decode?_pushed_iff (segment : String) :
    decode? (pushed segment) = some segment.toList ↔
      (∀ c ∈ segment.toList, isIgnored c = false) ∧ segment ≠ "." ∧ segment ≠ ".." := by
  have hall : meant segment = segment.toList ↔ ∀ c ∈ segment.toList, isIgnored c = false := by
    simp [meant, List.filter_eq_self]
  have hone : segment = "." ↔ segment.toList = ['.'] := String.toList_inj.symm
  have htwo : segment = ".." ↔ segment.toList = ['.', '.'] := String.toList_inj.symm
  rw [← hall, ne_eq, ne_eq, hone, htwo, pushed]
  split
  · rename_i h
    refine iff_of_false (fun hd => ?_) fun ⟨hm, hs, hd⟩ => h.elim (hm ▸ hs) (hm ▸ hd)
    have hnil : segment.toList = [] := (Option.some.inj hd).symm
    rw [meant, hnil] at h
    exact h.elim (fun h => nomatch h) (fun h => nomatch h)
  · rename_i h
    rw [decode?_encode rfl, Option.some_inj]
    refine ⟨fun hm => ⟨hm, fun hs => h (.inl (hm ▸ hs)), fun hd => h (.inr (hm ▸ hd))⟩, And.left⟩

end QueueRelay.Url

/-
A URL of a plain scheme is read back from what is written for it.

`Canonical` says that every part of a URL is in the form that reading gives it.  Then each
mark that was put between two parts is the first one of its kind where the reader looks for
it: no part holds a character that ends it (`splitBefore_append`), and no part changes when it
is encoded once more.  `parse_render` puts the parts together in the order in which they are
read.
-/
import QueueRelay.Proofs.Url.Authority
import QueueRelay.Proofs.Url.Path

namespace QueueRelay.Url

variable {stop : Char → Bool} {c : Char} {s t scheme : List Char} {parts : List (List Char)}
  {a : Authority} {u : Url}

/-! ### Cutting a text -/

theorem splitBefore_append (hs : ∀ c ∈ s, stop c = false)
    (ht : ∀ c, t.head? = some c → stop c = true) : splitBefore stop (s ++ t) = (s, t) := by
  have hkeep : ∀ c ∈ s, (!stop c) = true := fun c hc => by rw [hs c hc, Bool.not_false]
  have hcut : t.takeWhile (!stop ·) = [] ∧ t.dropWhile (!stop ·) = t := by
    cases t with
    | nil => exact ⟨rfl, rfl⟩
    | cons c t => simp [ht c rfl]
  rw [splitBefore, List.takeWhile_append_of_pos hkeep, List.dropWhile_append_of_pos hkeep, hcut.1,
    hcut.2, List.append_nil]

/-! ### What stands after the slashes -/

/-- The URL of an authority and of the text after it. -/
def Authority.followedBy (scheme : List Char) (a : Authority) (s : List Char) : Url :=
  let (pathText, tail) := splitBefore (fun c => c == '?' || c == '#') s
  { scheme
    authority := some a
    path := if pathText.isEmpty then [] else readPath (· == '/') pathText
    query := (readTail inQuerySet tail).1
    fragment := (readTail inQuerySet tail).2 }

theorem readHierarchy_append {text rest : List Char}
    (htext : ∀ c ∈ text, c ≠ '/' ∧ c ≠ '?' ∧ c ≠ '#') (hat : text ≠ ['@'])
    (hrest : ∀ c, rest.head? = some c → c = '/' ∨ c = '?' ∨ c = '#') :
    readHierarchy .plain scheme (text ++ rest) =
      (readAuthority .plain (String.ofList scheme) text).bind fun (a, overhang) =>
        .ok (a.followedBy scheme (overhang ++ rest)) := by
  have hkind : (SchemeKind.plain != .plain) = false := rfl
  have hsplit : splitBefore (fun c => c == '/' || c == '?' || c == '#') (text ++ rest) =
      (text, rest) := by
    refine splitBefore_append (fun c hc => ?_) (fun c hc => ?_)
    · obtain ⟨hs, hq, hn⟩ := htext c hc
      simp [hs, hq, hn]
    · rcases hrest c hc with rfl | rfl | rfl <;> rfl
  rw [readHierarchy]
  simp only [hkind, Bool.false_and, Bool.or_false, hsplit, hat, decide_false, Bool.false_eq_true,
    if_false, Authority.followedBy, decide_true, Bool.and_true, if_true]
  rfl

/-! ### The whole text -/

/-- A scheme in lower case that has no rules of its own. -/
structure IsPlainScheme (scheme : List Char) : Prop where
  first : ∃ c ∈ scheme.head?, c.isAlpha = true
  member : ∀ c ∈ scheme, (c.isAlphanum || c == '+' || c == '-' || c == '.') = true
  lower : ∀ c ∈ scheme, c.toLower = c
  kind : schemeKind (String.ofList scheme) = .plain

theorem IsPlainScheme.splitScheme (h : IsPlainScheme scheme) :
    splitScheme (scheme ++ ':' :: t) = some (scheme, t) := by
  obtain ⟨c, hc, halpha⟩ := h.first
  obtain ⟨rest, rfl⟩ : ∃ rest, scheme = c :: rest := by
    cases scheme with
    | nil => cases hc
    | cons d rest =>
        cases hc
        exact ⟨rest, rfl⟩
  have hlower : (c :: rest).map Char.toLower = c :: rest :=
    (List.map_congr_left h.lower).trans (List.map_id _)
  rw [List.cons_append, Url.splitScheme, if_pos halpha, ← List.cons_append,
    List.dropWhile_append_of_pos h.member, List.takeWhile_append_of_pos h.member]
  simp [hlower]

/-- The characters of a text that mean something: all but controls and spaces at its ends and
line breaks and tabs within it. -/
def meaning (s : List Char) : List Char :=
  (((s.dropWhile fun c => c.toNat ≤ 0x20).reverse.dropWhile fun c => c.toNat ≤ 0x20).reverse).filter
    fun c => !isIgnored c

theorem parse_plain {text : String} (h : IsPlainScheme scheme)
    (ht : meaning text.toList = scheme ++ ':' :: '/' :: '/' :: t) :
    parse text = readHierarchy .plain scheme t := by
  have hs := h.splitScheme (t := '/' :: '/' :: t)
  rw [← ht, meaning] at hs
  rw [parse]
  simp only [hs, h.kind]

theorem meaning_eq_filter (hfirst : ∀ c, s.head? = some c → 0x20 < c.toNat)
    (hlast : ∀ c, s.getLast? = some c → 0x20 < c.toNat) :
    meaning s = s.filter fun c => !isIgnored c := by
  have keep : ∀ l : List Char, (∀ c, l.head? = some c → 0x20 < c.toNat) →
      (l.dropWhile fun c => c.toNat ≤ 0x20) = l := by
    intro l hl
    cases l with
    | nil => rfl
    | cons c l => exact List.dropWhile_cons_of_neg (by simpa using hl c rfl)
  have hback : ∀ c, s.reverse.head? = some c → 0x20 < c.toNat := fun c hc =>
    hlast c (by rwa [List.head?_reverse] at hc)
  rw [meaning, keep s hfirst, keep s.reverse hback, List.reverse_reverse]

theorem not_isIgnored (h : 0x20 < c.toNat) : (!isIgnored c) = true := by
  rw [Bool.not_eq_true', Bool.eq_false_iff]
  intro hi
  simp only [isIgnored, Bool.or_eq_true, beq_iff_eq] at hi
  rcases hi with (rfl | rfl) | rfl <;> exact absurd h (by decide)

theorem meaning_of_visible (h : ∀ c ∈ s, 0x20 < c.toNat) : meaning s = s := by
  rw [meaning_eq_filter (fun c hc => h c (List.mem_of_mem_head? hc))
    fun c hc => h c (List.mem_of_mem_getLast? hc)]
  exact List.filter_eq_self.mpr fun c hc => not_isIgnored (h c hc)

/-! ### URLs in the form that reading gives them -/

/-- A URL of a plain scheme whose parts are in the form that reading gives them. -/
structure Canonical (u : Url) : Prop where
  scheme : IsPlainScheme u.scheme
  authority : ∃ a, u.authority = some a ∧ a.Canonical (String.ofList u.scheme)
  path : ∃ parts, u.path = renderSegments parts ∧ ∀ part ∈ parts, IsSegment part
  query : ∀ query ∈ u.query, Written inQuerySet query
  fragment : ∀ fragment ∈ u.fragment, Written inFragmentSet fragment

/-- The query with its mark. -/
def queryText : Option (List Char) → List Char
  | some query => '?' :: query
  | none => []

/-- The fragment with its mark. -/
def fragmentText : Option (List Char) → List Char
  | some fragment => '#' :: fragment
  | none => []

theorem head?_fragmentText {fragment : Option (List Char)}
    (h : (fragmentText fragment).head? = some c) : c = '#' := by
  cases fragment with
  | none => cases h
  | some fragment => exact (Option.some.inj h).symm

theorem head?_tail {query fragment : Option (List Char)}
    (h : (queryText query ++ fragmentText fragment).head? = some c) : c = '?' ∨ c = '#' := by
  cases query with
  | none => exact .inr (head?_fragmentText h)
  | some query => exact .inl (Option.some.inj h).symm

theorem render_eq (u : Url) (h : u.authority = some a) :
    u.render.toList = u.scheme ++ ':' :: '/' :: '/' ::
      (a.render ++ (u.path ++ (queryText u.query ++ fragmentText u.fragment))) := by
  rw [render, String.toList_ofList, h]
  cases u.query <;> cases u.fragment <;> simp [queryText, fragmentText]

theorem readTail_render (hq : ∀ query ∈ u.query, Written inQuerySet query)
    (hf : ∀ fragment ∈ u.fragment, Written inFragmentSet fragment) :
    readTail inQuerySet (queryText u.query ++ fragmentText u.fragment) = (u.query, u.fragment) := by
  have hsplit : splitBefore (· == '#') (queryText u.query ++ fragmentText u.fragment) =
      (queryText u.query, fragmentText u.fragment) := by
    refine splitBefore_append (fun c hc => ?_) (fun c hc => ?_)
    · cases h : u.query with
      | none => simp [h, queryText] at hc
      | some query =>
          rw [h] at hc
          rcases List.mem_cons.mp hc with rfl | hm
          · rfl
          · exact beq_false_of_ne fun he => (hq query h).not_mem (by decide) (he ▸ hm)
    · exact beq_iff_eq.mpr (head?_fragmentText hc)
  rw [readTail, hsplit]
  cases h : u.query with
  | none =>
      cases h' : u.fragment with
      | none => rfl
      | some fragment => simp [queryText, fragmentText, encode_of_written (hf fragment h')]
  | some query =>
      have hq := encode_of_written (hq query h)
      cases h' : u.fragment with
      | none => simp [queryText, fragmentText, hq]
      | some fragment => simp [queryText, fragmentText, hq, encode_of_written (hf fragment h')]

/-- What follows an authority in the form that reading gives it is read back. -/
theorem followedBy_render (h : u.Canonical) (ha : u.authority = some a) :
    a.followedBy u.scheme (u.path ++ (queryText u.query ++ fragmentText u.fragment)) = u := by
  obtain ⟨parts, hpath, hparts⟩ := h.path
  have hsplit : splitBefore (fun c => c == '?' || c == '#')
      (u.path ++ (queryText u.query ++ fragmentText u.fragment)) =
      (u.path, queryText u.query ++ fragmentText u.fragment) := by
    refine splitBefore_append (fun c hc => ?_) (fun c hc => ?_)
    · rw [hpath] at hc
      obtain ⟨-, hq, hf⟩ := mem_renderSegments hparts hc
      simp [hq, hf]
    · rcases head?_tail hc with rfl | rfl <;> rfl
  have hread : (if u.path.isEmpty then [] else readPath (· == '/') u.path) = u.path := by
    rw [hpath]
    cases parts with
    | nil => rfl
    | cons part rest =>
        exact readPath_renderSegments (fun c => beq_iff_eq) hparts (List.cons_ne_nil _ _)
  simp only [Authority.followedBy, hsplit, hread, readTail_render h.query h.fragment, ← ha]

theorem IsPlainScheme.lt_toNat (h : IsPlainScheme scheme) (hc : c ∈ scheme) : 0x20 < c.toNat := by
  have none : ∀ n ≤ 0x20, let c := Char.ofNat n
      (c.isAlphanum || c == '+' || c == '-' || c == '.') = false := by decide
  refine Nat.lt_of_not_le fun hle => ?_
  have hn := none c.toNat hle
  rw [Char.ofNat_toNat] at hn
  exact Bool.false_ne_true (hn.symm.trans (h.member c hc))

theorem lt_of_mem_queryText {query : Option (List Char)}
    (hq : ∀ text ∈ query, Written inQuerySet text) (hc : c ∈ queryText query) : 0x20 < c.toNat := by
  cases query with
  | none => cases hc
  | some text =>
      rcases List.mem_cons.mp hc with rfl | hm
      · decide
      · exact (hq text rfl).lt_toNat coversBlanks_inQuerySet hm

theorem lt_of_mem_fragmentText {fragment : Option (List Char)}
    (hf : ∀ text ∈ fragment, Written inFragmentSet text) (hc : c ∈ fragmentText fragment) :
    0x20 < c.toNat := by
  cases fragment with
  | none => cases hc
  | some text =>
      rcases List.mem_cons.mp hc with rfl | hm
      · decide
      · exact (hf text rfl).lt_toNat coversBlanks_inFragmentSet hm

/-- No character of the text of such a URL is a control or a space. -/
theorem Canonical.lt_toNat (h : u.Canonical) (hc : c ∈ u.render.toList) : 0x20 < c.toNat := by
  obtain ⟨a, ha, hauth⟩ := h.authority
  obtain ⟨parts, hpath, hparts⟩ := h.path
  rw [u.render_eq ha, hpath] at hc
  simp only [List.mem_append, List.mem_cons] at hc
  rcases hc with hs | rfl | rfl | rfl | hr | hp | hq | hf
  · exact h.scheme.lt_toNat hs
  · decide
  · decide
  · decide
  · rcases hauth.mem_render hr with rfl | hb
    · decide
    · exact (not_isBoundary_iff.mp hb).1
  · exact (mem_renderSegments hparts hp).1
  · exact lt_of_mem_queryText h.query hq
  · exact lt_of_mem_fragmentText h.fragment hf

/-- A URL in the form that reading gives it is read back from its text. -/
theorem parse_render (h : u.Canonical) : parse u.render = .ok u := by
  obtain ⟨a, ha, hauth⟩ := h.authority
  obtain ⟨parts, hpath, hparts⟩ := h.path
  have hm : meaning u.render.toList = u.render.toList :=
    meaning_of_visible fun c hc => h.lt_toNat hc
  have htext : ∀ c ∈ a.render, c ≠ '/' ∧ c ≠ '?' ∧ c ≠ '#' := by
    intro c hc
    rcases hauth.mem_render hc with rfl | hb
    · decide
    · obtain ⟨-, hs, hq, hn, -⟩ := not_isBoundary_iff.mp hb
      exact ⟨hs, hq, hn⟩
  have hrest : ∀ c, (u.path ++ (queryText u.query ++ fragmentText u.fragment)).head? = some c →
      c = '/' ∨ c = '?' ∨ c = '#' := by
    intro c hc
    rw [hpath] at hc
    cases parts with
    | nil => exact .inr (head?_tail hc)
    | cons part rest => exact .inl (Option.some.inj hc).symm
  rw [parse_plain h.scheme (hm.trans (u.render_eq ha)),
    readHierarchy_append htext hauth.render_ne_at hrest, readAuthority_render hauth]
  exact congrArg Except.ok (followedBy_render h ha)

end QueueRelay.Url

/-
What is read from a text that was written.

Reading follows writing: there is one lemma for each written form, which reads it in front of
any text that may stand behind it.  A text is read character by character, a whole number by
its digits, and a list or a record item by item.  Only a comma or a closing bracket stands
behind a value inside a document (`Ends`), so digits end where they were written to end.

The reader's fuel is never short: each lemma asks for more than the length of what is read, and
every bracket, comma and colon on the way is one character less to read.

What comes out is the tree of the document (`parse?_render`).  Finite doubles are left out: they
are read from their digits and a power of ten, each rounded on its own, and need not come back.
-/
import Mathlib.Data.List.TakeWhile
import QueueRelay.Json.Codec

namespace QueueRelay.Json

variable {c : Char} {s rest : List Char} {v : Value} {n : Nat}

/-! ### Texts -/

theorem textBody_unit {a b c d : Char} (h : unit? a b c d = some n) (hn : n < 0xD800) :
    textBody ('\\' :: 'u' :: a :: b :: c :: d :: rest) =
      (textBody rest).map fun p => (Char.ofNat n :: p.1, p.2) := by
  have hlow : ¬ 0xD800 ≤ n := Nat.not_le_of_lt hn
  have hlow' : ¬ 0xDC00 ≤ n := fun hle => hlow (Nat.le_trans (by decide) hle)
  rw [textBody.eq_def]
  split
  case h_3 heq | h_4 heq =>
    cases heq
    simp only [h, hlow, hlow', false_and, if_false, Option.bind_eq_bind, Option.bind_some]
    cases textBody _ <;> rfl
  case h_5 hne heq =>
    cases heq
    exact (hne _ _ _ _ _ rfl rfl).elim
  case h_6 hne heq =>
    cases heq
    exact (hne _ _ rfl rfl).elim
  case h_1 heq => cases heq
  case h_2 heq => exact absurd (List.cons.inj heq).1 (by decide)

theorem control_digits : ∀ n < 32, ∃ a b c d, fourDigits n = [a, b, c, d] ∧
    unit? a b c d = some n := by
  have hdigits : ∀ n < 32, fourDigits n = ['0', '0', (n / 16).digitChar, (n % 16).digitChar] ∧
      unit? '0' '0' (n / 16).digitChar (n % 16).digitChar = some n := by decide
  exact fun n hn => ⟨_, _, _, _, hdigits n hn⟩

theorem textBody_escaped {a : Char} (h : escaped? a = some c) (ha : a ≠ 'u') :
    textBody ('\\' :: a :: rest) = (textBody rest).map fun p => (c :: p.1, p.2) := by
  rw [textBody, h, Option.bind_eq_bind, Option.bind_some]
  · cases textBody rest <;> rfl
  · exact fun _ _ _ _ _ _ _ _ _ hu _ => ha hu
  · exact fun _ _ _ _ _ hu _ => ha hu

theorem textBody_plain (hq : c ≠ '"') (hb : c ≠ '\\') (hc : ¬ c.toNat < 32) :
    textBody (c :: rest) = (textBody rest).map fun p => (c :: p.1, p.2) := by
  rw [textBody, if_neg hc]
  · cases textBody rest <;> rfl
  · exact hq
  · exact fun _ _ _ _ _ _ _ _ _ h _ => hb h
  · exact fun _ _ _ _ _ h _ => hb h
  · exact fun _ _ h _ => hb h

/-- A written character is read back, whatever stands behind it. -/
theorem textBody_escape (c : Char) (rest : List Char) :
    textBody (escape c ++ rest) = (textBody rest).map fun p => (c :: p.1, p.2) := by
  have hletter : ∀ a, escaped? a = some c → a ≠ 'u' → textBody (['\\', a] ++ rest) =
      (textBody rest).map fun p => (c :: p.1, p.2) := fun a h ha => textBody_escaped h ha
  unfold escape
  split
  · subst c; exact hletter '"' rfl (by decide)
  split
  · subst c; exact hletter '\\' rfl (by decide)
  split
  · subst c; exact hletter 'n' rfl (by decide)
  split
  · subst c; exact hletter 'r' rfl (by decide)
  split
  · subst c; exact hletter 't' rfl (by decide)
  split
  · subst c; exact hletter 'b' rfl (by decide)
  split
  · subst c; exact hletter 'f' rfl (by decide)
  split
  · rename_i hc
    obtain ⟨x, y, z, w, hdigits, hunit⟩ := control_digits c.toNat hc
    rw [hdigits]
    have hread : textBody ('\\' :: 'u' :: x :: y :: z :: w :: rest) = _ :=
      textBody_unit hunit (Nat.lt_trans hc (by decide))
    rw [Char.ofNat_toNat] at hread
    exact hread
  · exact textBody_plain ‹_› ‹_› ‹_›

/-- A written text is read up to its closing quote. -/
theorem textBody_flatMap_escape (s rest : List Char) :
    textBody (s.flatMap escape ++ '"' :: rest) = some (s, rest) := by
  induction s with
  | nil => rw [List.flatMap_nil, List.nil_append, textBody]
  | cons c s ih => rw [List.flatMap_cons, List.append_assoc, textBody_escape, ih, Option.map_some]

theorem toList_renderText (s : String) :
    (renderText s).toList = '"' :: (s.toList.flatMap escape ++ ['"']) :=
  String.toList_ofList

/-! ### Numbers -/

/-- What stands behind a written value: nothing, a comma or a closing bracket. -/
def Ends (rest : List Char) : Prop := ∀ c ∈ rest.head?, c = ',' ∨ c = ']' ∨ c = '\x7d'

theorem Ends.head (h : Ends (c :: rest)) : c = ',' ∨ c = ']' ∨ c = '\x7d' := h c rfl

theorem ends_cons (h : c = ',' ∨ c = ']' ∨ c = '\x7d') (rest : List Char) : Ends (c :: rest) := by
  rintro d ⟨⟩
  exact h

theorem digitsValue_toDigits (n : Nat) : digitsValue (Nat.toDigits 10 n) = n := by
  refine Eq.trans ?_ (Nat.ofDigitChars_ten_toDigits (n := n))
  rw [Nat.ofDigitChars_eq_foldl, digitsValue]
  exact congrArg (fun f => List.foldl f 0 _) (funext fun n => funext fun c => by
    rw [Nat.mul_comm]; rfl)

theorem toDigits_eq_cons (n : Nat) :
    ∃ d digits, Nat.toDigits 10 n = d :: digits ∧ d.isDigit = true := by
  obtain ⟨d, digits, hd⟩ := List.exists_cons_of_ne_nil (Nat.toDigits_ne_nil (n := n) (b := 10))
  have hm : d ∈ Nat.toDigits 10 n := hd ▸ List.mem_cons_self
  exact ⟨d, digits, hd, Nat.isDigit_of_mem_toDigits (by decide) (by decide) hm⟩

/-- Only the number zero begins with a zero. -/
theorem eq_zero_of_toDigits_head (n : Nat) (h : (Nat.toDigits 10 n).head? = some '0') :
    n = 0 := by
  induction n using Nat.strong_induction_on with
  | _ n ih =>
      rw [Nat.toDigits_eq_if (by decide)] at h
      split at h
      · exact Nat.digitChar_eq_zero.1 (Option.some.inj h)
      · rename_i hn
        obtain ⟨d, digits, hd, -⟩ := toDigits_eq_cons (n / 10)
        rw [hd] at h
        have hz : n / 10 = 0 := ih (n / 10) (by omega) (hd ▸ h)
        omega

theorem Ends.digits (h : Ends rest) (hs : ∀ c ∈ s, c.isDigit = true) :
    (s ++ rest).takeWhile Char.isDigit = s ∧ (s ++ rest).dropWhile Char.isDigit = rest := by
  rw [List.takeWhile_append_of_pos hs, List.dropWhile_append_of_pos hs]
  cases rest with
  | nil => simp
  | cons c rest =>
      have hc : c.isDigit = false := by
        rcases h.head with rfl | rfl | rfl <;> rfl
      simp [hc]

/-- Behind a whole number there are no decimals and no exponent. -/
theorem Ends.whole (h : Ends rest) :
    fraction? rest = some (none, rest) ∧ exponent? rest = some (none, rest) := by
  cases rest with
  | nil => exact ⟨rfl, rfl⟩
  | cons c rest => rcases h.head with rfl | rfl | rfl <;> exact ⟨rfl, rfl⟩

/-- What is read from the digits of a whole number. -/
theorem unsigned?_toDigits (negative : Bool) (n : Nat) (hr : Ends rest) :
    unsigned? negative (Nat.toDigits 10 n ++ rest) =
      some (numberOf negative (Nat.toDigits 10 n) none none, rest) := by
  have hdigit : ∀ c ∈ Nat.toDigits 10 n, c.isDigit = true := fun c hc =>
    Nat.isDigit_of_mem_toDigits (by decide) (by decide) hc
  obtain ⟨htake, hdrop⟩ := hr.digits hdigit
  have hwhole : ((Nat.toDigits 10 n).isEmpty || ((Nat.toDigits 10 n).head? = some '0' &&
      1 < (Nat.toDigits 10 n).length : Bool)) = false := by
    rw [Bool.or_eq_false_iff, List.isEmpty_eq_false_iff, Bool.and_eq_false_imp]
    refine ⟨Nat.toDigits_ne_nil, fun hz => ?_⟩
    rw [eq_zero_of_toDigits_head n (of_decide_eq_true hz)]
    decide
  rw [unsigned?]
  simp only [htake, hdrop, hwhole, hr.whole.1, hr.whole.2, Bool.false_eq_true, if_false,
    Option.bind_eq_bind, Option.bind_some]
  rfl

/-- A whole number of 64 bits is read back. -/
theorem number?_toString {i : Int} (h : -0x8000000000000000 ≤ i ∧ i < 0x10000000000000000)
    (hr : Ends rest) : number? ((toString i).toList ++ rest) = some (.int i, rest) := by
  obtain ⟨hlow, hhigh⟩ := h
  rw [Int.toString_eq_repr, Int.repr_eq_if]
  split
  · have hread := unsigned?_toDigits false i.toNat hr
    have hfits : i.toNat ≤ 0xFFFFFFFFFFFFFFFF := by omega
    obtain ⟨d, digits, hd, hdigit⟩ := toDigits_eq_cons i.toNat
    have hunsigned : number? (d :: digits ++ rest) = unsigned? false (d :: digits ++ rest) := by
      rw [List.cons_append, number?]
      rintro s hs
      exact absurd hdigit ((List.cons.inj hs).1 ▸ by decide)
    rw [Nat.toList_repr, hd, hunsigned, ← hd, hread]
    simp [numberOf, digitsValue_toDigits, hfits]
    omega
  · have hread := unsigned?_toDigits true (-i).toNat hr
    have hpos : 0 < (-i).toNat := by omega
    have hfits : (-i).toNat ≤ 0x8000000000000000 := by omega
    rw [String.toList_append, Nat.toList_repr]
    refine hread.trans ?_
    simp [numberOf, digitsValue_toDigits, hpos, hfits]
    omega

/-- A whole number begins with a digit or a minus sign. -/
theorem toString_eq_cons (i : Int) :
    ∃ d t, (toString i).toList = d :: t ∧ (d = '-' ∨ d.isDigit = true) := by
  rw [Int.toString_eq_repr, Int.repr_eq_if]
  split
  · obtain ⟨d, digits, hd, hdigit⟩ := toDigits_eq_cons i.toNat
    exact ⟨d, digits, Nat.toList_repr.trans hd, .inr hdigit⟩
  · exact ⟨'-', _, String.toList_append, .inl rfl⟩

/-! ### Values, items and fields one by one -/

theorem skipSpace_cons (h : isSpace c = false) : skipSpace (c :: s) = c :: s :=
  List.dropWhile_cons_of_neg (by simp [h])

theorem ne_of_number {d : Char} (hd : d = '-' ∨ d.isDigit = true) (hc : c ≠ '-')
    (hdigit : c.isDigit = false) : d ≠ c := by
  rintro rfl
  rcases hd with rfl | hd
  · exact hc rfl
  · exact absurd hd (by simp [hdigit])

theorem isSpace_of_number {d : Char} (hd : d = '-' ∨ d.isDigit = true) : isSpace d = false := by
  simp [isSpace, ne_of_number hd]

theorem value?_number {d : Char} (hd : d = '-' ∨ d.isDigit = true) :
    value? (n + 1) (d :: s) = number? (d :: s) := by
  have hne : ∀ c : Char, c ≠ '-' → c.isDigit = false → d ≠ c := fun c => ne_of_number hd
  have hword : word? (d :: s) = none := by
    simp [word?, List.isPrefixOf, (hne 'n' (by decide) rfl).symm, (hne 't' (by decide) rfl).symm,
      (hne 'f' (by decide) rfl).symm]
  rw [value?, skipSpace_cons (isSpace_of_number hd)]
  split
  case h_4 heq =>
    rw [hword]
    rfl
  all_goals
    rename_i heq
    exact absurd (List.cons.inj heq).1 (hne _ (by decide) rfl)

theorem items?_last (h : value? n s = some (v, ']' :: rest)) :
    items? (n + 1) s = some ([v], rest) := by
  rw [items?, h]
  rfl

theorem items?_more {items : List Value} {s' : List Char} (h : value? n s = some (v, ',' :: s'))
    (hi : items? n s' = some (items, rest)) : items? (n + 1) s = some (v :: items, rest) := by
  rw [items?, h]
  show (items? n s').bind _ = _
  rw [hi]
  rfl

theorem fields?_last {name s' : List Char} (hb : textBody s = some (name, ':' :: s'))
    (h : value? n s' = some (v, '\x7d' :: rest)) :
    fields? (n + 1) ('"' :: s) = some ([(String.ofList name, v)], rest) := by
  rw [fields?, skipSpace_cons rfl]
  show (textBody s).bind _ = _
  rw [hb]
  show (value? n s').bind _ = _
  rw [h]
  rfl

theorem fields?_more {name s' s'' : List Char} {fields : List (String × Value)}
    (hb : textBody s = some (name, ':' :: s')) (h : value? n s' = some (v, ',' :: s''))
    (hf : fields? n s'' = some (fields, rest)) :
    fields? (n + 1) ('"' :: s) = some ((String.ofList name, v) :: fields, rest) := by
  rw [fields?, skipSpace_cons rfl]
  show (textBody s).bind _ = _
  rw [hb]
  show (value? n s').bind _ = _
  rw [h]
  show (fields? n s'').bind _ = _
  rw [hf]
  rfl

theorem value?_list {items : List Value} (hs : (skipSpace s).head? ≠ some ']')
    (h : items? n s = some (items, rest)) :
    value? (n + 1) ('[' :: s) = some (.list items, rest) := by
  rw [value?, skipSpace_cons rfl]
  split
  case h_2 heq =>
    cases heq
    split
    · rename_i heq
      exact absurd (heq ▸ rfl) hs
    · rw [h]
      rfl
  case h_4 _ hne _ => exact (hne _ rfl).elim
  case h_1 heq | h_3 heq => exact absurd (List.cons.inj heq).1 (by decide)

theorem value?_record {fields : List (String × Value)} (hs : (skipSpace s).head? ≠ some '\x7d')
    (h : fields? n s = some (fields, rest)) :
    value? (n + 1) ('\x7b' :: s) = some (.record fields, rest) := by
  rw [value?, skipSpace_cons rfl]
  split
  case h_3 heq =>
    cases heq
    split
    · rename_i heq
      exact absurd (heq ▸ rfl) hs
    · rw [h]
      rfl
  case h_4 _ _ hne => exact (hne _ rfl).elim
  case h_1 heq | h_2 heq => exact absurd (List.cons.inj heq).1 (by decide)

/-! ### Values -/

/-- No digit of the value is rounded when its text is read: no double in it is finite. -/
def Unrounded : Value → Prop := Formed fun x => x.isFinite = false

theorem isNaN_or_isInf_of_not_isFinite {x : Float} (h : x.isFinite = false) :
    (x.isNaN || x.isInf) = true := by
  change x.toModel.unpack.isFinite = false at h
  show (x.toModel.unpack.isNaN || x.toModel.unpack.isInf) = true
  revert h
  cases x.toModel.unpack with
  | notANumber | infinity => exact fun _ => rfl
  | zero | finite => intro h; cases h

theorem toList_render_list (items : List Value) : (render (.list items)).toList =
    '[' :: ((commaSeparated (renderItems items)).toList ++ [']']) := by
  rw [render, String.toList_append, String.toList_append]
  rfl

theorem toList_render_record (fields : List (String × Value)) : (render (.record fields)).toList =
    '\x7b' :: ((commaSeparated (renderFields fields)).toList ++ ['\x7d']) := by
  rw [render, String.toList_append, String.toList_append]
  rfl

theorem toList_field (name : String) (v : Value) : (renderText name ++ ":" ++ render v).toList =
    '"' :: (name.toList.flatMap escape ++ '"' :: ':' :: (render v).toList) := by
  rw [String.toList_append, String.toList_append, toList_renderText]
  simp

theorem toList_commaSeparated (s s' : String) (texts : List String) :
    (commaSeparated (s :: s' :: texts)).toList =
      s.toList ++ ',' :: (commaSeparated (s' :: texts)).toList := by
  rw [commaSeparated, String.toList_append, String.toList_append, List.append_assoc]
  · rfl
  · intro h
    cases h

/-- The text of a value begins with no blank and no closing bracket. -/
theorem render_eq_cons (h : Unrounded v) :
    ∃ c t, (render v).toList = c :: t ∧ isSpace c = false ∧ c ≠ ']' := by
  cases v with
  | null => exact ⟨_, _, rfl, rfl, by decide⟩
  | bool b => cases b <;> exact ⟨_, _, rfl, rfl, by decide⟩
  | int i =>
      obtain ⟨d, t, ht, hd⟩ := toString_eq_cons i
      rw [render]
      exact ⟨d, t, ht, isSpace_of_number hd, ne_of_number hd (by decide) rfl⟩
  | float x =>
      rw [Unrounded, Formed] at h
      rw [render, renderFloat, if_pos (isNaN_or_isInf_of_not_isFinite h)]
      exact ⟨_, _, rfl, rfl, by decide⟩
  | text s => exact ⟨_, _, toList_renderText s, rfl, by decide⟩
  | list items => exact ⟨_, _, toList_render_list items, rfl, by decide⟩
  | record fields => exact ⟨_, _, toList_render_record fields, rfl, by decide⟩

/-- The text of items begins as the text of the first. -/
theorem commaSeparated_eq_cons {s : String} {t : List Char} (h : s.toList = c :: t)
    (texts : List String) : ∃ t', (commaSeparated (s :: texts)).toList = c :: t' := by
  cases texts with
  | nil => exact ⟨t, h⟩
  | cons s' texts =>
      rw [toList_commaSeparated, h]
      exact ⟨_, rfl⟩

-- Each of the three is by induction on the reader's fuel, which the reader spends in the same
-- places: a value hands one less to its items, and an item one less to the items behind it.
mutual

/-- The text of a value is read up to what stands behind it. -/
theorem value?_render {n : Nat} {v : Value} {rest : List Char} (h : Unrounded v) (hr : Ends rest)
    (hn : (render v).toList.length < n) :
    value? n ((render v).toList ++ rest) = some (stored v, rest) := by
  cases n with
  | zero => omega
  | succ n =>
      cases v with
      | null =>
          rw [value?]
          rfl
      | bool b =>
          rw [value?]
          cases b <;> rfl
      | int i =>
          obtain ⟨d, t, ht, hd⟩ := toString_eq_cons i
          rw [render, ht, List.cons_append, value?_number hd, ← List.cons_append, ← ht]
          exact number?_toString h hr
      | float x =>
          have hx := isNaN_or_isInf_of_not_isFinite h
          rw [render, renderFloat, if_pos hx, stored, if_pos hx, value?]
          rfl
      | text s =>
          rw [render, toList_renderText, List.cons_append, List.append_assoc, value?,
            skipSpace_cons rfl]
          show (textBody (s.toList.flatMap escape ++ '"' :: rest)).bind _ = _
          rw [textBody_flatMap_escape]
          simp [stored]
      | list items =>
          rw [Unrounded, Formed] at h
          rw [toList_render_list] at hn ⊢
          simp only [List.length_cons, List.length_append, List.length_nil] at hn
          cases items with
          | nil =>
              rw [value?]
              rfl
          | cons v items =>
              have hi := items?_render (n := n) rest h (by omega)
              obtain ⟨c, t, ht, hspace, hc⟩ := render_eq_cons h.1
              obtain ⟨t', ht'⟩ := commaSeparated_eq_cons ht (renderItems items)
              have hopen : (skipSpace ((commaSeparated (renderItems (v :: items))).toList ++
                  ']' :: rest)).head? ≠ some ']' := by
                rw [renderItems, ht', List.cons_append, skipSpace_cons hspace]
                simpa using hc
              rw [List.cons_append, List.append_assoc, List.singleton_append, value?_list hopen hi,
                stored]
      | record fields =>
          rw [Unrounded, Formed] at h
          rw [toList_render_record] at hn ⊢
          simp only [List.length_cons, List.length_append, List.length_nil] at hn
          cases fields with
          | nil =>
              rw [value?]
              rfl
          | cons f fields =>
              obtain ⟨name, v⟩ := f
              have hf := fields?_render (n := n) rest h.2 (by omega)
              obtain ⟨t', ht'⟩ :=
                commaSeparated_eq_cons (toList_field name v) (renderFields fields)
              have hopen : (skipSpace ((commaSeparated (renderFields ((name, v) :: fields))).toList
                  ++ '\x7d' :: rest)).head? ≠ some '\x7d' := by
                rw [renderFields, ht', List.cons_append, skipSpace_cons rfl]
                simp
              rw [List.cons_append, List.append_assoc, List.singleton_append,
                value?_record hopen hf, stored]

/-- Items are read one by one, up to the closing bracket. -/
theorem items?_render {n : Nat} {v : Value} {items : List Value} (rest : List Char)
    (h : ItemsFormed (·.isFinite = false) (v :: items))
    (hn : (commaSeparated (renderItems (v :: items))).toList.length + 1 < n) :
    items? n ((commaSeparated (renderItems (v :: items))).toList ++ ']' :: rest) =
      some (storedItems (v :: items), rest) := by
  cases n with
  | zero => omega
  | succ n =>
      cases items with
      | nil =>
          simp only [renderItems, commaSeparated] at hn ⊢
          have hv := value?_render (n := n) h.1 (ends_cons (.inr (.inl rfl)) rest) (by omega)
          rw [items?_last hv, storedItems, storedItems]
      | cons w items =>
          simp only [renderItems, toList_commaSeparated, List.length_cons,
            List.length_append] at hn ⊢
          have hi := items?_render (n := n) rest h.2 (by rw [renderItems]; omega)
          rw [List.append_assoc, List.cons_append, storedItems]
          exact items?_more (value?_render h.1 (ends_cons (.inl rfl) _) (by omega)) hi

/-- Fields are read one by one, up to the closing brace. -/
theorem fields?_render {n : Nat} {name : String} {v : Value} {fields : List (String × Value)}
    (rest : List Char) (h : FieldsFormed (·.isFinite = false) ((name, v) :: fields))
    (hn : (commaSeparated (renderFields ((name, v) :: fields))).toList.length + 1 < n) :
    fields? n ((commaSeparated (renderFields ((name, v) :: fields))).toList ++ '\x7d' :: rest) =
      some (storedFields ((name, v) :: fields), rest) := by
  cases n with
  | zero => omega
  | succ n =>
      cases fields with
      | nil =>
          simp only [renderFields, commaSeparated, toList_field, List.length_cons,
            List.length_append] at hn ⊢
          have hv := value?_render (n := n) h.1 (ends_cons (.inr (.inr rfl)) rest) (by omega)
          rw [List.cons_append, List.append_assoc, List.cons_append, List.cons_append,
            fields?_last (textBody_flatMap_escape _ _) hv, String.ofList_toList, storedFields,
            storedFields]
      | cons f fields =>
          obtain ⟨name', w⟩ := f
          have hf := fields?_render (n := n) rest h.2
          simp only [renderFields, toList_commaSeparated, toList_field, List.length_cons,
            List.length_append, List.cons_append, List.append_assoc] at hn hf ⊢
          have hv := fun s => value?_render (n := n) h.1 (ends_cons (.inl rfl) s) (by omega)
          rw [storedFields, fields?_more (textBody_flatMap_escape _ _) (hv _) (hf (by omega)),
            String.ofList_toList]

end

/-- **The text of a value is read as the tree of its document.** -/
theorem parse?_render (h : Unrounded v) : parse? (render v) = some (stored v) := by
  have hend : Ends [] := by simp [Ends]
  have hread := value?_render (n := (render v).toList.length + 1) h hend (Nat.lt_succ_self _)
  rw [List.append_nil] at hread
  rw [parse?]
  simp only [hread]
  rfl

/-- A text gives back what it was written for, if no double is in it. -/
theorem texts_keeps (h : Expressible v) (hu : Unrounded v) : texts.Keeps v :=
  (parse?_render hu).trans (congrArg some (stored_eq_self h))

end QueueRelay.Json

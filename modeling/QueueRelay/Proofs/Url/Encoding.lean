/-
Percent-encoding and its reading.

How much of a text comes back depends on one thing: whether `%` itself is encoded.  Where it
is, as in a segment of a path, decoding gives every text back (`decodeBytes_encode`).  Where
it is not, as in a user name and in a password, encoding leaves the escapes that a text
already holds as they are, so that decoding reads those too: it gives back just the texts
that hold none (`Spares.decode?_encode_iff`).

`Written` is what an encoded text is: nothing in it would be encoded again.  Sets grow from
one place to the next, so a text written for one place is written for every place that
encodes less.
-/
import Mathlib.Data.List.Infix
import QueueRelay.Url.Encoding

namespace QueueRelay.Url

variable {set set' : Char → Bool} {a b c : Char} {s t : List Char}

/-! ### Bytes of a text -/

/-- The bytes of a text. -/
def utf8 (s : List Char) : List UInt8 := s.flatMap String.utf8EncodeChar

@[simp] theorem utf8_nil : utf8 [] = [] := rfl

@[simp] theorem utf8_cons : utf8 (c :: s) = String.utf8EncodeChar c ++ utf8 s := rfl

theorem length_utf8EncodeChar_pos : 0 < (String.utf8EncodeChar c).length := by
  rw [String.length_utf8EncodeChar]
  exact c.utf8Size_pos

theorem toList_loop (bs : ByteArray) (i : Nat) (read : List UInt8) :
    ByteArray.toList.loop bs i read = read.reverse ++ bs.data.toList.drop i := by
  rw [ByteArray.toList.loop.eq_1]
  split
  · rename_i hi
    have hlt : i < bs.data.toList.length := hi
    have hget : bs.get! i = bs.data.toList[i] := getElem!_pos bs.data i hi
    rw [toList_loop bs (i + 1), List.drop_eq_getElem_cons hlt, hget, List.reverse_cons,
      List.append_assoc, List.singleton_append]
  · rename_i hi
    rw [List.drop_eq_nil_of_le (Nat.le_of_not_lt hi), List.append_nil]
termination_by bs.size - i

theorem toUTF8_singleton : (String.singleton c).toUTF8.toList = String.utf8EncodeChar c := by
  have hl : (String.singleton c).toUTF8.toList = (String.singleton c).toUTF8.data.toList :=
    toList_loop _ 0 []
  rw [hl, String.toUTF8_eq_toByteArray, String.toByteArray_singleton, List.utf8Encode_singleton,
    List.toList_data_toByteArray]

theorem fromUTF8?_eq_some_iff {bytes : ByteArray} {text : String} :
    String.fromUTF8? bytes = some text ↔ text.toByteArray = bytes := by
  constructor
  · intro h
    obtain ⟨hv, ht⟩ := Option.dite_none_right_eq_some.mp h
    rw [← Option.some.inj ht]
    rfl
  · intro h
    have hv : bytes.IsValidUTF8 := h ▸ text.isValidUTF8
    have ht : String.fromUTF8 bytes hv = text := String.toByteArray_inj.mp h.symm
    exact (dif_pos hv).trans (congrArg some ht)

/-- What an encoded text stands for is the text whose bytes it stands for. -/
theorem decode?_eq_some_iff : decode? s = some t ↔ decodeBytes s = utf8 t := by
  have hb : t.utf8Encode = ⟨(decodeBytes s).toArray⟩ ↔ decodeBytes s = utf8 t := by
    refine ⟨fun h => ?_, fun h => ?_⟩
    · have hd : t.utf8Encode.data.toList = decodeBytes s := by rw [h]
      exact hd.symm.trans List.toList_data_toByteArray
    · refine ByteArray.ext ?_
      rw [h]
      exact List.data_toByteArray
  rw [← hb]
  constructor
  · intro hd
    obtain ⟨text, ht, rfl⟩ := Option.map_eq_some_iff.mp hd
    exact String.utf8Encode_toList.trans (fromUTF8?_eq_some_iff.mp ht)
  · intro he
    refine Option.map_eq_some_iff.mpr ⟨String.ofList t, ?_, String.toList_ofList⟩
    exact fromUTF8?_eq_some_iff.mpr (String.toByteArray_ofList.trans he)

/-! ### Hexadecimal digits -/

/-- A closed check of some characters looks at them alone and not at all characters there are. -/
theorem forall_mem_of_all {l : List Char} {p : Char → Prop} [DecidablePred p]
    (h : (l.all fun c => decide (p c)) = true) : ∀ c ∈ l, p c :=
  fun c hc => of_decide_eq_true (List.all_eq_true.mp h c hc)

/-- The hexadecimal digits. -/
def hexDigits : List Char := "0123456789abcdefABCDEF".toList

theorem mem_hexDigits (h : (hexValue? c).isSome) : c ∈ hexDigits := by
  have between : ∀ lo hi : Nat, lo ≤ c.toNat → c.toNat ≤ hi →
      (∀ n ∈ List.range' lo (hi + 1 - lo), Char.ofNat n ∈ hexDigits) → c ∈ hexDigits :=
    fun lo hi hlo hhi hall =>
      Char.ofNat_toNat c ▸ hall c.toNat (List.mem_range'_1.mpr ⟨hlo, by omega⟩)
  unfold hexValue? at h
  split at h
  · rename_i hc
    exact between 48 57 hc.1 hc.2 (by decide)
  split at h
  · rename_i hc
    exact between 97 102 hc.1 hc.2 (by decide)
  split at h
  · rename_i hc
    exact between 65 70 hc.1 hc.2 (by decide)
  · cases h

/-- The characters that escapes are made of. -/
def escapeChars : List Char := '%' :: hexDigits

theorem mem_escapeChars (h : (hexValue? c).isSome) : c ∈ escapeChars :=
  List.mem_cons_of_mem '%' (mem_hexDigits h)

theorem ascii_of_escapeChars : ∀ c ∈ escapeChars, c.toNat < 0x80 :=
  forall_mem_of_all (by decide)

theorem hexValue?_upperHexDigit {n : Nat} (h : n < 16) : hexValue? (upperHexDigit n) = some n := by
  have all : ∀ n < 16, hexValue? (upperHexDigit n) = some n := by decide
  exact all n h

theorem isSome_upperHexDigit {n : Nat} (h : n < 16) : (hexValue? (upperHexDigit n)).isSome := by
  rw [hexValue?_upperHexDigit h, Option.isSome_some]

theorem hexValue?_lt {n : Nat} (h : hexValue? c = some n) : n < 16 := by
  have all : ∀ d ∈ hexDigits, ∀ n ∈ hexValue? d, n < 16 := forall_mem_of_all (by decide)
  exact all c (mem_hexDigits (Option.isSome_of_eq_some h)) n h

/-! ### Decoding -/

/-- A text that begins with an escape: `%` and two hexadecimal digits. -/
structure Escapes (s : List Char) (a b : Char) (rest : List Char) : Prop where
  text : s = '%' :: a :: b :: rest
  high : (hexValue? a).isSome
  low : (hexValue? b).isSome

/-- The text holds an escape. -/
def HasEscape (s : List Char) : Prop := ∃ t a b rest, t <:+ s ∧ Escapes t a b rest

theorem hasEscape_cons_iff :
    HasEscape (c :: s) ↔ (∃ a b rest, Escapes (c :: s) a b rest) ∨ HasEscape s := by
  constructor
  · rintro ⟨t, a, b, rest, ht, he⟩
    rcases List.suffix_cons_iff.mp ht with rfl | ht
    · exact .inl ⟨a, b, rest, he⟩
    · exact .inr ⟨t, a, b, rest, ht, he⟩
  · rintro (⟨a, b, rest, he⟩ | ⟨t, a, b, rest, ht, he⟩)
    · exact ⟨c :: s, a, b, rest, List.suffix_rfl, he⟩
    · exact ⟨t, a, b, rest, ht.trans (List.suffix_cons c s), he⟩

theorem decodeBytes_escaped {x y : Nat} (ha : hexValue? a = some x) (hb : hexValue? b = some y) :
    decodeBytes ('%' :: a :: b :: s) = (x * 16 + y).toUInt8 :: decodeBytes s := by
  simp only [decodeBytes, ha, hb]

/-- A character that begins no escape stands for itself. -/
theorem decodeBytes_copied (h : ∀ a b rest, ¬ Escapes (c :: s) a b rest) :
    decodeBytes (c :: s) = String.utf8EncodeChar c ++ decodeBytes s := by
  by_cases hc : ∃ a b rest, c = '%' ∧ s = a :: b :: rest
  · obtain ⟨a, b, rest, rfl, rfl⟩ := hc
    simp only [decodeBytes]
    split
    · rename_i ha hb
      exact absurd ⟨rfl, Option.isSome_of_eq_some ha, Option.isSome_of_eq_some hb⟩ (h a b rest)
    · rfl
  · rw [decodeBytes, toUTF8_singleton]
    rintro a b rest rfl rfl
    exact hc ⟨a, b, rest, rfl, rfl⟩

theorem not_escapes (h : c ≠ '%') (a b : Char) (rest : List Char) : ¬ Escapes (c :: s) a b rest :=
  fun he => h (List.cons.inj he.text).1

/-- Texts are decoded from left to right: an escape as a whole, any other character alone. -/
theorem decode_induction {motive : List Char → Prop} (nil : motive [])
    (escaped : ∀ a b rest x y, hexValue? a = some x → hexValue? b = some y → motive rest →
      motive ('%' :: a :: b :: rest))
    (copied : ∀ c rest, (∀ a b after, ¬ Escapes (c :: rest) a b after) → motive rest →
      motive (c :: rest)) (s : List Char) : motive s := by
  fun_induction decodeBytes s with
  | case1 => exact nil
  | case2 a b rest x y hy hx ih => exact escaped a b rest x y hx hy ih
  | case3 a b rest hn ih =>
      refine copied '%' (a :: b :: rest) (fun _ _ _ he => ?_) ih
      obtain ⟨ht, ha, hb⟩ := he
      cases ht
      obtain ⟨x, hx⟩ := Option.isSome_iff_exists.mp ha
      obtain ⟨y, hy⟩ := Option.isSome_iff_exists.mp hb
      exact hn x y hx hy
  | case4 c rest hn ih =>
      refine copied c rest (fun a b after he => ?_) ih
      obtain ⟨hc, hr⟩ := List.cons.inj he.text
      exact hn a b after hc hr

/-- An escape is longer than what it stands for. -/
theorem length_decodeBytes_le (s : List Char) : (decodeBytes s).length ≤ (utf8 s).length := by
  induction s using decode_induction with
  | nil => exact Nat.le_refl _
  | escaped a b rest x y hx hy ih =>
      have ha := length_utf8EncodeChar_pos (c := a)
      simp only [decodeBytes_escaped hx hy, utf8_cons, List.length_append, List.length_cons]
      omega
  | copied c rest hc ih =>
      simp only [decodeBytes_copied hc, utf8_cons, List.length_append]
      omega

/-- A text without `%` holds no escape. -/
theorem not_hasEscape (h : '%' ∉ s) : ¬ HasEscape s := by
  rintro ⟨t, a, b, rest, ht, he⟩
  exact h (ht.mem (he.text ▸ List.mem_cons_self))

/-- A text with an escape stands for fewer bytes than it has. -/
theorem length_decodeBytes_lt (h : HasEscape s) : (decodeBytes s).length < (utf8 s).length := by
  induction s using decode_induction with
  | nil => exact absurd h (not_hasEscape List.not_mem_nil)
  | escaped a b rest x y hx hy =>
      have hr := length_decodeBytes_le rest
      have hp := length_utf8EncodeChar_pos (c := '%')
      have ha := length_utf8EncodeChar_pos (c := a)
      simp only [decodeBytes_escaped hx hy, utf8_cons, List.length_append, List.length_cons]
      omega
  | copied c rest hc ih =>
      have hrest : HasEscape rest :=
        (hasEscape_cons_iff.mp h).resolve_left fun ⟨a, b, after, he⟩ => hc a b after he
      simp only [decodeBytes_copied hc, utf8_cons, List.length_append]
      exact Nat.add_lt_add_left (ih hrest) _

theorem decodeBytes_eq_utf8_iff : decodeBytes s = utf8 s ↔ ¬ HasEscape s := by
  refine ⟨fun hd he => ?_, fun hn => ?_⟩
  · have hlt := length_decodeBytes_lt he
    rw [hd] at hlt
    exact Nat.lt_irrefl _ hlt
  · induction s using decode_induction with
    | nil => rfl
    | escaped a b rest x y hx hy =>
        exact absurd (hasEscape_cons_iff.mpr (.inl ⟨a, b, rest, rfl, Option.isSome_of_eq_some hx,
          Option.isSome_of_eq_some hy⟩)) hn
    | copied c rest hc ih =>
        rw [decodeBytes_copied hc, utf8_cons, ih fun he => hn (hasEscape_cons_iff.mpr (.inr he))]

/-! ### Encoding -/

theorem encode_cons : encode set (c :: s) = encodeChar set c ++ encode set s := rfl

/-- The set holds no character that escapes are made of. -/
def Spares (set : Char → Bool) : Prop := ∀ c ∈ escapeChars, set c = false

theorem encodeChar_eq (set : Char → Bool) (c : Char) :
    encodeChar set c = [c] ∧ c.toNat < 0x80 ∧ set c = false ∨
    encodeChar set c = (String.utf8EncodeChar c).flatMap encodedByte ∧
      ¬ (c.toNat < 0x80 ∧ set c = false) := by
  unfold encodeChar
  split
  · rename_i h
    exact .inl ⟨rfl, by simpa using h⟩
  · rename_i h
    exact .inr ⟨by rw [toUTF8_singleton], by simpa using h⟩

theorem encodedBytes_eq_cons (c : Char) :
    ∃ front, (String.utf8EncodeChar c).flatMap encodedByte = '%' :: front := by
  obtain ⟨b, bytes, hb⟩ := List.exists_cons_of_length_pos (length_utf8EncodeChar_pos (c := c))
  rw [hb]
  exact ⟨_, rfl⟩

theorem Spares.encodeChar (hs : Spares set) (hc : c ∈ escapeChars) : encodeChar set c = [c] := by
  obtain ⟨he, -⟩ | ⟨-, hn⟩ := encodeChar_eq set c
  · exact he
  · exact absurd ⟨ascii_of_escapeChars c hc, hs c hc⟩ hn

theorem mem_encodedByte {b : UInt8} (h : c ∈ encodedByte b) : c ∈ escapeChars := by
  have hb : b.toNat < 256 := b.toNat_lt
  rcases h with _ | ⟨_, _ | ⟨_, _ | ⟨_, ⟨⟩⟩⟩⟩
  · exact List.mem_cons_self
  · exact mem_escapeChars (isSome_upperHexDigit (by omega))
  · exact mem_escapeChars (isSome_upperHexDigit (by omega))

theorem decodeBytes_encodedBytes (bytes : List UInt8) :
    decodeBytes (bytes.flatMap encodedByte ++ s) = bytes ++ decodeBytes s := by
  induction bytes with
  | nil => rfl
  | cons b bytes ih =>
      have hb : b.toNat < 256 := b.toNat_lt
      have hd : (b.toNat / 16 * 16 + b.toNat % 16).toUInt8 = b := by
        rw [Nat.div_add_mod']
        exact UInt8.ofNat_toNat
      change decodeBytes ('%' :: _ :: _ :: (bytes.flatMap encodedByte ++ s)) = _
      rw [decodeBytes_escaped (hexValue?_upperHexDigit (by omega))
        (hexValue?_upperHexDigit (by omega)), hd, ih, List.cons_append]

/-- Where `%` is encoded, decoding gives every text back. -/
theorem decodeBytes_encode (hp : set '%' = true) (s : List Char) :
    decodeBytes (encode set s) = utf8 s := by
  induction s with
  | nil => rfl
  | cons c s ih =>
      rw [encode_cons]
      obtain ⟨he, -, hc⟩ | ⟨he, -⟩ := encodeChar_eq set c
      · have hn : c ≠ '%' := by
          rintro rfl
          rw [hp] at hc
          cases hc
        rw [he, List.singleton_append, decodeBytes_copied (not_escapes hn), ih, utf8_cons]
      · rw [he, decodeBytes_encodedBytes, ih, utf8_cons]

theorem decode?_encode (hp : set '%' = true) (s : List Char) : decode? (encode set s) = some s :=
  decode?_eq_some_iff.mpr (decodeBytes_encode hp s)

theorem utf8_injective (h : utf8 s = utf8 t) : s = t := by
  have hs : decodeBytes (encode (fun _ => true) s) = utf8 t := (decodeBytes_encode rfl s).trans h
  have ht := decode?_eq_some_iff.mpr hs
  rw [decode?_encode rfl] at ht
  exact Option.some.inj ht

/-- A digit at the front of an encoded text was at the front of the text. -/
theorem encode_eq_cons (he : encode set s = a :: t) (ha : (hexValue? a).isSome) :
    ∃ rest, s = a :: rest ∧ encode set rest = t := by
  cases s with
  | nil => cases he
  | cons c s =>
      rw [encode_cons] at he
      obtain ⟨hc, -⟩ | ⟨hc, -⟩ := encodeChar_eq set c
      · rw [hc] at he
        obtain ⟨rfl, rfl⟩ := List.cons.inj he
        exact ⟨s, rfl, rfl⟩
      · obtain ⟨front, hf⟩ := encodedBytes_eq_cons c
        rw [hc, hf] at he
        have hp : '%' = a := (List.cons.inj he).1
        rw [← hp] at ha
        cases ha

/-- Encoding makes no escape out of a `%` that begins none. -/
theorem not_escapes_encode (h : ∀ a b rest, ¬ Escapes (c :: s) a b rest) (a b : Char)
    (rest : List Char) : ¬ Escapes (c :: encode set s) a b rest := by
  intro he
  obtain ⟨rfl, hr⟩ := List.cons.inj he.text
  obtain ⟨s, rfl, hb⟩ := encode_eq_cons hr he.high
  obtain ⟨after, rfl, -⟩ := encode_eq_cons hb he.low
  exact h a b after ⟨rfl, he.high, he.low⟩

/-- Where neither `%` nor a digit is encoded, decoding reads an encoded text as it reads the
text itself. -/
theorem Spares.decodeBytes_encode (hs : Spares set) (s : List Char) :
    decodeBytes (encode set s) = decodeBytes s := by
  induction s using decode_induction with
  | nil => rfl
  | escaped a b rest x y hx hy ih =>
      have ha := hs.encodeChar (mem_escapeChars (Option.isSome_of_eq_some hx))
      have hb := hs.encodeChar (mem_escapeChars (Option.isSome_of_eq_some hy))
      have he : encode set ('%' :: a :: b :: rest) = '%' :: a :: b :: encode set rest := by
        rw [encode_cons, encode_cons, encode_cons, ha, hb, hs.encodeChar List.mem_cons_self]
        rfl
      rw [he, decodeBytes_escaped hx hy, decodeBytes_escaped hx hy, ih]
  | copied c rest hc ih =>
      rw [encode_cons, decodeBytes_copied hc]
      obtain ⟨he, -⟩ | ⟨he, -⟩ := encodeChar_eq set c
      · rw [he, List.singleton_append, decodeBytes_copied (not_escapes_encode hc), ih]
      · rw [he, decodeBytes_encodedBytes, ih]

/-- Where neither `%` nor a digit is encoded, decoding gives back the texts without escapes. -/
theorem Spares.decode?_encode_iff (hs : Spares set) :
    decode? (encode set s) = some s ↔ ¬ HasEscape s := by
  rw [decode?_eq_some_iff, hs.decodeBytes_encode, decodeBytes_eq_utf8_iff]

/-! ### Written texts -/

/-- Nothing in the text is encoded where the characters of `set` are. -/
def Written (set : Char → Bool) (s : List Char) : Prop := ∀ c ∈ s, c.toNat < 0x80 ∧ set c = false

theorem written_nil : Written set [] := nofun

theorem Written.not_mem (h : Written set s) (hc : set c = true) : c ∉ s := fun hm => by
  rw [(h c hm).2] at hc
  cases hc

theorem Written.mono (h : Written set s) (hsub : ∀ c, set' c = true → set c = true) :
    Written set' s := fun c hc =>
  ⟨(h c hc).1, Bool.eq_false_iff.mpr fun hc' => h.not_mem (hsub c hc') hc⟩

theorem encode_of_written (h : Written set s) : encode set s = s := by
  induction s with
  | nil => rfl
  | cons c s ih =>
      obtain ⟨he, -⟩ | ⟨-, hn⟩ := encodeChar_eq set c
      · rw [encode_cons, he, ih fun d hd => h d (List.mem_cons_of_mem c hd)]
        rfl
      · exact absurd (h c List.mem_cons_self) hn

theorem mem_encode (h : c ∈ encode set s) :
    (c ∈ s ∧ c.toNat < 0x80 ∧ set c = false) ∨ c ∈ escapeChars := by
  obtain ⟨d, hd, hc⟩ := List.mem_flatMap.mp h
  obtain ⟨he, hk⟩ | ⟨he, -⟩ := encodeChar_eq set d
  · rw [he, List.mem_singleton] at hc
    exact .inl (hc ▸ ⟨hd, hk⟩)
  · rw [he] at hc
    obtain ⟨b, -, hc⟩ := List.mem_flatMap.mp hc
    exact .inr (mem_encodedByte hc)

/-- An encoded text is written for every place whose set spares escapes and encodes no
character of the text that is not encoded in it already. -/
theorem Spares.written_encode (hs : Spares set') (hsub : ∀ c ∈ s, set' c = true → set c = true) :
    Written set' (encode set s) := by
  intro c hc
  rcases mem_encode hc with ⟨hm, ha, hk⟩ | he
  · refine ⟨ha, Bool.eq_false_iff.mpr fun hc' => ?_⟩
    rw [hsub c hm hc'] at hk
    cases hk
  · exact ⟨ascii_of_escapeChars c he, hs c he⟩

theorem encode_ne_nil (h : s ≠ []) : encode set s ≠ [] := by
  cases s with
  | nil => exact absurd rfl h
  | cons c s =>
      rw [encode_cons]
      obtain ⟨he, -⟩ | ⟨he, -⟩ := encodeChar_eq set c
      · rw [he]
        exact List.cons_ne_nil _ _
      · obtain ⟨front, hf⟩ := encodedBytes_eq_cons c
        rw [he, hf]
        exact List.cons_ne_nil _ _

/-! ### The sets -/

theorem spares_inQuerySet : Spares inQuerySet := forall_mem_of_all (by decide)

theorem spares_inPathSet : Spares inPathSet := forall_mem_of_all (by decide)

theorem spares_inUserinfoSet : Spares inUserinfoSet := forall_mem_of_all (by decide)

/-- The set holds the controls and the space. -/
structure CoversBlanks (set : Char → Bool) : Prop where
  control : ∀ c, isControl c = true → set c = true
  space : set ' ' = true

theorem CoversBlanks.eq_true (h : CoversBlanks set) (hc : c.toNat ≤ 0x20) : set c = true := by
  rcases Nat.lt_or_eq_of_le hc with hlt | heq
  · exact h.control c (by simp [isControl, hlt])
  · rw [show c = ' ' from Char.toNat_inj.mp heq]
    exact h.space

theorem Written.lt_toNat (hs : Written set s) (h : CoversBlanks set) (hc : c ∈ s) :
    0x20 < c.toNat :=
  Nat.lt_of_not_le fun hle => hs.not_mem (h.eq_true hle) hc

theorem coversBlanks_inQuerySet : CoversBlanks inQuerySet where
  control c hc := by simp [inQuerySet, hc]
  space := rfl

theorem coversBlanks_inFragmentSet : CoversBlanks inFragmentSet where
  control c hc := by simp [inFragmentSet, hc]
  space := rfl

theorem coversBlanks_inPathSet : CoversBlanks inPathSet where
  control c hc := by simp [inPathSet, inFragmentSet, hc]
  space := rfl

theorem coversBlanks_inUserinfoSet : CoversBlanks inUserinfoSet where
  control c hc := by simp [inUserinfoSet, inPathSet, inFragmentSet, hc]
  space := rfl

end QueueRelay.Url

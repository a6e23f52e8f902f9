/-
Fields of a form, and their reading.

A field that was encoded is read back as the text it was made from, whatever the text: every
byte is kept, becomes a `+` or is escaped, and each of the three is undone (`formDecodeBytes`
of `formByte`).  A text that was never encoded is read as itself just when it holds neither a
`+` nor an escape (`formDecode?_eq_self_iff`).
-/
import QueueRelay.Proofs.Url.Encoding

namespace QueueRelay.Url

variable {c : Char} {s t : List Char}

/-- The text that a form field stands for, when its bytes are text. -/
def formDecode? (s : List Char) : Option (List Char) :=
  (String.fromUTF8? ⟨(formDecodeBytes s).toArray⟩).map String.toList

/-- The character that is read for `c` before escapes are. -/
def unplussed (c : Char) : Char := if c = '+' then ' ' else c

theorem formDecodeBytes_eq (s : List Char) :
    formDecodeBytes s = decodeBytes (s.map unplussed) := rfl

theorem unplussed_of_ne (h : c ≠ '+') : unplussed c = c := if_neg h

theorem formDecode?_eq_some_iff : formDecode? s = some t ↔ formDecodeBytes s = utf8 t :=
  decode?_eq_some_iff

/-! ### What was encoded -/

theorem toList_toUTF8 (s : String) : s.toUTF8.toList = utf8 s.toList := by
  have hl : s.toUTF8.toList = s.toUTF8.data.toList := toList_loop _ 0 []
  rw [hl, String.toUTF8_eq_toByteArray, ← String.utf8Encode_toList]
  exact List.toList_data_toByteArray

theorem isFormPlain_bounds {b : UInt8} (h : isFormPlain b = true) :
    b.toNat < 0x80 ∧ b.toNat ≠ '+'.toNat ∧ b.toNat ≠ '%'.toNat := by
  have hplus : '+'.toNat = 43 := rfl
  have hescape : '%'.toNat = 37 := rfl
  simp only [isFormPlain, Bool.or_eq_true, Bool.and_eq_true, decide_eq_true_eq, beq_iff_eq] at h
  omega

theorem toNat_ofNat {n : Nat} (h : n < 0x80) : (Char.ofNat n).toNat = n := by
  have hvalid : n.isValidChar := .inl (by omega)
  rw [Char.ofNat, dif_pos hvalid]
  rfl

/-- A byte of ASCII is its character's own. -/
theorem utf8EncodeChar_ofNat {b : UInt8} (h : b.toNat < 0x80) :
    String.utf8EncodeChar (Char.ofNat b.toNat) = [b] := by
  have hsize : (Char.ofNat b.toNat).utf8Size = 1 := by
    rw [Char.utf8Size_eq_one_iff, UInt32.le_iff_toNat_le, Char.toNat_val, toNat_ofNat h]
    exact Nat.le_of_lt_succ h
  have hbyte : (Char.ofNat b.toNat).val.toUInt8 = b := by
    rw [← UInt8.toNat_inj, UInt32.toNat_toUInt8, Char.toNat_val, toNat_ofNat h,
      Nat.mod_eq_of_lt b.toNat_lt]
  rw [String.utf8EncodeChar_eq_singleton hsize, hbyte]

theorem formDecodeBytes_plain {b : UInt8} (h : isFormPlain b = true) (s : List Char) :
    formDecodeBytes (Char.ofNat b.toNat :: s) = b :: formDecodeBytes s := by
  obtain ⟨hlt, hplus, hescape⟩ := isFormPlain_bounds h
  have hc := toNat_ofNat hlt
  have hne : Char.ofNat b.toNat ≠ '+' := fun he => hplus (by rw [← hc, he])
  have hne' : Char.ofNat b.toNat ≠ '%' := fun he => hescape (by rw [← hc, he])
  rw [formDecodeBytes_eq, List.map_cons, unplussed_of_ne hne, decodeBytes_copied (not_escapes hne'),
    utf8EncodeChar_ofNat hlt]
  rfl

theorem map_unplussed (h : '+' ∉ s) : s.map unplussed = s := by
  refine (List.map_congr_left fun c hc => ?_).trans s.map_id
  exact unplussed_of_ne fun he => h (he ▸ hc)

theorem formDecodeBytes_formByte (b : UInt8) (s : List Char) :
    formDecodeBytes (formByte b ++ s) = b :: formDecodeBytes s := by
  unfold formByte
  split
  · rename_i hp
    exact formDecodeBytes_plain hp s
  · split
    · rename_i hb
      rw [beq_iff_eq.1 hb]
      exact decodeBytes_copied (not_escapes (by decide))
    · have hplus : '+' ∉ encodedByte b := fun hm => absurd (mem_encodedByte hm) (by decide)
      have hone := decodeBytes_encodedBytes [b] (s := s.map unplussed)
      rw [List.flatMap_singleton] at hone
      rw [formDecodeBytes_eq, List.map_append, map_unplussed hplus, hone]
      rfl

/-- Whatever was encoded as a form field is read back. -/
theorem formDecode?_formEncode (s : String) :
    formDecode? (formEncode s).toList = some s.toList := by
  have hbytes : ∀ bytes : List UInt8, formDecodeBytes (bytes.flatMap formByte) = bytes := by
    intro bytes
    induction bytes with
    | nil => rfl
    | cons b bytes ih => rw [List.flatMap_cons, formDecodeBytes_formByte, ih]
  rw [formDecode?_eq_some_iff, formEncode, String.toList_ofList, hbytes, toList_toUTF8]

theorem formEncode_injective {s t : String} (h : formEncode s = formEncode t) : s = t := by
  have hs := formDecode?_formEncode s
  rw [h, formDecode?_formEncode t] at hs
  exact (String.toList_inj.1 (Option.some.inj hs)).symm

/-- A form field holds only what its bytes are written with. -/
theorem not_mem_formEncode (hplus : c ≠ '+') (hescape : c ∉ escapeChars)
    (hplain : isFormPlain c.toNat.toUInt8 = false) (s : String) : c ∉ (formEncode s).toList := by
  intro hm
  rw [formEncode, String.toList_ofList] at hm
  obtain ⟨b, -, hb⟩ := List.mem_flatMap.1 hm
  unfold formByte at hb
  split at hb
  · rename_i hp
    have hbyte : b.toNat.toUInt8 = b := UInt8.ofNat_toNat
    rw [List.mem_singleton.1 hb, toNat_ofNat (isFormPlain_bounds hp).1, hbyte, hp] at hplain
    cases hplain
  · split at hb
    · exact hplus (List.mem_singleton.1 hb)
    · exact hescape (mem_encodedByte hb)

/-! ### What was not -/

theorem length_utf8_map_unplussed (s : List Char) :
    (utf8 (s.map unplussed)).length = (utf8 s).length := by
  induction s with
  | nil => rfl
  | cons c s ih =>
      have hc : (String.utf8EncodeChar (unplussed c)).length =
          (String.utf8EncodeChar c).length := by
        by_cases h : c = '+'
        · rw [h]
          rfl
        · rw [unplussed_of_ne h]
      simp only [List.map_cons, utf8_cons, List.length_append, hc, ih]

theorem plus_not_mem_map_unplussed (s : List Char) : '+' ∉ s.map unplussed := by
  intro h
  obtain ⟨c, -, hc⟩ := List.mem_map.1 h
  unfold unplussed at hc
  split at hc
  · cases hc
  · contradiction

/-- A text is a form field for itself when there is nothing in it to undo. -/
theorem formDecodeBytes_eq_utf8_iff : formDecodeBytes s = utf8 s ↔ '+' ∉ s ∧ ¬ HasEscape s := by
  rw [formDecodeBytes_eq]
  constructor
  · intro hd
    -- `+` and the space have one byte each, so that an escape would leave too few
    have hescape : ¬ HasEscape (s.map unplussed) := fun he => by
      have hlt := length_decodeBytes_lt he
      rw [hd, length_utf8_map_unplussed] at hlt
      exact Nat.lt_irrefl _ hlt
    have hs : s.map unplussed = s :=
      utf8_injective ((decodeBytes_eq_utf8_iff.mpr hescape).symm.trans hd)
    exact ⟨hs ▸ plus_not_mem_map_unplussed s, hs ▸ hescape⟩
  · rintro ⟨hplus, hescape⟩
    rw [map_unplussed hplus, decodeBytes_eq_utf8_iff]
    exact hescape

theorem formDecode?_eq_self_iff : formDecode? s = some s ↔ '+' ∉ s ∧ ¬ HasEscape s :=
  formDecode?_eq_some_iff.trans formDecodeBytes_eq_utf8_iff

end QueueRelay.Url

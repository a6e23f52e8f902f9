/-
What a double amounts to.

A double that is not below zero is a whole number of times the least positive one, or infinite.
`Amounts` says how many times, as an element of `ℕ∞`.  It is read off the three fields a double
is kept in, and `lt_iff` shows that doubles are compared by it.  A span of time that is read from
a double is that number times a scale, divided by `oneUnits` and rounded once (`scaled_of_parts`),
so a larger double never gives a shorter span.
-/
import Mathlib
import QueueRelay.Number.Binary64

namespace QueueRelay.Number

open Float.Model Float.Model.UnpackedFloat

/-! ### The three fields of a double -/

/-- The double with these fields. -/
def ofFields (s : Sign) (field fraction : Nat) : UnpackedFloat :=
  if field = 2047 then if fraction = 0 then .infinity s else .notANumber
  else if field = 0 then
    if h : fraction = 0 then .zero s
    else .finite s fraction (-1074) (Nat.pos_of_ne_zero h)
  else .finite s (2 ^ 52 + fraction) (field - 1075) (Nat.add_pos_left (Nat.two_pow_pos 52) _)

theorem unpack_eq (b : BitVec Format.binary64.numBits) :
    UnpackedFloat.unpack Format.binary64 b = ofFields (.ofBitVec (unpackSign b))
      (unpackExponent b).toNat (unpackMantissa b).toNat := by
  have hfraction := (unpackMantissa b).isLt
  have hall : unpackExponent b = -1#11 ↔ (unpackExponent b).toNat = 2047 :=
    ⟨fun h => by rw [h]; rfl, fun h => BitVec.eq_of_toNat_eq h⟩
  have hnone : unpackExponent b = 0#11 ↔ (unpackExponent b).toNat = 0 :=
    ⟨fun h => by rw [h]; rfl, fun h => BitVec.eq_of_toNat_eq h⟩
  have hzero : unpackMantissa b = 0#52 ↔ (unpackMantissa b).toNat = 0 :=
    ⟨fun h => by rw [h]; rfl, fun h => BitVec.eq_of_toNat_eq h⟩
  have hm : (1#1 ++ unpackMantissa b).toNat = 2 ^ 52 + (unpackMantissa b).toNat := by
    rw [BitVec.toNat_append, ← Nat.shiftLeft_add_eq_or_of_lt hfraction]
    rfl
  have hbias : Format.binary64.exponentBias = 1023 := by decide
  unfold UnpackedFloat.unpack ofFields
  dsimp only
  simp only [hall, hnone, hzero, hm, hbias]
  split_ifs with hinf hfinite hsmall
  · rfl
  · rfl
  · rfl
  · simp only [hsmall]
    rfl
  · rfl

theorem unpackMantissa_packComponents {spec : Format} (s : Sign) (e : BitVec spec.exponentBits)
    (m : BitVec spec.mantissaBitsWithoutImplicit) :
    unpackMantissa (packComponents spec s e m) = m := by
  ext i hi
  simp [unpackMantissa_def, packComponents, BitVec.getLsbD_append, hi]

theorem unpackExponent_packComponents {spec : Format} (s : Sign) (e : BitVec spec.exponentBits)
    (m : BitVec spec.mantissaBitsWithoutImplicit) :
    unpackExponent (packComponents spec s e m) = e := by
  ext i hi
  simp [unpackExponent_def, packComponents, BitVec.getLsbD_append, hi]

theorem unpack_packComponents (s : Sign) (field : BitVec 11) (fraction : BitVec 52) :
    UnpackedFloat.unpack Format.binary64 (packComponents Format.binary64 s field fraction) =
      ofFields s field.toNat fraction.toNat := by
  rw [unpack_eq, unpackSign_packComponents, Sign.ofBitVec_toBitVec, unpackExponent_packComponents,
    unpackMantissa_packComponents]

/-- The parts of a positive double as they are kept: the mantissa has all its bits, or the
exponent is the least one. -/
structure Canonical (m : Nat) (e : Int) : Prop where
  mantissa : m < 2 ^ 53
  exponent : -1074 ≤ e
  full : 2 ^ 52 ≤ m ∨ e = -1074

theorem canonical_of_unpack {v : Float.Model} {s : Sign} {m : Nat} {e : Int} {hm : 0 < m}
    (h : v.unpack = .finite s m e hm) : Canonical m e ∧ e ≤ 971 := by
  have hfields : ∀ b : BitVec Format.binary64.numBits,
      UnpackedFloat.unpack Format.binary64 b = .finite s m e hm → Canonical m e ∧ e ≤ 971 := by
    intro b h
    have hfraction : (unpackMantissa b).toNat < 2 ^ 52 := (unpackMantissa b).isLt
    have hfield : (unpackExponent b).toNat < 2 ^ 11 := (unpackExponent b).isLt
    rw [unpack_eq] at h
    unfold ofFields at h
    split_ifs at h with hinf hnan hzero hsmall
    · cases h
      exact ⟨⟨by omega, by decide, .inr rfl⟩, by decide⟩
    · cases h
      exact ⟨⟨by omega, by omega, .inl (Nat.le_add_right _ _)⟩, by omega⟩
  exact hfields v.toBits.toBitVec h

/-- A positive number that fits is kept as it is, and a larger one as infinity. -/
theorem unpack_pack {m : Nat} {e : Int} (hm : 0 < m) (h : Canonical m e) :
    (Float.Model.pack (.finite .positive m e hm)).unpack =
      if e ≤ 971 then .finite .positive m e hm else .infinity .positive := by
  obtain ⟨hlt, hmin, hfull⟩ := h
  have hbias : Format.binary64.exponentBias = 1023 := by decide
  show UnpackedFloat.unpack Format.binary64
    (UnpackedFloat.pack Format.binary64 (.finite .positive m e hm)) = _
  unfold UnpackedFloat.pack
  simp only [hbias]
  by_cases hfits : e ≤ 971
  · rw [if_pos hfits, if_neg (by omega)]
    by_cases hm' : 2 ^ 52 ≤ m
    · have hlog : m.log2 = 52 := (Nat.log2_eq_iff (Nat.ne_of_gt hm)).2 ⟨hm', hlt⟩
      have hfield : (BitVec.ofNat 11 (e + (1023 : Nat) + (52 : Nat)).toNat).toNat =
          (e + 1075).toNat := by
        rw [BitVec.toNat_ofNat]
        omega
      have hfraction : (BitVec.ofNat 52 m).toNat = m - 2 ^ 52 := by
        rw [BitVec.toNat_ofNat]
        omega
      rw [if_pos (by rw [hlog]; rfl), unpack_packComponents, hfield, hfraction]
      unfold ofFields
      rw [if_neg (by omega), if_neg (by omega), UnpackedFloat.finite.injEq]
      exact ⟨rfl, by omega, by omega⟩
    · have hlog : m.log2 < 52 := (Nat.log2_lt (Nat.ne_of_gt hm)).2 (Nat.not_le.1 hm')
      have hfraction : (BitVec.ofNat 52 m).toNat = m := by
        rw [BitVec.toNat_ofNat]
        omega
      rw [if_neg (by show ¬ m.log2 + 1 = 53; omega), unpack_packComponents, hfraction]
      unfold ofFields
      rw [if_neg (by decide), if_pos (show (0#11).toNat = 0 from rfl), dif_neg (Nat.ne_of_gt hm),
        UnpackedFloat.finite.injEq]
      exact ⟨rfl, rfl, by omega⟩
  · rw [if_neg hfits, if_pos (by omega)]
    rfl

/-! ### The order of doubles -/

/-- A positive number by its parts, in units of the least one there is. -/
def units (m : Nat) (e : Int) : Nat := m * 2 ^ (e + 1074).toNat

/-- What a double that is not below zero amounts to, in units of the least positive one. -/
inductive Amounts : UnpackedFloat → ℕ∞ → Prop
  | zero (s : Sign) : Amounts (.zero s) 0
  | finite {m : Nat} {e : Int} (hm : 0 < m) (h : Canonical m e) (he : e ≤ 971) :
      Amounts (.finite .positive m e hm) (units m e)
  | infinity : Amounts (.infinity .positive) ⊤

/-- What a mantissa has at most is what the next exponent gives at least. -/
theorem carry_le {e e' : Int} (h : -1074 ≤ e) (he : e < e') :
    2 ^ 53 * 2 ^ (e + 1074).toNat ≤ units (2 ^ 52) e' := by
  unfold units
  rw [show 2 ^ 53 = 2 ^ 52 * 2 from rfl, Nat.mul_assoc, ← Nat.pow_succ']
  exact Nat.mul_le_mul_left _ (Nat.pow_le_pow_right (by decide) (by omega))

/-- What has a larger exponent is larger. -/
theorem units_lt_of_lt {m m' : Nat} {e e' : Int} (h : Canonical m e) (h' : Canonical m' e')
    (he : e < e') : units m e < units m' e' := by
  have hmin := h.exponent
  have hm' : 2 ^ 52 ≤ m' := h'.full.resolve_right (by omega)
  calc units m e < 2 ^ 53 * 2 ^ (e + 1074).toNat :=
        Nat.mul_lt_mul_of_pos_right h.mantissa (Nat.two_pow_pos _)
    _ ≤ units (2 ^ 52) e' := carry_le hmin he
    _ ≤ units m' e' := Nat.mul_le_mul_right _ hm'

theorem units_lt_iff {m m' : Nat} {e e' : Int} (h : Canonical m e) (h' : Canonical m' e') :
    units m e < units m' e' ↔ e < e' ∨ e = e' ∧ m < m' := by
  rcases Int.lt_trichotomy e e' with hlt | rfl | hgt
  · exact iff_of_true (units_lt_of_lt h h' hlt) (.inl hlt)
  · have hsame : units m e < units m' e ↔ m < m' := Nat.mul_lt_mul_right (Nat.two_pow_pos _)
    simp [hsame]
  · refine iff_of_false (Nat.not_lt.2 (Nat.le_of_lt (units_lt_of_lt h' h hgt))) ?_
    omega

theorem units_pos {m : Nat} (hm : 0 < m) (e : Int) : 0 < units m e :=
  Nat.mul_pos hm (Nat.two_pow_pos _)

section Amounts

variable {x y : Float} {a b : ℕ∞}

theorem not_isNaN (h : Amounts x.toModel.unpack a) : ¬ x.isNaN = true := by
  show ¬ x.toModel.unpack.isNaN = true
  generalize x.toModel.unpack = u at h
  cases h <;> exact Bool.false_ne_true

theorem compare_eq_lt {u v : UnpackedFloat} (hu : Amounts u a) (hv : Amounts v b) :
    u.compare v = some .lt ↔ a < b := by
  cases hu with
  | zero s =>
      cases hv with
      | zero s' => simp [UnpackedFloat.compare]
      | finite hm h he => simpa [UnpackedFloat.compare] using units_pos hm _
      | infinity => simp [UnpackedFloat.compare]
  | finite hm h he =>
      cases hv with
      | zero s' => simp [UnpackedFloat.compare]
      | finite hm' h' he' =>
          simp [UnpackedFloat.compare, units_lt_iff h h', Ordering.then_eq_lt,
            Int.compare_eq_lt, Nat.compare_eq_lt]
      | infinity => simp [UnpackedFloat.compare]
  | infinity =>
      cases hv with
      | zero s' => simp [UnpackedFloat.compare]
      | finite hm h he => simp [UnpackedFloat.compare]
      | infinity => simp [UnpackedFloat.compare]

theorem lt_iff_compare : x < y ↔ x.toModel.unpack.compare y.toModel.unpack = some .lt := by
  show decide (x.toModel.unpack.lt y.toModel.unpack = true) = true ↔ _
  simp [UnpackedFloat.lt]

theorem lt_iff (hx : Amounts x.toModel.unpack a) (hy : Amounts y.toModel.unpack b) :
    x < y ↔ a < b :=
  lt_iff_compare.trans (compare_eq_lt hx hy)

end Amounts

theorem Amounts.unique {u : UnpackedFloat} {a b : ℕ∞} (ha : Amounts u a) (hb : Amounts u b) :
    a = b := by
  cases ha <;> cases hb <;> rfl

/-- A number that is not below zero. -/
inductive Upward : UnpackedFloat → Prop
  | zero (s : Sign) : Upward (.zero s)
  | finite (m : Nat) (e : Int) (hm : 0 < m) : Upward (.finite .positive m e hm)
  | infinity : Upward (.infinity .positive)

theorem amounts_of_upward {v : Float.Model} (h : Upward v.unpack) : ∃ a, Amounts v.unpack a := by
  generalize hu : v.unpack = u at h
  cases h with
  | zero s => exact ⟨0, .zero s⟩
  | finite m e hm =>
      obtain ⟨hcanonical, he⟩ := canonical_of_unpack hu
      exact ⟨_, .finite hm hcanonical he⟩
  | infinity => exact ⟨⊤, .infinity⟩

/-- A number below zero is below every positive one. -/
theorem upward_or_below {u v : UnpackedFloat} {a : ℕ∞} (h : ¬ u.isNaN = true) (hv : Amounts v a)
    (ha : 0 < a) : Upward u ∨ u.compare v = some .lt := by
  cases hv with
  | zero s => exact absurd rfl (ne_of_gt ha)
  | finite | infinity =>
      cases u with
      | notANumber => exact absurd rfl h
      | zero s => exact .inl (.zero s)
      | infinity s =>
          cases s with
          | positive => exact .inl .infinity
          | negative => exact .inr rfl
      | finite s m e hm =>
          cases s with
          | positive => exact .inl (.finite m e hm)
          | negative => exact .inr rfl

/-- One, in units of the least positive double. -/
def oneUnits : Nat := units (2 ^ 52) (-52)

theorem canonical_one : Canonical (2 ^ 52) (-52) := ⟨by decide, by decide, .inl (Nat.le_refl _)⟩

theorem oneUnits_pos : (0 : ℕ∞) < oneUnits := Nat.cast_pos.2 (units_pos (by decide) _)

/-- A double that amounts to this much or more. -/
def AtLeast (a : ℕ∞) (x : Float) : Prop := ∃ b, Amounts x.toModel.unpack b ∧ a ≤ b

/-- A number that is not below a positive one amounts to at least as much. -/
theorem atLeast_of_not_lt {x y : Float} {a : ℕ∞} (hx : ¬ x.isNaN = true)
    (hy : Amounts y.toModel.unpack a) (ha : 0 < a) (h : ¬ x < y) : AtLeast a x := by
  rcases upward_or_below (u := x.toModel.unpack) hx hy ha with hup | hbelow
  · obtain ⟨b, hb⟩ := amounts_of_upward hup
    exact ⟨b, hb, not_lt.1 fun hba => h ((lt_iff hb hy).2 hba)⟩
  · exact absurd (lt_iff_compare.2 hbelow) h

/-! ### Reading a double -/

/-- The fields of a double by its bits. -/
theorem unpack_toModel (x : Float) :
    x.toModel.unpack = ofFields
      (if x.toBits.toNat / 2 ^ 63 == 1 then .negative else .positive)
      (x.toBits.toNat / 2 ^ 52 % 2 ^ 11) (x.toBits.toNat % 2 ^ 52) := by
  have hsign : Sign.ofBitVec (@unpackSign Format.binary64 x.toBits.toBitVec) =
      if x.toBits.toNat / 2 ^ 63 == 1 then .negative else .positive := by
    have hlast : (@unpackSign Format.binary64 x.toBits.toBitVec).toNat =
        x.toBits.toNat / 2 ^ 63 := by
      rw [unpackSign_def, BitVec.extractLsb'_toNat, UInt64.toNat_toBitVec,
        Nat.shiftRight_eq_div_pow]
      have := x.toBits.toNat_lt
      exact Nat.mod_eq_of_lt (by show _ / 2 ^ 63 < _; omega)
    rw [← hlast]
    rcases BitVec.eq_zero_or_eq_one (@unpackSign Format.binary64 x.toBits.toBitVec)
      with hbit | hbit <;> rw [hbit] <;> rfl
  show UnpackedFloat.unpack Format.binary64 x.toBits.toBitVec = _
  rw [unpack_eq, hsign, unpackExponent_def, unpackMantissa_def, BitVec.extractLsb'_toNat,
    BitVec.extractLsb'_toNat, UInt64.toNat_toBitVec, Nat.shiftRight_eq_div_pow]
  rfl

/-- The parts that are read off the fields of a double. -/
def partsOf? (negative : Bool) (field fraction : Nat) : Option Binary64 :=
  if field = 2047 then none
  else if field = 0 then some ⟨negative, fraction, -1074⟩
  else some ⟨negative, 2 ^ 52 + fraction, field - 1075⟩

theorem of?_eq (x : Float) : Binary64.of? x = partsOf? (x.toBits.toNat / 2 ^ 63 == 1)
    (x.toBits.toNat / 2 ^ 52 % 2 ^ 11) (x.toBits.toNat % 2 ^ 52) :=
  rfl

theorem amounts_ofFields {negative : Bool} {field fraction : Nat} {b : Binary64}
    (hfield : field < 2 ^ 11) (hfraction : fraction < 2 ^ 52)
    (h : partsOf? negative field fraction = some b)
    (hpositive : (b.negative && b.mantissa != 0) = false) :
    -1074 ≤ b.exponent ∧
      Amounts (ofFields (if negative then .negative else .positive) field fraction)
        (units b.mantissa b.exponent) := by
  unfold partsOf? at h
  unfold ofFields
  split_ifs at h with hinf hsmall
  · cases h
    refine ⟨le_refl _, ?_⟩
    rw [if_neg hinf, if_pos hsmall]
    by_cases hzero : fraction = 0
    · subst hzero
      rw [dif_pos rfl, units, Nat.zero_mul]
      exact .zero _
    · have hsign : negative = false := by simpa [hzero] using hpositive
      subst hsign
      rw [dif_neg hzero]
      exact .finite _ ⟨by omega, by decide, .inr rfl⟩ (by decide)
  · cases h
    have hsign : negative = false := by simpa using hpositive
    subst hsign
    rw [if_neg hinf, if_neg hsmall]
    have hlow : -1074 ≤ (field : Int) - 1075 := by omega
    have hhigh : (field : Int) - 1075 ≤ 971 := by omega
    exact ⟨hlow, .finite _ ⟨by omega, hlow, .inl (Nat.le_add_right _ _)⟩ hhigh⟩

/-- What amounts to a whole number of units has parts to be read. -/
theorem parts_of_ofFields {negative : Bool} {field fraction n : Nat}
    (h : Amounts (ofFields (if negative then .negative else .positive) field fraction) n) :
    ∃ b, partsOf? negative field fraction = some b ∧
      (b.negative && b.mantissa != 0) = false := by
  generalize hn : (n : ℕ∞) = a at h
  generalize hs : (if negative then Sign.negative else Sign.positive) = s at h
  have hpositive : s = .positive → negative = false := by
    rintro rfl
    cases negative
    · rfl
    · cases hs
  unfold ofFields at h
  unfold partsOf?
  split_ifs at h ⊢ with hinf hfraction hsmall hzero
  · cases h
    exact absurd hn (ENat.natCast_ne_top n)
  · cases h
  · exact ⟨_, rfl, by simp [hzero]⟩
  · cases h
    exact ⟨_, rfl, by simp [hpositive rfl]⟩
  · cases h
    exact ⟨_, rfl, by simp [hpositive rfl]⟩

theorem parts_of_amounts {x : Float} {n : Nat} (h : Amounts x.toModel.unpack n) :
    ∃ b, Binary64.of? x = some b ∧ (b.negative && b.mantissa != 0) = false := by
  rw [unpack_toModel] at h
  exact parts_of_ofFields h

/-! ### The nearest whole number -/

theorem divNearestEven_mul (n d : Nat) {k : Nat} (hk : 0 < k) :
    divNearestEven (n * k) (d * k) = divNearestEven n d := by
  have hrest : n * k % (d * k) = n % d * k := Nat.mul_mod_mul_right k n d
  have hlow : 2 * (n % d * k) < d * k ↔ 2 * (n % d) < d := by
    rw [← Nat.mul_assoc]
    exact Nat.mul_lt_mul_right hk
  have hhigh : d * k < 2 * (n % d * k) ↔ d < 2 * (n % d) := by
    rw [← Nat.mul_assoc]
    exact Nat.mul_lt_mul_right hk
  unfold divNearestEven
  simp only [Nat.mul_div_mul_right n d hk, hrest, hlow, hhigh]

/-- A rounded quotient is the whole one or the next. -/
theorem divNearestEven_bounds (n d : Nat) :
    n / d ≤ divNearestEven n d ∧ divNearestEven n d ≤ n / d + 1 := by
  unfold divNearestEven
  dsimp only
  split_ifs <;> omega

theorem divNearestEven_mono {n n' d : Nat} (h : n ≤ n') :
    divNearestEven n d ≤ divNearestEven n' d := by
  rcases Nat.lt_or_ge (n / d) (n' / d) with hlt | hge
  · exact Nat.le_trans (divNearestEven_bounds n d).2
      (Nat.le_trans hlt (divNearestEven_bounds n' d).1)
  · have hfloor : n / d = n' / d := Nat.le_antisymm (Nat.div_le_div_right h) hge
    have hrest : n % d ≤ n' % d := by
      have hn := Nat.div_add_mod n d
      have hn' := Nat.div_add_mod n' d
      rw [hfloor] at hn
      omega
    unfold divNearestEven
    dsimp only
    rw [hfloor]
    split_ifs <;> omega

theorem divNearestEven_cancel (n : Nat) {k : Nat} (hk : 0 < k) : divNearestEven (n * k) k = n := by
  have hone : divNearestEven n 1 = n := by simp [divNearestEven, Nat.mod_one]
  have hcancel := divNearestEven_mul n 1 hk
  rwa [Nat.one_mul, hone] at hcancel

/-- The nearest whole number to a multiple of a double, counted in units of any power of two
that is small enough. -/
theorem scaled_eq (b : Binary64) (scale : Nat) {p : Nat} (h : -p ≤ b.exponent) :
    b.scaled scale =
      divNearestEven (b.mantissa * 2 ^ (b.exponent + p).toNat * scale) (2 ^ p) := by
  unfold Binary64.scaled
  split_ifs with hwhole
  · have hexp : (b.exponent + p).toNat = b.exponent.toNat + p := by omega
    rw [hexp, pow_add, ← Nat.mul_assoc, Nat.mul_right_comm _ (2 ^ p),
      divNearestEven_cancel _ (Nat.two_pow_pos p)]
    rfl
  · have hexp : 2 ^ p = 2 ^ (-b.exponent).toNat * 2 ^ (b.exponent + p).toNat := by
      rw [← pow_add]
      congr 1
      omega
    rw [Nat.mul_right_comm, hexp, divNearestEven_mul _ _ (Nat.two_pow_pos _)]
    rfl

theorem oneUnits_eq {p : Nat} (hp : (p : Int) = 1074) : oneUnits = 2 ^ p := by
  unfold oneUnits units
  rw [← pow_add]
  congr 1
  omega

/-- Whether a double is below a whole number, in units of any power of two that is small
enough. -/
theorem absBelow_iff (b : Binary64) (bound : Nat) {p : Nat} (h : -p ≤ b.exponent) :
    b.absBelow bound = true ↔ b.mantissa * 2 ^ (b.exponent + p).toNat < bound * 2 ^ p := by
  unfold Binary64.absBelow
  split_ifs with hwhole
  · have hexp : (b.exponent + p).toNat = b.exponent.toNat + p := by omega
    rw [decide_eq_true_iff, hexp, pow_add, ← Nat.mul_assoc]
    exact (Nat.mul_lt_mul_right (Nat.two_pow_pos p)).symm
  · have hexp : 2 ^ p = 2 ^ (-b.exponent).toNat * 2 ^ (b.exponent + p).toNat := by
      rw [← pow_add]
      congr 1
      omega
    rw [decide_eq_true_iff, hexp, ← Nat.mul_assoc]
    exact (Nat.mul_lt_mul_right (Nat.two_pow_pos _)).symm

/-- A multiple of a double that is not below zero, and its order among the whole numbers. -/
theorem scaled_of_parts {x : Float} {b : Binary64} (h : Binary64.of? x = some b)
    (hpositive : (b.negative && b.mantissa != 0) = false) :
    ∃ n : Nat, Amounts x.toModel.unpack n ∧
      (∀ scale, b.scaled scale = divNearestEven (n * scale) oneUnits) ∧
      ∀ bound, b.absBelow bound = true ↔ n < bound * oneUnits := by
  rw [of?_eq] at h
  obtain ⟨hexp, hamounts⟩ := amounts_ofFields (Nat.mod_lt _ (by decide)) (Nat.mod_lt _ (by decide))
    h hpositive
  rw [← unpack_toModel] at hamounts
  -- The exponent is kept as a variable, so that nothing evaluates the power.
  obtain ⟨p, hp⟩ : ∃ p : Nat, (p : Int) = 1074 := ⟨1074, rfl⟩
  refine ⟨_, hamounts, fun scale => ?_, fun bound => ?_⟩
  · rw [oneUnits_eq hp, scaled_eq b scale (by rwa [hp]), units, hp]
  · rw [oneUnits_eq hp, absBelow_iff b bound (by rwa [hp]), units, hp]

end QueueRelay.Number

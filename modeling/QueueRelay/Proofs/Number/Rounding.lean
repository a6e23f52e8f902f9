/-
What rounding and overflow do to a double.

A result of arithmetic is a mantissa of any size with an exponent.  Rounding drops the bits that
do not fit, may carry once, and turns what is too large into infinity.  Two things are proved of
it: a result that is not below zero stays so, and a product with a factor of one or more is at
least the other factor, however it is rounded (`atLeast_mul`).
-/
import QueueRelay.Proofs.Number.Doubles

namespace QueueRelay.Number

open Float.Model Float.Model.UnpackedFloat

/-! ### Results that are not below zero -/

theorem upward_ofFields {field fraction : Nat} (h : field ≠ 2047) :
    Upward (ofFields .positive field fraction) := by
  unfold ofFields
  rw [if_neg h]
  split_ifs <;> constructor

theorem upward_pack {u : UnpackedFloat} (h : Upward u) : Upward (Float.Model.pack u).unpack := by
  cases h with
  | zero s => cases s <;> exact .zero _
  | infinity => exact .infinity
  | finite m e hm =>
      show Upward (UnpackedFloat.unpack Format.binary64
        (UnpackedFloat.pack Format.binary64 (.finite .positive m e hm)))
      unfold UnpackedFloat.pack
      dsimp only
      split_ifs with hlarge hfull
      · exact .infinity
      · rw [unpack_packComponents]
        refine upward_ofFields ?_
        rw [BitVec.toNat_ofNat]
        omega
      · rw [unpack_packComponents]
        exact upward_ofFields (by decide)

theorem upward_roundWithAccuracy (spec : Format) (m : Nat) (e : Int) (accuracy : Accuracy) :
    Upward (roundWithAccuracy spec .positive m e accuracy) := by
  unfold roundWithAccuracy
  dsimp only
  split <;> constructor

theorem upward_normalize (spec : Format) (m : Nat) (e : Int) :
    Upward (UnpackedFloat.normalize spec m e .positive) := by
  unfold UnpackedFloat.normalize
  split
  · rename_i h
    rw [Int.compare_eq_lt] at h
    omega
  · exact .zero _
  · exact upward_roundWithAccuracy _ _ _ _

theorem upward_add {u v : UnpackedFloat} (hu : Upward u) (hv : Upward v) :
    Upward (UnpackedFloat.add Format.binary64 u v) := by
  cases hu with
  | zero s =>
      cases hv with
      | zero s' => cases s <;> cases s' <;> exact .zero _
      | finite m' e' hm' => exact .finite m' e' hm'
      | infinity => exact .infinity
  | finite m e hm =>
      cases hv with
      | zero s' => exact .finite m e hm
      | finite m' e' hm' => exact upward_normalize _ (_ + _) _
      | infinity => exact .infinity
  | infinity => cases hv <;> exact .infinity

/-- Multiplying and dividing by a positive number. -/
theorem upward_mul_div {u : UnpackedFloat} (hu : Upward u) {m : Nat} {e : Int} (hm : 0 < m) :
    Upward (UnpackedFloat.mul Format.binary64 u (.finite .positive m e hm)) ∧
      Upward (UnpackedFloat.div Format.binary64 u (.finite .positive m e hm)) := by
  cases hu with
  | zero s => exact ⟨.zero _, .zero _⟩
  | infinity => exact ⟨.infinity, .infinity⟩
  | finite m' e' hm' =>
      exact ⟨upward_roundWithAccuracy _ _ _ _, upward_roundWithAccuracy _ _ _ _⟩

theorem upward_ofNat (n : Nat) : Upward (Float.ofNat n).toModel.unpack := by
  show Upward (Float.ofScientific n false 0).toModel.unpack
  unfold Float.ofScientific
  split
  · have hwhole : Upward (n.toUInt64.toFloat).toModel.unpack :=
      upward_pack (upward_normalize _ _ _)
    have hone : (Float.ofBits 0x3FF0000000000000).toModel.unpack =
        .finite .positive (2 ^ 52) (-52) (by decide) := rfl
    show Upward (n.toUInt64.toFloat * Float.ofBits 0x3FF0000000000000).toModel.unpack
    refine upward_pack ?_
    rw [hone]
    exact (upward_mul_div hwhole _).1
  · show Upward (Float.Model.pack (UnpackedFloat.ofScientific Format.binary64 n 0)).unpack
    refine upward_pack ?_
    unfold UnpackedFloat.ofScientific
    split_ifs
    · exact .zero _
    · exact .infinity
    · exact .zero _
    · exact (upward_mul_div (.finite _ _ _) _).1
    · exact (upward_mul_div (.finite _ _ _) _).2

/-! ### Rounding -/

/-- What stands for a mantissa whose last `k` bits are dropped: the rest of it, and two bits that
tell how what was dropped compares with half of the last place. -/
structure Dropped (n k : Nat) (em : ExtendedMantissa) : Prop where
  mantissa : em.mantissa = n / 2 ^ k
  roundBit : em.roundBit = true ↔ 2 ^ k ≤ 2 * (n % 2 ^ k)
  stickyBit : em.stickyBit = true ↔ n % 2 ^ k ≠ 0 ∧ 2 * (n % 2 ^ k) ≠ 2 ^ k

theorem dropped_succ {n k : Nat} {em : ExtendedMantissa} (h : Dropped n k em) :
    Dropped n (k + 1) em.shiftRightOne := by
  obtain ⟨hm, hround, hsticky⟩ := h
  have hrest : n % 2 ^ (k + 1) = n % 2 ^ k + 2 ^ k * (n / 2 ^ k % 2) := Nat.mod_pow_succ
  have hlt : n % 2 ^ k < 2 ^ k := Nat.mod_lt n (Nat.two_pow_pos k)
  have hbit := Nat.mod_two_eq_zero_or_one (n / 2 ^ k)
  refine ⟨?_, ?_, ?_⟩
  · show em.mantissa / 2 = _
    rw [hm, Nat.div_div_eq_div_mul, Nat.pow_succ]
  · show (em.mantissa % 2 != 0) = true ↔ _
    rw [hm, hrest, Nat.pow_succ]
    rcases hbit with h | h <;> simp [h] <;> omega
  · show (em.roundBit || em.stickyBit) = true ↔ _
    rw [Bool.or_eq_true, hround, hsticky, hrest, Nat.pow_succ]
    rcases hbit with h | h <;> simp [h] <;> omega

theorem dropped_shiftRight (n k : Nat) :
    Dropped n k (ExtendedMantissa.ofMantissaAndAccuracy n .exact >>> k) := by
  induction k with
  | zero =>
      have hrest : n % 2 ^ 0 = 0 := Nat.mod_one n
      refine ⟨(Nat.div_one n).symm, ?_, ?_⟩
      · rw [hrest]
        exact iff_of_false Bool.false_ne_true (by decide)
      · rw [hrest]
        exact iff_of_false Bool.false_ne_true (by decide)
  | succ k ih => exact dropped_succ ih

/-- The two bits are enough to round as the whole of what was dropped would. -/
theorem roundedMantissa_of_dropped {n k : Nat} {em : ExtendedMantissa} (h : Dropped n k em) :
    em.roundedMantissa = divNearestEven n (2 ^ k) := by
  obtain ⟨m, r, s⟩ := em
  obtain ⟨rfl, hround, hsticky⟩ := h
  have hpos := Nat.two_pow_pos k
  unfold divNearestEven ExtendedMantissa.roundedMantissa ExtendedMantissa.accuracy
    Accuracy.roundToNearestEven
  dsimp only
  cases r <;> cases s <;> simp at hround hsticky <;> dsimp only <;> split_ifs <;> omega

/-- How many bits of a mantissa are dropped so that it fits. -/
def excess (n : Nat) (e : Int) : Nat := (max (n.log2 + e - 52) (-1074) - e).toNat

theorem shiftToTargetExponent_eq (n : Nat) (e : Int) :
    ∃ em : ExtendedMantissa, shiftToTargetExponent Format.binary64 n e .exact =
      (em, e + excess n e) ∧ Dropped n (excess n e) em := by
  have hmin : Format.binary64.minExponent = -1074 := by decide
  have htarget : Format.binary64.targetExponent (totalExponent n e) =
      max (n.log2 + e - 52) (-1074) := by
    unfold Format.targetExponent totalExponent
    rw [hmin]
    show max ((n.log2 : Int) + 1 + e - (53 : Nat)) (-1074) = _
    omega
  unfold shiftToTargetExponent
  rw [htarget]
  exact ⟨_, rfl, dropped_shiftRight _ _⟩

/-- Once the bits that do not fit are dropped, at most one carry is left to be dealt with. -/
theorem excess_rounded {r : Nat} {e : Int} (hr : 0 < r) (hle : r ≤ 2 ^ 53) (he : -1074 ≤ e) :
    excess r e = if r = 2 ^ 53 then 1 else 0 := by
  unfold excess
  split
  · rename_i h
    rw [h, Nat.log2_two_pow]
    omega
  · rename_i h
    have hlog : r.log2 < 53 := (Nat.log2_lt (Nat.ne_of_gt hr)).2 (by omega)
    omega

/-- What is left of a number with bits to spare when the bits that do not fit are dropped. -/
theorem canonical_dropped {n : Nat} {e : Int} (hlog : 52 ≤ n.log2) :
    Canonical (n / 2 ^ excess n e) (e + excess n e) where
  mantissa := by
    rw [Nat.div_lt_iff_lt_mul (Nat.two_pow_pos _), ← Nat.pow_add]
    refine Nat.lt_of_lt_of_le Nat.lt_log2_self (Nat.pow_le_pow_right (by decide) ?_)
    unfold excess
    omega
  exponent := by
    unfold excess
    omega
  full := by
    by_cases h : n.log2 + e - 52 ≤ -1074
    · right
      unfold excess
      omega
    · left
      have hk : 52 + excess n e = n.log2 := by
        unfold excess
        omega
      rw [Nat.le_div_iff_mul_le (Nat.two_pow_pos _), ← Nat.pow_add, hk]
      refine Nat.log2_self_le ?_
      rintro rfl
      simp at hlog

/-- A number with bits to spare is rounded to the nearest that can be kept, and a carry makes its
exponent larger by one. -/
theorem roundWithAccuracy_eq {n : Nat} {e : Int} (s : Sign) (hlog : 52 ≤ n.log2)
    (hn : 0 < n / 2 ^ excess n e) :
    ∃ m e' hm, roundWithAccuracy Format.binary64 s n e .exact = .finite s m e' hm ∧
      Canonical m e' ∧ e' ≤ e + excess n e + 1 ∧
      units m e' = units (divNearestEven n (2 ^ excess n e)) (e + excess n e) := by
  obtain ⟨hfits, hmin, hfull⟩ := canonical_dropped (e := e) hlog
  obtain ⟨em, hshift, hem⟩ := shiftToTargetExponent_eq n e
  obtain ⟨hlow, hhigh⟩ := divNearestEven_bounds n (2 ^ excess n e)
  have hrounded := roundedMantissa_of_dropped hem
  obtain ⟨em', hshift', hem'⟩ := shiftToTargetExponent_eq em.roundedMantissa (e + excess n e)
  unfold roundWithAccuracy
  rw [hshift]
  dsimp only
  rw [hshift']
  dsimp only
  rw [hrounded] at hem' ⊢
  generalize divNearestEven n (2 ^ excess n e) = r at hlow hhigh hem' ⊢
  have hm := hem'.mantissa
  rw [excess_rounded (by omega) (by omega) hmin] at hm ⊢
  by_cases hcarry : r = 2 ^ 53
  · rw [if_pos hcarry] at hm ⊢
    have hm52 : em'.mantissa = 2 ^ 52 := by
      rw [hm, hcarry]
      rfl
    rw [dif_neg (by omega)]
    refine ⟨_, _, _, rfl, ⟨by omega, by omega, .inl (by omega)⟩, le_refl _, ?_⟩
    have hexp : (e + excess n e + (1 : Nat) + 1074).toNat = (e + excess n e + 1074).toNat + 1 := by
      omega
    unfold units
    rw [hm52, hcarry, hexp, Nat.pow_succ' (n := (e + excess n e + 1074).toNat), ← Nat.mul_assoc]
    rfl
  · rw [if_neg hcarry] at hm ⊢
    rw [pow_zero, Nat.div_one] at hm
    rw [dif_neg (by omega)]
    refine ⟨_, _, _, rfl, ⟨by omega, by omega, ?_⟩, by omega, ?_⟩
    · exact hfull.imp (fun h => by omega) fun h => by omega
    · rw [hm, Int.natCast_zero, Int.add_zero]

/-! ### Growth by a factor that is at least one -/

/-- What overflows amounts to anything. -/
theorem amounts_overflow {u : UnpackedFloat} (a : ℕ∞) (h : u = .infinity .positive) :
    ∃ b, Amounts (Float.Model.pack u).unpack b ∧ a ≤ b := by
  subst h
  exact ⟨⊤, .infinity, le_top⟩

/-- What is kept of a positive number is at least what the number was. -/
theorem amounts_pack {m : Nat} {e : Int} (hm : 0 < m) (h : Canonical m e) :
    ∃ a, Amounts (Float.Model.pack (.finite .positive m e hm)).unpack a ∧ units m e ≤ a := by
  rw [unpack_pack hm h]
  split
  · exact ⟨_, .finite hm h ‹_›, le_refl _⟩
  · exact ⟨⊤, .infinity, le_top⟩

/-- The product with a mantissa and exponent of one or more, less the bits that do not fit. -/
theorem units_le_dropped {m m' : Nat} {e e' : Int} (hm : 0 < m) (h : Canonical m e)
    (h' : Canonical m' e') (hone : oneUnits ≤ units m' e') :
    52 ≤ (m * m').log2 ∧ 0 < m * m' / 2 ^ excess (m * m') (e + e') ∧
      units m e ≤ units (m * m' / 2 ^ excess (m * m') (e + e'))
        (e + e' + excess (m * m') (e + e')) := by
  have hsmall : ¬ (e' < -52 ∨ e' = -52 ∧ m' < 2 ^ 52) := fun hlt =>
    Nat.not_lt.2 hone ((units_lt_iff h' canonical_one).2 hlt)
  have hfull : 2 ^ 52 ≤ m' := h'.full.resolve_right (by omega)
  have hpos : m * m' ≠ 0 := Nat.mul_ne_zero (Nat.ne_of_gt hm) (by omega)
  have hlog : 52 ≤ (m * m').log2 :=
    (Nat.le_log2 hpos).2 (Nat.le_trans hfull (Nat.le_mul_of_pos_left _ hm))
  have hdropped := canonical_dropped (e := e + e') hlog
  generalize hk : excess (m * m') (e + e') = k at hdropped ⊢
  have hexp : e ≤ e + e' + k := by
    rcases h.full with hm52 | hmin
    · have hlog' : 104 ≤ (m * m').log2 := by
        rw [Nat.le_log2 hpos, show 2 ^ 104 = 2 ^ 52 * 2 ^ 52 from rfl]
        exact Nat.mul_le_mul hm52 hfull
      unfold excess at hk
      omega
    · have := hdropped.exponent
      omega
  have hsame : e + e' + k = e → m ≤ m * m' / 2 ^ k := by
    intro heq
    have hk52 : 2 ^ k ≤ m' :=
      Nat.le_trans (Nat.pow_le_pow_right (by decide) (by omega)) hfull
    rw [Nat.le_div_iff_mul_le (Nat.two_pow_pos _)]
    exact Nat.mul_le_mul_left _ hk52
  refine ⟨hlog, ?_, Nat.not_lt.1 fun hlt => ?_⟩
  · rcases hdropped.full with hbits | hmin
    · omega
    · have hmin' := h.exponent
      have := hsame (by omega)
      omega
  · rcases (units_lt_iff hdropped h).1 hlt with hlt | ⟨heq, hlt⟩
    · omega
    · exact Nat.not_lt.2 (hsame heq) hlt

/-- A product with a factor of one or more is at least what the other factor was. -/
theorem atLeast_mul {x y : Float} {a : ℕ∞} (hx : AtLeast a x) (ha : 0 < a)
    (hy : AtLeast oneUnits y) : AtLeast a (x * y) := by
  obtain ⟨b, hx, hab⟩ := hx
  obtain ⟨c, hy, hone⟩ := hy
  show ∃ d, Amounts (Float.Model.pack
    (UnpackedFloat.mul Format.binary64 x.toModel.unpack y.toModel.unpack)).unpack d ∧ a ≤ d
  generalize x.toModel.unpack = u at hx
  generalize y.toModel.unpack = v at hy
  cases hx with
  | zero s => exact absurd hab (not_le.2 ha)
  | finite hm h he =>
      cases hy with
      | zero s => exact absurd (Nat.cast_le.1 hone) (Nat.not_le.2 (units_pos (by decide) _))
      | finite hm' h' he' =>
          obtain ⟨hlog, hpos, hle⟩ := units_le_dropped hm h h' (Nat.cast_le.1 hone)
          obtain ⟨m, e, hm, hround, hcanonical, -, heq⟩ := roundWithAccuracy_eq .positive hlog hpos
          obtain ⟨d, hd, hmd⟩ := amounts_pack hm hcanonical
          refine ⟨d, ?_, le_trans hab (le_trans (Nat.cast_le.2 (Nat.le_trans hle ?_)) hmd)⟩
          · rw [← hround] at hd
            exact hd
          · rw [heq]
            exact Nat.mul_le_mul_right _ (divNearestEven_bounds _ _).1
      | infinity => exact amounts_overflow a rfl
  | infinity =>
      cases hy with
      | zero s => exact absurd (Nat.cast_le.1 hone) (Nat.not_le.2 (units_pos (by decide) _))
      | finite hm' h' he' => exact amounts_overflow a rfl
      | infinity => exact amounts_overflow a rfl

end QueueRelay.Number

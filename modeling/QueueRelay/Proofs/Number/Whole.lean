/-
The double that stands for a whole number of 64 bits.

Such a number is rounded once, to a multiple of the power of two that leaves it 53 bits: `held`.
Below `2 ^ 53` nothing is lost.  Above, the number held may be larger than the one given, but then
no double lies between the two (`units_le_of_lt_held`), so a double that is below the number held
is not above the one given.
-/
import QueueRelay.Proofs.Number.Rounding

namespace QueueRelay.Number

open Float.Model Float.Model.UnpackedFloat

/-- The whole number that the double nearest to `k` amounts to. -/
def held (k : Nat) : Nat :=
  divNearestEven k (2 ^ (k.log2 - 52)) * 2 ^ (k.log2 - 52)

theorem zero_lt_oneUnits : 0 < oneUnits := units_pos (by decide) _

/-! ### What is given and what is held -/

theorem held_of_lt {k : Nat} (h : k < 2 ^ 53) : held k = k := by
  have hlog : k.log2 - 52 = 0 := by
    rcases Nat.eq_zero_or_pos k with rfl | hpos
    · rfl
    · have := (Nat.log2_lt (Nat.ne_of_gt hpos)).2 h
      omega
  have hsame := divNearestEven_cancel k Nat.one_pos
  rw [held, hlog, pow_zero, Nat.mul_one]
  rwa [Nat.mul_one] at hsame

/-- Every whole number up to `2 ^ 53` is held as it is. -/
theorem held_of_le {k : Nat} (h : k ≤ 2 ^ 53) : held k = k := by
  rcases Nat.lt_or_eq_of_le h with hlt | rfl
  · exact held_of_lt hlt
  · decide +kernel

/-- What is left of a number when its last bits are dropped has no more than 53. -/
theorem div_lt_of_log2 (k : Nat) : k / 2 ^ (k.log2 - 52) < 2 ^ 53 := by
  rw [Nat.div_lt_iff_lt_mul (Nat.two_pow_pos _), ← Nat.pow_add]
  exact Nat.lt_of_lt_of_le Nat.lt_log2_self (Nat.pow_le_pow_right (by decide) (by omega))

/-- Rounding may reach the bound of what 64 bits count, but does not go beyond. -/
theorem held_le {k : Nat} (h : k < 2 ^ 64) : held k ≤ 2 ^ 64 := by
  have hlog : k.log2 - 52 ≤ 11 := by
    rcases Nat.eq_zero_or_pos k with rfl | hpos
    · decide
    · have := (Nat.log2_lt (Nat.ne_of_gt hpos)).2 h
      omega
  have hfits := div_lt_of_log2 k
  have hbound := (divNearestEven_bounds k (2 ^ (k.log2 - 52))).2
  calc held k ≤ 2 ^ 53 * 2 ^ 11 :=
        Nat.mul_le_mul (by omega) (Nat.pow_le_pow_right (by decide) hlog)
    _ = 2 ^ 64 := by rw [← Nat.pow_add]

/-! ### Nothing lies between a number and the next -/

theorem units_succ_le {m m' : Nat} {e e' : Int} (h : Canonical m e) (h' : Canonical m' e')
    (hlt : units m e < units m' e') : units (m + 1) e ≤ units m' e' := by
  have hfits := h.mantissa
  rcases (units_lt_iff h h').1 hlt with he | ⟨rfl, hm⟩
  · have hmin := h.exponent
    have hfull : 2 ^ 52 ≤ m' := h'.full.resolve_right (by omega)
    calc units (m + 1) e ≤ 2 ^ 53 * 2 ^ (e + 1074).toNat := Nat.mul_le_mul_right _ hfits
      _ ≤ units (2 ^ 52) e' := carry_le hmin he
      _ ≤ units m' e' := Nat.mul_le_mul_right _ hfull
  · exact Nat.mul_le_mul_right _ hm

/-- A double that is above a number that can be kept is not below the next. -/
theorem Amounts.next_le {u : UnpackedFloat} {g m : Nat} {e : Int} (h : Amounts u g)
    (hm : Canonical m e) (hlt : units m e < g) : units (m + 1) e ≤ g := by
  generalize hg : (g : ℕ∞) = a at h
  cases h with
  | zero s =>
      have hzero : g = 0 := Nat.cast_eq_zero.1 hg
      omega
  | finite hm' h' he =>
      rw [Nat.cast_inj] at hg
      subst hg
      exact units_succ_le hm h' hlt
  | infinity => exact absurd hg (ENat.natCast_ne_top g)

theorem units_natCast (m q : Nat) : units m q = m * 2 ^ q * oneUnits := by
  -- The exponent is kept as a variable, so that nothing evaluates the power.
  obtain ⟨p, hp⟩ : ∃ p : Nat, (p : Int) = 1074 := ⟨1074, rfl⟩
  rw [oneUnits_eq hp, units, show ((q : Int) + 1074).toNat = q + p by omega, Nat.pow_add,
    Nat.mul_assoc]

/-- The first 53 bits of a number that has more. -/
theorem canonical_first {k : Nat} (h : 2 ^ 53 ≤ k) :
    Canonical (k / 2 ^ (k.log2 - 52)) (k.log2 - 52 : Nat) := by
  have hlog : 53 ≤ k.log2 := (Nat.le_log2 (by omega)).2 h
  refine ⟨div_lt_of_log2 k, by omega, .inl ?_⟩
  rw [Nat.le_div_iff_mul_le (Nat.two_pow_pos _), ← Nat.pow_add,
    show 52 + (k.log2 - 52) = k.log2 by omega]
  exact Nat.log2_self_le (by omega)

/-- A double below the number held is not above the one given. -/
theorem units_le_of_lt_held {u : UnpackedFloat} {g k : Nat} (h : Amounts u g)
    (hlt : g < held k * oneUnits) : g ≤ k * oneUnits := by
  refine Nat.not_lt.1 fun habove => ?_
  -- What is held is above what is given, so bits were dropped.
  have hlarge : 2 ^ 53 ≤ k := Nat.not_lt.1 fun hsmall => by
    rw [held_of_lt hsmall] at hlt
    omega
  have hbelow : units (k / 2 ^ (k.log2 - 52)) (k.log2 - 52 : Nat) < g := by
    rw [units_natCast]
    exact Nat.lt_of_le_of_lt (Nat.mul_le_mul_right _ (Nat.div_mul_le_self k _)) habove
  have hnext := h.next_le (canonical_first hlarge) hbelow
  rw [units_natCast] at hnext
  have hheld : held k ≤ (k / 2 ^ (k.log2 - 52) + 1) * 2 ^ (k.log2 - 52) :=
    Nat.mul_le_mul_right _ (divNearestEven_bounds k _).2
  exact Nat.not_lt.2 (Nat.le_trans (Nat.mul_le_mul_right oneUnits hheld) hnext) hlt

/-! ### Results that are kept as they are -/

theorem amounts_kept {u : UnpackedFloat} {a : ℕ∞} (h : Amounts u a) :
    Amounts (Float.Model.pack u).unpack a := by
  cases h with
  | zero s => cases s <;> exact .zero _
  | finite hm h he =>
      rw [unpack_pack hm h, if_pos he]
      exact .finite hm h he
  | infinity => exact .infinity

/-- A result with bits to spare that is far from overflow amounts to what it was rounded to. -/
theorem amounts_rounded {n : Nat} {e : Int} (hlog : 52 ≤ n.log2) (hn : 0 < n / 2 ^ excess n e)
    (hfits : e + excess n e ≤ 970) :
    Amounts (roundWithAccuracy Format.binary64 .positive n e .exact)
      (units (divNearestEven n (2 ^ excess n e)) (e + excess n e) : Nat) := by
  obtain ⟨m, e', hm, hround, hcanonical, he, hunits⟩ := roundWithAccuracy_eq .positive hlog hn
  rw [hround, ← hunits]
  exact .finite hm hcanonical (by omega)

theorem log2_mul_two_pow {m : Nat} (hm : 0 < m) (k : Nat) : (m * 2 ^ k).log2 = m.log2 + k := by
  refine (Nat.log2_eq_iff (Nat.ne_of_gt (Nat.mul_pos hm (Nat.two_pow_pos k)))).2 ⟨?_, ?_⟩
  · rw [Nat.pow_add]
    exact Nat.mul_le_mul_right _ (Nat.log2_self_le (Nat.ne_of_gt hm))
  · rw [Nat.add_right_comm, Nat.pow_add]
    exact Nat.mul_lt_mul_of_pos_right Nat.lt_log2_self (Nat.two_pow_pos k)

/-- A product with one is the other factor. -/
theorem amounts_mul_one {m : Nat} {e : Int} (hm : 0 < m) (h : Canonical m e) (he : e ≤ 970) :
    Amounts (UnpackedFloat.mul Format.binary64 (.finite .positive m e hm)
      (.finite .positive (2 ^ 52) (-52) (by decide))) (units m e) := by
  have hlog := log2_mul_two_pow hm 52
  have hexcess : excess (m * 2 ^ 52) (e + -52) = 52 := by
    unfold excess
    have := h.exponent
    have := (Nat.log2_lt (Nat.ne_of_gt hm)).2 h.mantissa
    rcases h.full with hfull | hmin
    · have := (Nat.le_log2 (Nat.ne_of_gt hm)).2 hfull
      omega
    · omega
  have hround := amounts_rounded (n := m * 2 ^ 52) (e := e + -52) (by omega)
    (by rw [hexcess, Nat.mul_div_cancel _ (by decide)]; exact hm) (by omega)
  rw [hexcess, divNearestEven_cancel m (by decide),
    show e + -52 + ((52 : Nat) : Int) = e by omega] at hround
  exact hround

/-! ### The double that is made of a whole number -/

theorem round_whole {k : Nat} (hpos : 0 < k) (h : k < 2 ^ 53) :
    UnpackedFloat.round Format.binary64 .positive k 0 =
      roundWithAccuracy Format.binary64 .positive (k * 2 ^ (52 - k.log2)) (-(52 - k.log2 : Nat))
        .exact := by
  have hlog := (Nat.log2_lt (Nat.ne_of_gt hpos)).2 h
  have hmin : Format.binary64.minExponent = -1074 := by decide
  have htarget : Format.binary64.targetExponent (totalExponent k 0) = -(52 - k.log2 : Nat) := by
    unfold Format.targetExponent totalExponent
    rw [hmin]
    show max ((k.log2 : Int) + 1 + 0 - (53 : Nat)) (-1074) = _
    omega
  unfold UnpackedFloat.round decreaseExponent
  rw [htarget]
  dsimp only
  rw [show (0 - -((52 - k.log2 : Nat) : Int)).toNat = 52 - k.log2 by omega, Nat.shiftLeft_eq,
    Int.zero_sub]

/-- A number that the mantissa has room for is converted as it is. -/
theorem toFloat_eq {k : Nat} (hpos : 0 < k) (h : k < 2 ^ 53) :
    ∃ m e hm, (k.toUInt64.toFloat).toModel.unpack = .finite .positive m e hm ∧
      Canonical m e ∧ e ≤ 1 ∧ units m e = k * oneUnits := by
  have hlog := (Nat.log2_lt (Nat.ne_of_gt hpos)).2 h
  have hfull := log2_mul_two_pow hpos (52 - k.log2)
  have hexcess : excess (k * 2 ^ (52 - k.log2)) (-(52 - k.log2 : Nat)) = 0 := by
    unfold excess
    omega
  obtain ⟨m, e, hm, hround, hcanonical, he, hunits⟩ :=
    roundWithAccuracy_eq (n := k * 2 ^ (52 - k.log2)) (e := -(52 - k.log2 : Nat)) .positive
      (by omega) (by rw [hexcess, pow_zero, Nat.div_one]; exact Nat.mul_pos hpos (Nat.two_pow_pos _))
  refine ⟨m, e, hm, ?_, hcanonical, by omega, ?_⟩
  · have hword : k.toUInt64.toNat = k := Nat.mod_eq_of_lt (by omega)
    have hconvert : UnpackedFloat.ofUInt64 Format.binary64 k.toUInt64 = .finite .positive m e hm := by
      show UnpackedFloat.normalize Format.binary64 k.toUInt64.toNat 0 .positive = _
      rw [hword, ← hround, ← round_whole hpos h]
      unfold UnpackedFloat.normalize
      rw [Int.compare_eq_gt.2 (by omega)]
      rfl
    show (Float.Model.pack (UnpackedFloat.ofUInt64 Format.binary64 k.toUInt64)).unpack = _
    rw [hconvert, unpack_pack hm hcanonical, if_pos (by omega)]
  · obtain ⟨p, hp⟩ : ∃ p : Nat, (p : Int) = 1074 := ⟨1074, rfl⟩
    have hsame := divNearestEven_cancel (k * 2 ^ (52 - k.log2)) Nat.one_pos
    rw [Nat.mul_one] at hsame
    rw [hunits, hexcess, pow_zero, hsame, units, oneUnits_eq hp, Nat.mul_assoc, ← Nat.pow_add]
    congr 2
    omega

/-- A larger number is multiplied by a power of two before it is converted, and all bits that do
not fit are dropped at once. -/
theorem amounts_mul_scaled {k : Nat} (hlarge : 2 ^ 53 ≤ k) (h : k < 2 ^ 64) :
    Amounts (roundWithAccuracy Format.binary64 .positive (k * 2 ^ 53) (-53) .exact)
      (held k * oneUnits : Nat) := by
  have hpos : 0 < k := Nat.lt_of_lt_of_le (by decide) hlarge
  have hlog : 53 ≤ k.log2 := (Nat.le_log2 (Nat.ne_of_gt hpos)).2 hlarge
  have hlog64 : k.log2 < 64 := (Nat.log2_lt (Nat.ne_of_gt hpos)).2 h
  have hscaled := log2_mul_two_pow hpos 53
  have hexcess : excess (k * 2 ^ 53) (-53) = k.log2 - 52 + 53 := by
    unfold excess
    omega
  have hrest : 0 < k / 2 ^ (k.log2 - 52) :=
    Nat.div_pos (Nat.le_trans (Nat.pow_le_pow_right (by decide) (Nat.sub_le _ _))
      (Nat.log2_self_le (Nat.ne_of_gt hpos))) (Nat.two_pow_pos _)
  have hround := amounts_rounded (n := k * 2 ^ 53) (e := -53) (by omega)
    (by rw [hexcess, Nat.pow_add, Nat.mul_div_mul_right _ _ (Nat.two_pow_pos 53)]; exact hrest)
    (by omega)
  rw [hexcess, Nat.pow_add, divNearestEven_mul _ _ (Nat.two_pow_pos 53),
    show -53 + ((k.log2 - 52 + 53 : Nat) : Int) = (k.log2 - 52 : Nat) by omega,
    units_natCast] at hround
  exact hround

/-- **The double that is made of a whole number of 64 bits amounts to what is held of it.** -/
theorem amounts_ofNat {k : Nat} (h : k < 2 ^ 64) :
    Amounts (Float.ofNat k).toModel.unpack (held k * oneUnits : Nat) := by
  rcases Nat.eq_zero_or_pos k with rfl | hpos
  · have hzero : (Float.ofNat 0).toModel.unpack = .zero .positive := rfl
    rw [hzero, held_of_lt (by decide), Nat.zero_mul]
    exact .zero _
  show Amounts (Float.ofScientific k false 0).toModel.unpack _
  unfold Float.ofScientific
  rcases Nat.lt_or_ge k (2 ^ 53) with hsmall | hlarge
  · have hone : (Float.ofBits 0x3FF0000000000000).toModel.unpack =
        .finite .positive (2 ^ 52) (-52) (by decide) := rfl
    obtain ⟨m, e, hm, hunpack, hcanonical, he, hunits⟩ := toFloat_eq hpos hsmall
    rw [dif_pos ⟨hsmall, by decide⟩, held_of_lt hsmall]
    show Amounts (Float.Model.pack (UnpackedFloat.mul Format.binary64
      (k.toUInt64.toFloat).toModel.unpack
      (Float.ofBits 0x3FF0000000000000).toModel.unpack)).unpack _
    rw [hunpack, hone, ← hunits]
    exact amounts_kept (amounts_mul_one hm hcanonical (by omega))
  · have hbits : (2 : Int) ^ Format.binary64.exponentBits = 2048 := by decide
    have hconvert : UnpackedFloat.ofScientific Format.binary64 k 0 =
        roundWithAccuracy Format.binary64 .positive (k * 2 ^ 53) (-53) .exact := by
      unfold UnpackedFloat.ofScientific
      rw [hbits, dif_neg (by omega), if_neg (by decide), if_neg (by omega), if_pos (by decide)]
      show roundWithAccuracy Format.binary64 .positive (k <<< 53 * 1) (-53) .exact = _
      rw [Nat.mul_one, Nat.shiftLeft_eq]
    rw [dif_neg (fun hsmall => Nat.not_lt.2 hlarge hsmall.1)]
    show Amounts (Float.Model.pack (UnpackedFloat.ofScientific Format.binary64 k 0)).unpack _
    rw [hconvert]
    exact amounts_kept (amounts_mul_scaled hlarge h)

end QueueRelay.Number

/-
No wait of a backoff but the first is shorter than its initial delay and its cap.

The wait before attempt `n` is the initial delay times a power, cut down to the cap.  The factor
counts as one or more, so the power does too: squaring and multiplying never lead below one,
whatever is rounded and even past the largest double, which is `atLeast_power`.  So the product
is no shorter than the initial delay, and one that is too large to be a number counts as the cap.

Both delays pass through a double on the way, and so does the least wait they are compared with:
`least?` is the shorter of the two as a double holds it, read back as a span.
-/
import QueueRelay.Backoff
import QueueRelay.Proofs.Number.Rounding

namespace QueueRelay

open Number Float.Model Float.Model.UnpackedFloat

namespace Duration

/-- A span that was read from a double is what the double amounts to, rounded once. -/
theorem nanos_of_seconds {x : Float} {d : Duration} (h : ofSecondsFloat? x = some d) :
    ∃ n : Nat, Amounts x.toModel.unpack n ∧
      d.nanos = divNearestEven (n * nanosPerSecond) oneUnits := by
  unfold ofSecondsFloat? at h
  cases hparts : Binary64.of? x with
  | none => simp [hparts] at h
  | some b =>
      rw [hparts] at h
      dsimp only at h
      split_ifs at h with hnegative hbound
      cases h
      obtain ⟨n, hn, hscaled, -⟩ := scaled_of_parts hparts (Bool.eq_false_iff.2 hnegative)
      exact ⟨n, hn, hscaled _⟩

/-- A larger double is not read as a shorter span. -/
theorem nanos_mono {x y : Float} {a b : ℕ∞} {d e : Duration} (hx : Amounts x.toModel.unpack a)
    (hy : Amounts y.toModel.unpack b) (hab : a ≤ b) (hd : ofSecondsFloat? x = some d)
    (he : ofSecondsFloat? y = some e) : d.nanos ≤ e.nanos := by
  obtain ⟨n, hn, hdn⟩ := nanos_of_seconds hd
  obtain ⟨k, hk, hek⟩ := nanos_of_seconds he
  rw [hx.unique hn, hy.unique hk, Nat.cast_le] at hab
  rw [hdn, hek]
  exact divNearestEven_mono (Nat.mul_le_mul_right _ hab)

/-- The number of seconds in a span is not below zero. -/
theorem amounts_toSeconds (d : Duration) : ∃ a, Amounts d.toSeconds.toModel.unpack a := by
  have hbillion : (Float.ofNat nanosPerSecond).toModel.unpack =
      .finite .positive 0x1DCD6500000000 (-23) (by decide) := rfl
  have hrest : Upward (Float.ofNat d.subsecond / Float.ofNat nanosPerSecond).toModel.unpack := by
    refine upward_pack ?_
    rw [hbillion]
    exact (upward_mul_div (upward_ofNat _) _).2
  exact amounts_of_upward (upward_pack (upward_add (upward_ofNat _) hrest))

end Duration

namespace Backoff

/-! ### Comparing doubles -/

section Comparing

variable {x y : Float} {a b : ℕ∞}

theorem amounts_larger (hx : Amounts x.toModel.unpack a) (hy : Amounts y.toModel.unpack b) :
    Amounts (larger x y).toModel.unpack (max a b) := by
  unfold larger
  rw [if_neg (not_isNaN hx), if_neg (not_isNaN hy)]
  split_ifs with h
  · rwa [max_eq_right (le_of_lt ((lt_iff hx hy).1 h))]
  · rwa [max_eq_left (not_lt.1 fun hlt => h ((lt_iff hx hy).2 hlt))]

theorem amounts_smaller (hx : Amounts x.toModel.unpack a) (hy : Amounts y.toModel.unpack b) :
    Amounts (smaller x y).toModel.unpack (min a b) := by
  unfold smaller
  rw [if_neg (not_isNaN hx), if_neg (not_isNaN hy)]
  split_ifs with h
  · rwa [min_eq_right (le_of_lt ((lt_iff hy hx).1 h))]
  · rwa [min_eq_left (not_lt.1 fun hlt => h ((lt_iff hy hx).2 hlt))]

theorem amounts_one : Amounts (1.0 : Float).toModel.unpack oneUnits :=
  .finite (by decide) canonical_one (by decide)

theorem amounts_zero : Amounts (0.0 : Float).toModel.unpack 0 :=
  .zero .positive

end Comparing

/-! ### The growth -/

/-- Whatever factor is given counts as one or more. -/
theorem atLeast_factor (x : Float) : AtLeast oneUnits (larger x 1.0) := by
  have hone : AtLeast oneUnits 1.0 := ⟨_, amounts_one, le_refl _⟩
  unfold larger
  split_ifs with hx hy hlt
  · exact hone
  · exact absurd hy (not_isNaN amounts_one)
  · exact hone
  · exact atLeast_of_not_lt hx amounts_one oneUnits_pos hlt

theorem atLeast_powerFrom {acc base : Float} (n : Nat) (hacc : AtLeast oneUnits acc)
    (hbase : AtLeast oneUnits base) : AtLeast oneUnits (powerFrom acc base n) := by
  have hstep : ∀ {acc base : Float} (n : Nat), AtLeast oneUnits acc → AtLeast oneUnits base →
      AtLeast oneUnits (if n % 2 = 1 then acc * base else acc) := by
    intro acc base n hacc hbase
    split_ifs
    · exact atLeast_mul hacc oneUnits_pos hbase
    · exact hacc
  induction acc, base, n using powerFrom.induct with
  | case1 acc base n hn =>
      rw [powerFrom, dif_pos hn]
      exact hstep n hacc hbase
  | case2 acc base n acc' hn ih =>
      rw [powerFrom, dif_neg hn]
      exact ih (hstep n hacc hbase) (atLeast_mul hbase oneUnits_pos hbase)

/-- A power of a factor that counts as one or more is one or more. -/
theorem atLeast_power (x : Float) (n : Nat) : AtLeast oneUnits (power (larger x 1.0) n) :=
  atLeast_powerFrom n ⟨_, amounts_one, le_refl _⟩ (atLeast_factor x)

/-! ### The least wait -/

variable {b : Backoff}

/-- The shorter of the initial delay and the cap, as a double holds it. -/
def least? (b : Backoff) : Option Duration :=
  Duration.ofSecondsFloat? (smaller b.initial.toSeconds b.cap.toSeconds)

theorem least_eq {i c : Duration} (hi : Duration.ofSecondsFloat? b.initial.toSeconds = some i)
    (hc : Duration.ofSecondsFloat? b.cap.toSeconds = some c) :
    b.least? = some ⟨min i.nanos c.nanos⟩ := by
  obtain ⟨x, hx⟩ := b.initial.amounts_toSeconds
  obtain ⟨y, hy⟩ := b.cap.amounts_toSeconds
  unfold least? smaller
  rw [if_neg (not_isNaN hx), if_neg (not_isNaN hy)]
  split_ifs with h
  · have hyx := le_of_lt ((lt_iff hy hx).1 h)
    rw [hc, min_eq_right (Duration.nanos_mono hy hx hyx hc hi)]
  · have hxy := not_lt.1 fun hlt => h ((lt_iff hy hx).2 hlt)
    rw [hi, min_eq_left (Duration.nanos_mono hx hy hxy hi hc)]

theorem atLeast_seconds (n : Nat) {i c : ℕ∞} (hi : Amounts b.initial.toSeconds.toModel.unpack i)
    (hpos : 0 < i) (hc : Amounts b.cap.toSeconds.toModel.unpack c) :
    AtLeast (min i c) (b.seconds n) := by
  obtain ⟨g, hg, hig⟩ := atLeast_mul ⟨i, hi, le_refl i⟩ hpos
    (atLeast_power b.factor (min (n - 1) maxExponent))
  unfold seconds
  dsimp only
  split_ifs
  · exact ⟨_, amounts_larger (amounts_smaller hg hc) amounts_zero,
      le_max_of_le_left (min_le_min_right c hig)⟩
  · exact ⟨_, amounts_larger hc amounts_zero, le_max_of_le_left (min_le_right i c)⟩

/-- **No wait of a backoff but the first is shorter than its least.** -/
theorem delay_ge {n : Nat} {l d : Duration} (hn : 1 ≤ n) (hl : b.least? = some l)
    (hd : b.delay? n = some d) : l.nanos ≤ d.nanos := by
  obtain ⟨i, hi⟩ := b.initial.amounts_toSeconds
  obtain ⟨c, hc⟩ := b.cap.amounts_toSeconds
  rw [delay?, if_neg (by omega)] at hd
  obtain ⟨k, hk, -⟩ := Duration.nanos_of_seconds hd
  refine Duration.nanos_mono (amounts_smaller hi hc) hk ?_ hl hd
  rcases eq_zero_or_pos (a := i) with rfl | hpos
  · exact le_trans (min_le_left 0 c) bot_le
  · obtain ⟨s, hs, hle⟩ := atLeast_seconds n hi hpos hc
    exact le_trans hle (le_of_eq (hs.unique hk))

end Backoff

end QueueRelay

/-
When a backoff keeps to its cap.

The cap is compared as a double.  A wait that stays below that double is never longer than the
cap, however it is rounded; every other wait is the cap as the double holds it.  So a cap that is
held as it is, or rounded down, is kept by all waits, and one that is rounded up is exceeded by
every wait that reaches it.  The largest caps are rounded up to `2 ^ 64` seconds, which no span
can have, and then no wait comes back at all.
-/
import QueueRelay.Proofs.Backoff
import QueueRelay.Proofs.Number.Whole
import QueueRelay.Config

namespace QueueRelay

open Number Float.Model Float.Model.UnpackedFloat

namespace Duration

/-! ### Spans and doubles -/

/-- A double is read as a span when it amounts to fewer than `2 ^ 64` seconds. -/
theorem ofSecondsFloat_eq {x : Float} {n : Nat} (h : Amounts x.toModel.unpack n) :
    ofSecondsFloat? x = if n < 2 ^ 64 * oneUnits then
      some ⟨divNearestEven (n * nanosPerSecond) oneUnits⟩ else none := by
  obtain ⟨b, hparts, hpositive⟩ := parts_of_amounts h
  obtain ⟨n', hn', hscaled, hbelow⟩ := scaled_of_parts hparts hpositive
  have hsame : n = n' := Nat.cast_inj.1 (h.unique hn')
  subst hsame
  unfold ofSecondsFloat?
  rw [hparts]
  dsimp only
  rw [hpositive, if_neg Bool.false_ne_true, hscaled,
    show (0x10000000000000000 : Nat) = 2 ^ 64 from rfl]
  by_cases hfits : n < 2 ^ 64 * oneUnits
  · rw [if_pos hfits, if_pos ((hbelow (2 ^ 64)).2 hfits)]
  · rw [if_neg hfits, if_neg fun h => hfits ((hbelow (2 ^ 64)).1 h)]

/-- A number of units that is not above `k` seconds is read as a span that is not longer. -/
theorem nanos_le_ofSeconds {g k u : Nat} (hu : 0 < u) (h : g ≤ k * u) :
    (⟨divNearestEven (g * nanosPerSecond) u⟩ : Duration).nanos ≤ (ofSeconds k).nanos := by
  show divNearestEven (g * nanosPerSecond) u ≤ k * nanosPerSecond
  calc divNearestEven (g * nanosPerSecond) u
      ≤ divNearestEven (k * nanosPerSecond * u) u := by
        rw [Nat.mul_right_comm]
        exact divNearestEven_mono (Nat.mul_le_mul_right _ h)
    _ = k * nanosPerSecond := divNearestEven_cancel _ hu

/-- A whole number of seconds in any unit; `2 ^ 64` are too many. -/
theorem ofUnits_eq {k u : Nat} (hu : 0 < u) (hk : k ≤ 2 ^ 64) :
    (if k * u < 2 ^ 64 * u then
      some (⟨divNearestEven (k * u * nanosPerSecond) u⟩ : Duration) else none) =
      if k = 2 ^ 64 then none else some (ofSeconds k) := by
  rw [Nat.mul_right_comm, divNearestEven_cancel _ hu]
  by_cases hfull : k = 2 ^ 64
  · rw [if_pos hfull, hfull, if_neg (Nat.lt_irrefl _)]
  · rw [if_neg hfull, if_pos (Nat.mul_lt_mul_of_pos_right (Nat.lt_of_le_of_ne hk hfull) hu)]
    rfl

/-- The span of a whole number of seconds as a double. -/
theorem amounts_ofSeconds {k : Nat} (h : k < 2 ^ 64) :
    Amounts (ofSeconds k).toSeconds.toModel.unpack (held k * oneUnits : Nat) := by
  have hseconds : (ofSeconds k).seconds = k := Nat.mul_div_cancel k (by decide)
  have hrest : (ofSeconds k).subsecond = 0 := Nat.mul_mod_left k nanosPerSecond
  have hnothing : (Float.ofNat 0 / Float.ofNat nanosPerSecond).toModel.unpack =
      .zero .positive := rfl
  unfold toSeconds
  rw [hseconds, hrest]
  show Amounts (Float.Model.pack (UnpackedFloat.add Format.binary64 (Float.ofNat k).toModel.unpack
    (Float.ofNat 0 / Float.ofNat nanosPerSecond).toModel.unpack)).unpack _
  rw [hnothing]
  refine amounts_kept ?_
  have hk := amounts_ofNat h
  generalize (Float.ofNat k).toModel.unpack = u at hk
  generalize ((held k * oneUnits : Nat) : ℕ∞) = a at hk
  cases hk with
  | zero s => cases s <;> exact .zero _
  | finite hm h he => exact .finite hm h he
  | infinity => exact .infinity

end Duration

namespace Backoff

/-! ### The wait before it is cut down -/

variable {b : Backoff}

/-- The wait before attempt `n` in seconds, before it is cut down to the cap. -/
def grown (b : Backoff) (n : Nat) : Float :=
  b.initial.toSeconds * power (larger b.factor 1.0) (min (n - 1) maxExponent)

theorem seconds_eq (b : Backoff) (n : Nat) :
    b.seconds n = larger (if (b.grown n).isFinite then smaller (b.grown n) b.cap.toSeconds
      else b.cap.toSeconds) 0.0 :=
  rfl

theorem pack_notANumber {u : UnpackedFloat} (h : u = .notANumber) :
    (Float.Model.pack u).unpack = .notANumber := by
  subst h
  rfl

theorem isFinite_iff {x : Float} {a : ℕ∞} (h : Amounts x.toModel.unpack a) :
    x.isFinite = true ↔ a ≠ ⊤ := by
  show x.toModel.unpack.isFinite = true ↔ a ≠ ⊤
  generalize x.toModel.unpack = u at h
  cases h with
  | zero s => exact iff_of_true rfl (ENat.natCast_ne_top 0)
  | finite hm h he => exact iff_of_true rfl (ENat.natCast_ne_top _)
  | infinity => exact iff_of_false Bool.false_ne_true fun h => h rfl

/-- What has grown is not below zero, unless it is no number. -/
theorem grown_upward (b : Backoff) (n : Nat) :
    (b.grown n).toModel.unpack = .notANumber ∨ ∃ a, Amounts (b.grown n).toModel.unpack a := by
  obtain ⟨i, hi⟩ := b.initial.amounts_toSeconds
  obtain ⟨p, hp, hone⟩ := atLeast_power b.factor (min (n - 1) maxExponent)
  unfold grown
  show (Float.Model.pack (UnpackedFloat.mul Format.binary64 _ _)).unpack = _ ∨
    ∃ a, Amounts (Float.Model.pack (UnpackedFloat.mul Format.binary64 _ _)).unpack a
  generalize b.initial.toSeconds.toModel.unpack = u at hi
  generalize (power (larger b.factor 1.0) (min (n - 1) maxExponent)).toModel.unpack = v at hp
  have hupward : Upward u := by cases hi <;> constructor
  cases hp with
  | zero s => exact absurd (Nat.cast_le.1 hone) (Nat.not_le.2 zero_lt_oneUnits)
  | finite hm h he => exact .inr (amounts_of_upward (upward_pack (upward_mul_div hupward hm).1))
  | infinity =>
      cases hi with
      | zero s => exact .inl (pack_notANumber rfl)
      | finite hm h he => exact .inr ((amounts_overflow 0 rfl).imp fun _ h => h.1)
      | infinity => exact .inr ((amounts_overflow 0 rfl).imp fun _ h => h.1)

/-- A wait below the cap is taken as it is, and every other one is the cap. -/
theorem amounts_seconds (n : Nat) {c : Nat} (hc : Amounts b.cap.toSeconds.toModel.unpack c) :
    (b.grown n < b.cap.toSeconds → ∃ g : Nat, g < c ∧ Amounts (b.seconds n).toModel.unpack g) ∧
      (¬ b.grown n < b.cap.toSeconds → Amounts (b.seconds n).toModel.unpack c) := by
  have hcap := amounts_larger hc amounts_zero
  rw [max_eq_left zero_le] at hcap
  rw [seconds_eq]
  rcases grown_upward b n with hnan | ⟨g, hg⟩
  · have hinfinite : (b.grown n).isFinite = false := by
      show (b.grown n).toModel.unpack.isFinite = false
      rw [hnan]
      rfl
    have hnot : ¬ b.grown n < b.cap.toSeconds := by
      rw [lt_iff_compare, hnan]
      simp [UnpackedFloat.compare]
    rw [hinfinite, if_neg Bool.false_ne_true]
    exact ⟨fun h => absurd h hnot, fun _ => hcap⟩
  · rw [lt_iff hg hc]
    by_cases htop : g = ⊤
    · rw [if_neg fun h => (isFinite_iff hg).1 h htop]
      exact ⟨fun h => absurd h (by simp [htop]), fun _ => hcap⟩
    · have hleast := amounts_larger (amounts_smaller hg hc) amounts_zero
      rw [max_eq_left zero_le] at hleast
      rw [if_pos ((isFinite_iff hg).2 htop)]
      refine ⟨fun h => ?_, fun h => ?_⟩
      · obtain ⟨m, rfl⟩ := ENat.ne_top_iff_exists.1 htop
        rw [min_eq_left (le_of_lt h)] at hleast
        exact ⟨m, Nat.cast_lt.1 h, hleast⟩
      · rwa [min_eq_right (not_lt.1 h)] at hleast

/-! ### The wait and the cap -/

/-- The wait before attempt `n` comes back and is not longer than the cap. -/
def Capped (b : Backoff) (n : Nat) : Prop :=
  ∃ d, b.delay? n = some d ∧ d.nanos ≤ b.cap.nanos

theorem capped_of_lt {k n : Nat} (hcap : b.cap = .ofSeconds k) (hk : k < 2 ^ 64)
    (h : b.grown n < b.cap.toSeconds) (hn : n ≠ 0) : b.Capped n := by
  have hc := Duration.amounts_ofSeconds hk
  rw [← hcap] at hc
  obtain ⟨g, hlt, hg⟩ := (amounts_seconds n hc).1 h
  have hle : g ≤ k * oneUnits := units_le_of_lt_held hg hlt
  have hfits : g < 2 ^ 64 * oneUnits :=
    Nat.lt_of_le_of_lt hle (Nat.mul_lt_mul_of_pos_right hk zero_lt_oneUnits)
  have hread := Duration.ofSecondsFloat_eq hg
  rw [if_pos hfits] at hread
  have hdelay : b.delay? n = some ⟨divNearestEven (g * Duration.nanosPerSecond) oneUnits⟩ := by
    rw [delay?, if_neg hn, hread]
  have hshort := Duration.nanos_le_ofSeconds zero_lt_oneUnits hle
  rw [← hcap] at hshort
  exact ⟨_, hdelay, hshort⟩

theorem delay_of_not_lt {k n : Nat} (hcap : b.cap = .ofSeconds k) (hk : k < 2 ^ 64)
    (h : ¬ b.grown n < b.cap.toSeconds) (hn : n ≠ 0) :
    b.delay? n = if held k = 2 ^ 64 then none else some (.ofSeconds (held k)) := by
  have hc := Duration.amounts_ofSeconds hk
  rw [← hcap] at hc
  have hread := Duration.ofSecondsFloat_eq ((amounts_seconds n hc).2 h)
  rw [delay?, if_neg hn]
  exact hread.trans (Duration.ofUnits_eq zero_lt_oneUnits (held_le hk))

/-- A wait that has reached the cap keeps to it unless the cap was rounded up. -/
theorem capped_iff_held {k n : Nat} (hcap : b.cap = .ofSeconds k) (hk : k < 2 ^ 64)
    (h : ¬ b.grown n < b.cap.toSeconds) (hn : n ≠ 0) : b.Capped n ↔ held k ≤ k := by
  have hdelay := delay_of_not_lt hcap hk h hn
  have hspan : (Duration.ofSeconds (held k)).nanos ≤ (Duration.ofSeconds k).nanos ↔ held k ≤ k :=
    Nat.mul_le_mul_right_iff (by decide)
  rw [← hcap] at hspan
  constructor
  · rintro ⟨d, hd, hle⟩
    rw [hdelay] at hd
    split_ifs at hd
    cases hd
    exact hspan.1 hle
  · intro hle
    rw [if_neg (Nat.ne_of_lt (Nat.lt_of_le_of_lt hle hk))] at hdelay
    exact ⟨_, hdelay, hspan.2 hle⟩

theorem capped_zero (b : Backoff) : b.Capped 0 :=
  ⟨.zero, rfl, Nat.zero_le _⟩

end Backoff

namespace BackoffSettings

/-- **A wait comes back and keeps to its cap unless it has reached a cap that is rounded up.**
Otherwise it is the cap that the double holds, or none if that is too long for a span; and no
validation of a configuration looks at these settings. -/
theorem capped_iff (s : BackoffSettings) (n : Nat) (hcap : s.maxDelaySecs.getD 30 < 2 ^ 64) :
    (s.toBackoff.Capped n ↔ n = 0 ∨ s.toBackoff.grown n < s.toBackoff.cap.toSeconds ∨
      held (s.maxDelaySecs.getD 30) ≤ s.maxDelaySecs.getD 30) ∧
    (¬ s.toBackoff.Capped n → s.toBackoff.delay? n =
      if held (s.maxDelaySecs.getD 30) = 2 ^ 64 then none
      else some (.ofSeconds (held (s.maxDelaySecs.getD 30)))) ∧
    (s.maxDelaySecs.getD 30 ≤ 2 ^ 53 → s.toBackoff.Capped n) ∧
    ∀ c : Config, { c with reconnect := s }.validate = c.validate := by
  have hseconds : s.toBackoff.cap = .ofSeconds (s.maxDelaySecs.getD 30) := rfl
  generalize s.maxDelaySecs.getD 30 = k at hcap hseconds ⊢
  have hiff : s.toBackoff.Capped n ↔
      n = 0 ∨ s.toBackoff.grown n < s.toBackoff.cap.toSeconds ∨ held k ≤ k := by
    by_cases hn : n = 0
    · subst hn
      exact iff_of_true (Backoff.capped_zero _) (.inl rfl)
    by_cases hlt : s.toBackoff.grown n < s.toBackoff.cap.toSeconds
    · exact iff_of_true (Backoff.capped_of_lt hseconds hcap hlt hn) (.inr (.inl hlt))
    · rw [or_iff_right hn, or_iff_right hlt]
      exact Backoff.capped_iff_held hseconds hcap hlt hn
  refine ⟨hiff, fun hnot => ?_, fun hsmall => ?_, fun c => rfl⟩
  · rw [hiff, not_or, not_or] at hnot
    exact Backoff.delay_of_not_lt hseconds hcap hnot.2.1 hnot.1
  · exact hiff.2 (.inr (.inr (Nat.le_of_eq (held_of_le hsmall))))

/-- A cap that is held as it is, and growth that has reached it. -/
theorem standard_capped : (30 : Nat) < 2 ^ 64 ∧ BackoffSettings.standard.toBackoff.Capped 20 :=
  ⟨by decide, (capped_iff .standard 20 (by decide)).2.2.1 (by decide)⟩

/-- A cap that is rounded up past the longest span, and one that is rounded up by a second. -/
theorem delay_beyond_cap :
    (BackoffSettings.mk (some (2 ^ 64 - 1)) (some 2.0) (some (2 ^ 64 - 1))).toBackoff.delay? 11 =
      none ∧
    (BackoffSettings.mk (some (2 ^ 64 - 1)) (some 2.0) (some (2 ^ 53 + 3))).toBackoff.delay? 11 =
      some (.ofSeconds (2 ^ 53 + 4)) := by
  constructor <;> decide +kernel

end BackoffSettings

end QueueRelay

import QueueRelay.Number.Binary64
/-!
The shortest decimal that reads back as a given double.

The reals that round to a double form an interval around it, the ends included when its
mantissa is even.  For one, two, three and more digits the two decimals next to the
value on that grid are tried, in whole numbers throughout; the first grid with a hit
wins, and of two hits the nearer one, the even one on a tie.
-/
namespace QueueRelay.Number

/-- A decimal `digits * 10 ^ exponent`. -/
structure Decimal where
  digits : Nat
  exponent : Int
deriving DecidableEq

/-- A rational `num / den` times a power of ten, as a numerator and a denominator. -/
def scaleTen (num den : Nat) (exponent : Int) : Nat × Nat :=
  if 0 ≤ exponent then (num * Nat.pow 10 exponent.toNat, den)
  else (num, den * Nat.pow 10 (-exponent).toNat)

/-- The value and the ends of its interval over one denominator: below, value, above. -/
def Binary64.interval (b : Binary64) : (Nat × Nat × Nat) × Nat :=
  let low := if b.mantissa = 0x10000000000000 ∧ -1074 < b.exponent then 1 else 2
  let (num, den) := if 0 ≤ b.exponent then (Nat.pow 2 b.exponent.toNat, 4)
    else (1, 4 * Nat.pow 2 (-b.exponent).toNat)
  (((4 * b.mantissa - low) * num, 4 * b.mantissa * num, (4 * b.mantissa + 2) * num), den)

/-- The decimal on the grid `10 ^ exponent` that is nearest to the value among those in
the interval, if there is one. -/
def Binary64.onGrid (b : Binary64) (exponent : Int) : Option Decimal :=
  let ((below, value, above), den) := b.interval
  let closed := b.mantissa % 2 = 0
  -- everything is multiplied by `10 ^ -exponent`, so grid points become whole numbers
  let (value, unit) := scaleTen value den (-exponent)
  let (below, _) := scaleTen below den (-exponent)
  let (above, _) := scaleTen above den (-exponent)
  let inside (k : Nat) : Bool :=
    let x := k * unit
    if closed then below ≤ x && x ≤ above else below < x && x < above
  let floor := value / unit
  let rest := value % unit
  let lower := inside floor && 0 < floor
  let upper := inside (floor + 1)
  let pickUpper := unit < 2 * rest || (2 * rest = unit && floor % 2 = 1)
  match lower, upper with
  | true, true => some ⟨if pickUpper then floor + 1 else floor, exponent⟩
  | true, false => some ⟨floor, exponent⟩
  | false, true => some ⟨floor + 1, exponent⟩
  | false, false => none

/-- Tries grids from coarse to fine. -/
def Binary64.search (b : Binary64) : Nat → Int → Decimal
  | 0, exponent => ⟨b.scaled 1, exponent⟩
  | fuel + 1, exponent =>
    match b.onGrid exponent with
    | some d => d
    | none => b.search fuel (exponent - 1)

/-- An exponent of ten that is at least that of the leading digit. -/
def Binary64.leading (b : Binary64) : Int :=
  let bits : Int := Int.ofNat (Nat.log2 b.mantissa) + b.exponent
  bits * 30103 / 100000 + 1

/-- The shortest decimal that reads back as the absolute value of a non-zero double. -/
def Binary64.shortest (b : Binary64) : Decimal :=
  let d := b.search 30 b.leading
  if d.digits % 10 = 0 then ⟨d.digits / 10, d.exponent + 1⟩ else d

/-- The digits of a decimal with a point where it belongs and no exponent. -/
def Decimal.positional (d : Decimal) : String :=
  let digits := Nat.toDigits 10 d.digits
  if 0 ≤ d.exponent then String.ofList (digits ++ List.replicate d.exponent.toNat '0')
  else
    let places := (-d.exponent).toNat
    let padded := List.replicate (places + 1 - digits.length) '0' ++ digits
    let whole := padded.take (padded.length - places)
    String.ofList (whole ++ '.' :: padded.drop (padded.length - places))

/-- A double without an exponent, in as few digits as read back: `1`, `0.1`, `-2.5`. -/
def plainText (x : Float) : String :=
  match Binary64.of? x with
  | none => if x.isNaN then "NaN" else if x < 0.0 then "-inf" else "inf"
  | some b =>
    (if b.negative then "-" else "") ++
      if b.mantissa = 0 then "0" else b.shortest.positional

end QueueRelay.Number

/-!
The exact value of a double.

A finite double is a sign, a whole number and a power of two.  Everything that has to
be exact about a double, such as the nearest whole number of nanoseconds or the
shortest decimal that reads back, is computed from these three in whole numbers.
-/
namespace QueueRelay.Number

/-- A finite double: its absolute value is `mantissa * 2 ^ exponent`. -/
structure Binary64 where
  /-- Set for values below zero and for the negative zero. -/
  negative : Bool
  /-- The significand as a whole number, below `2 ^ 53`. -/
  mantissa : Nat
  /-- The power of two that the significand is multiplied by. -/
  exponent : Int
deriving DecidableEq

/-- The parts of a finite double; nothing for an infinity or a NaN. -/
def Binary64.of? (x : Float) : Option Binary64 :=
  let bits := x.toBits.toNat
  let negative := bits / 0x8000000000000000 == 1
  let field : Nat := bits / 0x10000000000000 % 0x800
  let fraction : Nat := bits % 0x10000000000000
  if field = 0x7FF then none
  else if field = 0 then some ⟨negative, fraction, -1074⟩
  else some ⟨negative, 0x10000000000000 + fraction, Int.ofNat field - 1075⟩

/-- The quotient rounded to the nearest whole number; a tie goes to the even neighbour. -/
def divNearestEven (num den : Nat) : Nat :=
  let floor := num / den
  let rest := num % den
  if 2 * rest < den then floor
  else if den < 2 * rest then floor + 1
  else floor + floor % 2

/-- The absolute value times `scale`, rounded to the nearest whole number, ties to even. -/
def Binary64.scaled (b : Binary64) (scale : Nat) : Nat :=
  if 0 ≤ b.exponent then b.mantissa * Nat.pow 2 b.exponent.toNat * scale
  else divNearestEven (b.mantissa * scale) (Nat.pow 2 (-b.exponent).toNat)

/-- Whether the absolute value is below `bound`. -/
def Binary64.absBelow (b : Binary64) (bound : Nat) : Bool :=
  if 0 ≤ b.exponent then b.mantissa * Nat.pow 2 b.exponent.toNat < bound
  else b.mantissa < bound * Nat.pow 2 (-b.exponent).toNat

end QueueRelay.Number

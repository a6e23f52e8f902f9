import QueueRelay.Number.Binary64
/-!
The double nearest to a number.

A positive ratio is brought to the form `m * 2 ^ q` with `m` of 53 bits, or with the
smallest possible `q` if that would need a smaller one, and `m` is rounded to a whole
number, ties to even.  The bits of the double can be read off `m` and `q`, also when
rounding carries `m` over to 54 bits, and also when the result is no longer finite.
-/
namespace QueueRelay.Number

/-- `num / den * 2 ^ shift` as a ratio. -/
def shiftRatio (num den : Nat) (shift : Int) : Nat × Nat :=
  if 0 ≤ shift then (num * Nat.pow 2 shift.toNat, den)
  else (num, den * Nat.pow 2 (-shift).toNat)

/-- The largest `k` for which `2 ^ k` is at most the positive ratio `num / den`. -/
def floorLog (num den : Nat) : Int :=
  let k := Int.ofNat (Nat.log2 num) - Int.ofNat (Nat.log2 den)
  let (n, d) := shiftRatio num den (-k)
  if n < d then k - 1 else k

/-- The bits of the infinity. -/
def infinityBits : Nat := 0x7FF0000000000000

/-- The bits of the double nearest to `num / den`. -/
def nearestBits (num den : Nat) : Nat :=
  if num = 0 then 0
  else
    let q := max (floorLog num den - 52) (-1074)
    let (n, d) := shiftRatio num den (-q)
    min ((q + 1074).toNat * 0x10000000000000 + divNearestEven n d) infinityBits

/-- The double nearest to `digits * 10 ^ exponent`.  What is far beyond the largest or
below the smallest double is not computed. -/
def nearestDecimal (digits : Nat) (exponent : Int) : Float :=
  let magnitude := exponent + Int.ofNat (Nat.toDigits 10 digits).length
  let bits :=
    if digits = 0 ∨ magnitude < -400 then 0
    else if 400 < magnitude then infinityBits
    else if 0 ≤ exponent then nearestBits (digits * Nat.pow 10 exponent.toNat) 1
    else nearestBits digits (Nat.pow 10 (-exponent).toNat)
  Float.ofBits (UInt64.ofNat bits)

/-! ### Numbers in texts -/

/-- The number that decimal digits write. -/
def ofDigits (digits : List Char) : Nat :=
  digits.foldl (fun n c => n * 10 + (c.toNat - 48)) 0

/-- A sign, if there is one, and the rest; the flag is set for a minus. -/
def splitSign : List Char → Bool × List Char
  | '-' :: rest => (true, rest)
  | '+' :: rest => (false, rest)
  | s => (false, s)

/-- A whole number of decimal digits, at least one, behind an optional sign. -/
def wholeNumber? (s : List Char) : Option Int :=
  let (negative, digits) := splitSign s
  if digits.isEmpty || !digits.all Char.isDigit then none
  else
    let n := Int.ofNat (ofDigits digits)
    some (if negative then -n else n)

/-- The exponent behind a mantissa; no exponent is zero. -/
def exponentOf? : List Char → Option Int
  | [] => some 0
  | c :: rest => if c = 'e' ∨ c = 'E' then wholeNumber? rest else none

/-- The absolute value that digits write, with a point and an exponent perhaps; at least
one digit stands before or behind the point. -/
def absolute? (s : List Char) : Option Float :=
  let whole := s.takeWhile Char.isDigit
  let rest := s.dropWhile Char.isDigit
  let (fraction, rest) := match rest with
    | '.' :: rest => (rest.takeWhile Char.isDigit, rest.dropWhile Char.isDigit)
    | _ => ([], rest)
  if whole.isEmpty && fraction.isEmpty then none
  else
    (exponentOf? rest).map fun exponent =>
      nearestDecimal (ofDigits (whole ++ fraction)) (exponent - Int.ofNat fraction.length)

/-- The double that a text writes, or names as infinite or as no number. -/
def double? (s : List Char) : Option Float :=
  let (negative, s) := splitSign s
  let lower := String.ofList (s.map Char.toLower)
  let x :=
    if lower = "inf" || lower = "infinity" then some (1.0 / 0.0)
    else if lower = "nan" then some (0.0 / 0.0)
    else absolute? s
  x.map fun x => if negative then -x else x

end QueueRelay.Number

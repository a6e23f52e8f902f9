import QueueRelay.Number.Binary64
/-!
Spans of time, counted in whole nanoseconds.

A span can be read from a double number of seconds.  The reading is exact up to one
rounding, to the nearest nanosecond with ties to even, and it fails when the number is
negative, is not finite, or has more whole seconds than a 64-bit counter holds.
-/
namespace QueueRelay

/-- A span of time. -/
structure Duration where
  /-- Its length in nanoseconds. -/
  nanos : Nat
deriving DecidableEq, Inhabited

namespace Duration

/-- One second in nanoseconds. -/
def nanosPerSecond : Nat := 1000000000

/-- The empty span. -/
def zero : Duration := ⟨0⟩

def ofMillis (n : Nat) : Duration := ⟨n * 1000000⟩

def ofSeconds (n : Nat) : Duration := ⟨n * nanosPerSecond⟩

/-- The whole seconds in the span. -/
def seconds (d : Duration) : Nat := d.nanos / nanosPerSecond

/-- The nanoseconds beyond the whole seconds. -/
def subsecond (d : Duration) : Nat := d.nanos % nanosPerSecond

/-- The span in milliseconds, a begun millisecond counting as a whole one. -/
def millisUp (d : Duration) : Nat := (d.nanos + 999999) / 1000000

/-- The span in seconds as a double: whole seconds and the rest are converted apart and
then added, so the sum is rounded once more. -/
def toSeconds (d : Duration) : Float :=
  Float.ofNat d.seconds + Float.ofNat d.subsecond / Float.ofNat nanosPerSecond

/-- The span of `x` seconds, if it is neither negative nor `2 ^ 64` seconds or longer. -/
def ofSecondsFloat? (x : Float) : Option Duration :=
  match Number.Binary64.of? x with
  | none => none
  | some b =>
    if b.negative && b.mantissa != 0 then none
    else if b.absBelow 0x10000000000000000 then some ⟨b.scaled nanosPerSecond⟩
    else none

/-! ### The form shown to people

The largest unit of which there is a whole one is used, with as many decimal places as
the span needs.
-/

/-- The digits after the point: `places` of them, less the zeros at the end. -/
def fractionDigits (places n : Nat) : List Char :=
  let digits := Nat.toDigits 10 n
  let padded := List.replicate (places - digits.length) '0' ++ digits
  (padded.reverse.dropWhile (· = '0')).reverse

/-- A whole part and a fraction given in units of `10 ^ -places`. -/
def decimalForm (whole fraction places : Nat) (unit : String) : String :=
  match fractionDigits places fraction with
  | [] => toString whole ++ unit
  | digits => toString whole ++ "." ++ String.ofList digits ++ unit

/-- `1.5s`, `100ms`, `20µs` or `7ns`. -/
def shown (d : Duration) : String :=
  if 0 < d.seconds then decimalForm d.seconds d.subsecond 9 "s"
  else if 1000000 ≤ d.nanos then decimalForm (d.nanos / 1000000) (d.nanos % 1000000) 6 "ms"
  else if 1000 ≤ d.nanos then decimalForm (d.nanos / 1000) (d.nanos % 1000) 3 "µs"
  else decimalForm d.nanos 0 0 "ns"

end Duration

end QueueRelay

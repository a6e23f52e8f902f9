import QueueRelay.Duration
/-!
Capped exponential backoff between attempts.

The delay before attempt `n` is the initial delay times the factor to the power `n - 1`,
never longer than the cap.  It is computed in doubles, so the power can overflow; a
product that is not finite counts as the cap.
-/
namespace QueueRelay

/-- How long to wait before each of a series of attempts. -/
structure Backoff where
  /-- Delay before the first retry. -/
  initial : Duration
  /-- Growth from one retry to the next; a factor below one counts as one. -/
  factor : Float
  /-- No delay is meant to exceed this. -/
  cap : Duration

namespace Backoff

/-- A tenth of a second, doubled each time, up to half a minute. -/
def standard : Backoff :=
  ⟨.ofMillis 100, 2.0, .ofSeconds 30⟩

/-- No waiting at all. -/
def immediate : Backoff :=
  ⟨.zero, 1.0, .zero⟩

/-- Square-and-multiply from the low bit of the exponent: `acc * base ^ n`. -/
def powerFrom (acc base : Float) (n : Nat) : Float :=
  let acc := if n % 2 = 1 then acc * base else acc
  if h : n / 2 = 0 then acc
  else powerFrom acc (base * base) (n / 2)
termination_by n

/-- `base ^ n` by repeated squaring. -/
def power (base : Float) (n : Nat) : Float :=
  powerFrom 1.0 base n

/-- The larger of two doubles; a NaN loses against a number. -/
def larger (a b : Float) : Float :=
  if a.isNaN then b else if b.isNaN then a else if a < b then b else a

/-- The smaller of two doubles; a NaN loses against a number. -/
def smaller (a b : Float) : Float :=
  if a.isNaN then b else if b.isNaN then a else if b < a then b else a

/-- The largest exponent that is applied. -/
def maxExponent : Nat := 64

/-- The wait before attempt `n` in seconds, before it is rounded to a span. -/
def seconds (b : Backoff) (n : Nat) : Float :=
  let grown := b.initial.toSeconds * power (larger b.factor 1.0) (min (n - 1) maxExponent)
  let cap := b.cap.toSeconds
  larger (if grown.isFinite then smaller grown cap else cap) 0.0

/-- The wait before attempt `n`; attempt 0 waits nothing.  Nothing comes back when the
seconds are too many for a span. -/
def delay? (b : Backoff) (n : Nat) : Option Duration :=
  if n = 0 then some .zero
  else Duration.ofSecondsFloat? (b.seconds n)

end Backoff

/-- The settings a backoff is made from; an absent one takes its standard value. -/
structure BackoffSettings where
  /-- Delay before the first retry, in milliseconds. -/
  retryDelayMs : Option Nat
  /-- Growth from one retry to the next. -/
  multiplier : Option Float
  /-- Cap on the delay, in seconds. -/
  maxDelaySecs : Option Nat

namespace BackoffSettings

/-- Every setting given, with its standard value. -/
def standard : BackoffSettings :=
  ⟨some 100, some 2.0, some 30⟩

/-- The backoff that the settings describe. -/
def toBackoff (s : BackoffSettings) : Backoff where
  initial := .ofMillis (s.retryDelayMs.getD 100)
  factor := s.multiplier.getD 2.0
  cap := .ofSeconds (s.maxDelaySecs.getD 30)

end BackoffSettings

end QueueRelay

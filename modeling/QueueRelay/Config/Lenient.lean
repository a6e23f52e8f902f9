import QueueRelay.Config.Reading
import QueueRelay.Number.Nearest
import QueueRelay.Number.Shortest
/-!
A reading for values that come from files and variables.

A scalar of one kind serves as another one where that makes sense: a number as a text, a
text as a number, yes and no as truth values.  Words for truth values and names of
choices are compared without regard to the case of their letters.
-/
namespace QueueRelay.Reading

/-- A text in lower case; only letters whose lower case is a plain letter matter here. -/
def lowerCase (s : String) : String :=
  String.ofList (s.toList.map fun c => if c = '\u212A' then 'k' else c.toLower)

/-- The truth value that a word stands for. -/
def truth? (s : String) : Option Bool :=
  if ["1", "true", "on", "yes"].contains (lowerCase s) then some true
  else if ["0", "false", "off", "no"].contains (lowerCase s) then some false
  else none

def lenientBool : Value → Option Bool
  | .bool b => some b
  | .int n => some (n != 0)
  | .float x => some (x != 0.0)
  | .text s => truth? s
  | _ => none

def lenientText : Value → Option String
  | .text s => some s
  | .bool b => some (if b then "true" else "false")
  | .int n => some (toString n)
  | .float x => some (Number.plainText x)
  | _ => none

/-- A word for a truth value that serves as a number; the digits do so by themselves. -/
def numberWord? (s : String) : Option Bool :=
  if ["true", "on", "yes"].contains (lowerCase s) then some true
  else if ["false", "off", "no"].contains (lowerCase s) then some false
  else none

def lenientFloat : Value → Option Float
  | .float x => some x
  | .int n => some (Float.ofInt n)
  | .bool b => some (if b then 1.0 else 0.0)
  | .text s =>
    match numberWord? s with
    | some b => some (if b then 1.0 else 0.0)
    | none => Number.double? s.toList
  | _ => none

/-- The largest number of 64 bits. -/
def wordLimit : Nat := 0xFFFFFFFFFFFFFFFF

/-- The nearest number of 64 bits, a half going away from zero; zero for what is no
number. -/
def roundedWord (x : Float) : Nat :=
  match Number.Binary64.of? x with
  | none => if x.isInf && 0.0 < x then wordLimit else 0
  | some b =>
    if b.negative then 0
    else if 0 ≤ b.exponent then min (b.mantissa * Nat.pow 2 b.exponent.toNat) wordLimit
    else
      let unit := Nat.pow 2 (-b.exponent).toNat
      min ((2 * b.mantissa + unit) / (2 * unit)) wordLimit

/-- A whole number that is not negative and fits into 64 bits. -/
def lenientWord : Value → Option Nat
  | .int n => if 0 ≤ n then some n.toNat else none
  | .float x => some (roundedWord x)
  | .bool b => some b.toNat
  | .text s =>
    match numberWord? s with
    | some b => some b.toNat
    | none =>
      match s.toList with
      | '-' :: _ => none
      | digits =>
        (Number.wholeNumber? digits).bind fun n => if n.toNat ≤ wordLimit then some n.toNat else none
  | _ => none

/-- Scalars of files and variables. -/
def lenient : Reading where
  bool := lenientBool
  text := lenientText
  float := lenientFloat
  word bits v := (lenientWord v).bind fun n => if n < Nat.pow 2 bits then some n else none
  choice
    | .text s => some (lowerCase s)
    | .record [(name, _)] => some (lowerCase name)
    | _ => none
  allowsExtra := true

end QueueRelay.Reading

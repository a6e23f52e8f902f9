import QueueRelay.Value
/-!
Reading JSON.

A whole number that fits into 64 bits, with a sign or without, stays a whole number; every
other number becomes a double.  A double is made from its digits, read as one whole
number, and a power of ten, each rounded on its own.

A document nests no deeper than it is long, so its length bounds the recursion.
-/
namespace QueueRelay.Json

def isSpace (c : Char) : Bool := c == ' ' || c == '\t' || c == '\n' || c == '\r'

def skipSpace (s : List Char) : List Char := s.dropWhile isSpace

/-! ### Texts -/

def hexValue? (c : Char) : Option Nat :=
  if c.isDigit then some (c.toNat - 48)
  else if 'a' ≤ c ∧ c ≤ 'f' then some (c.toNat - 87)
  else if 'A' ≤ c ∧ c ≤ 'F' then some (c.toNat - 55)
  else none

/-- The number written by four hexadecimal digits. -/
def unit? (a b c d : Char) : Option Nat := do
  return ((← hexValue? a) * 16 + (← hexValue? b)) * 256 +
    (← hexValue? c) * 16 + (← hexValue? d)

/-- The character that a letter after a backslash stands for. -/
def escaped? (c : Char) : Option Char :=
  if c = '"' || c = '\\' || c = '/' then some c
  else if c = 'n' then some '\n'
  else if c = 't' then some '\t'
  else if c = 'r' then some '\r'
  else if c = 'b' then some '\x08'
  else if c = 'f' then some '\x0c'
  else none

/-- The character for two halves of a pair. -/
def paired? (high low : Nat) : Option Char :=
  if 0xDC00 ≤ low ∧ low < 0xE000 then
    some (Char.ofNat (0x10000 + (high - 0xD800) * 0x400 + (low - 0xDC00)))
  else none

/-- The characters up to the closing quote, and what stands behind it. -/
def textBody : List Char → Option (List Char × List Char)
  | [] => none
  | '"' :: rest => some ([], rest)
  | '\\' :: 'u' :: a :: b :: c :: d :: '\\' :: 'u' :: e :: f :: g :: h :: rest => do
    let n ← unit? a b c d
    if 0xD800 ≤ n ∧ n < 0xDC00 then
      let m ← unit? e f g h
      let c ← paired? n m
      let (body, rest) ← textBody rest
      return (c :: body, rest)
    else if 0xDC00 ≤ n ∧ n < 0xE000 then none
    else
      let (body, rest) ← textBody ('\\' :: 'u' :: e :: f :: g :: h :: rest)
      return (Char.ofNat n :: body, rest)
  | '\\' :: 'u' :: a :: b :: c :: d :: rest => do
    let n ← unit? a b c d
    if 0xD800 ≤ n ∧ n < 0xE000 then none
    else
      let (body, rest) ← textBody rest
      return (Char.ofNat n :: body, rest)
  | '\\' :: c :: rest => do
    let c ← escaped? c
    let (body, rest) ← textBody rest
    return (c :: body, rest)
  | c :: rest => do
    if c.toNat < 32 then none
    else
      let (body, rest) ← textBody rest
      return (c :: body, rest)

/-! ### Numbers -/

/-- A whole number in decimal digits. -/
def digitsValue (digits : List Char) : Nat :=
  digits.foldl (fun n c => n * 10 + (c.toNat - 48)) 0

def tenTo (n : Nat) : Float := Float.ofScientific 1 false n

/-- `x * 10 ^ exponent`, in steps that doubles can hold. -/
def scaled (x : Float) (exponent : Int) : Float :=
  if 0 ≤ exponent then
    if exponent ≤ 308 then x * tenTo exponent.toNat else x * tenTo 308 * tenTo 308
  else
    let e := (-exponent).toNat
    if e ≤ 308 then x / tenTo e
    else if e ≤ 616 then x / tenTo 308 / tenTo (e - 308)
    else x / tenTo 308 / tenTo 308 / tenTo 308

/-- The digits behind a point, if there is one. -/
def fraction? : List Char → Option (Option (List Char) × List Char)
  | '.' :: rest =>
    let digits := rest.takeWhile Char.isDigit
    if digits.isEmpty then none else some (some digits, rest.dropWhile Char.isDigit)
  | s => some (none, s)

/-- The exponent, if there is one. -/
def exponent? : List Char → Option (Option Int × List Char)
  | c :: rest =>
    if c = 'e' ∨ c = 'E' then
      let (negative, rest) := match rest with
        | '-' :: rest => (true, rest)
        | '+' :: rest => (false, rest)
        | _ => (false, rest)
      let digits := rest.takeWhile Char.isDigit
      if digits.isEmpty then none
      else
        let n := Int.ofNat (digitsValue digits)
        some (some (if negative then -n else n), rest.dropWhile Char.isDigit)
    else some (none, c :: rest)
  | [] => some (none, [])

/-- A number from its sign and its parts. -/
def numberOf (negative : Bool) (whole : List Char) (fraction : Option (List Char))
    (exponent : Option Int) : Value :=
  let n := digitsValue (whole ++ fraction.getD [])
  let isWhole := fraction.isNone && exponent.isNone &&
    if negative then 0 < n && n ≤ 0x8000000000000000 else n ≤ 0xFFFFFFFFFFFFFFFF
  if isWhole then .int (if negative then -Int.ofNat n else Int.ofNat n)
  else
    let places := Int.ofNat (fraction.getD []).length
    let x := scaled (Float.ofNat n) (exponent.getD 0 - places)
    .float (if negative then -x else x)

/-- A number behind its sign, and what stands behind it. -/
def unsigned? (negative : Bool) (s : List Char) : Option (Value × List Char) := do
  let whole := s.takeWhile Char.isDigit
  if whole.isEmpty || (whole.head? = some '0' && 1 < whole.length) then none
  else
    let (fraction, s) ← fraction? (s.dropWhile Char.isDigit)
    let (exponent, s) ← exponent? s
    return (numberOf negative whole fraction exponent, s)

def number? : List Char → Option (Value × List Char)
  | '-' :: s => unsigned? true s
  | s => unsigned? false s

/-! ### Documents -/

/-- A word that stands for a value. -/
def word? (s : List Char) : Option (Value × List Char) :=
  if "null".toList.isPrefixOf s then some (.null, s.drop 4)
  else if "true".toList.isPrefixOf s then some (.bool true, s.drop 4)
  else if "false".toList.isPrefixOf s then some (.bool false, s.drop 5)
  else none

mutual

/-- A value, and what stands behind it. -/
def value? : Nat → List Char → Option (Value × List Char)
  | 0, _ => none
  | n + 1, s =>
    match skipSpace s with
    | '"' :: rest => do
      let (body, rest) ← textBody rest
      return (.text (String.ofList body), rest)
    | '[' :: rest =>
      match skipSpace rest with
      | ']' :: rest => some (.list [], rest)
      | _ => do
        let (items, rest) ← items? n rest
        return (.list items, rest)
    | '\x7b' :: rest =>
      match skipSpace rest with
      | '\x7d' :: rest => some (.record [], rest)
      | _ => do
        let (fields, rest) ← fields? n rest
        return (.record fields, rest)
    | s => (word? s).orElse fun _ => number? s

/-- The items of a list that is not empty. -/
def items? : Nat → List Char → Option (List Value × List Char)
  | 0, _ => none
  | n + 1, s => do
    let (v, rest) ← value? n s
    match skipSpace rest with
    | ',' :: rest =>
      let (items, rest) ← items? n rest
      return (v :: items, rest)
    | ']' :: rest => return ([v], rest)
    | _ => none

/-- The fields of a record that is not empty. -/
def fields? : Nat → List Char → Option (List (String × Value) × List Char)
  | 0, _ => none
  | n + 1, s =>
    match skipSpace s with
    | '"' :: rest => do
      let (name, rest) ← textBody rest
      match skipSpace rest with
      | ':' :: rest =>
        let (v, rest) ← value? n rest
        let field := (String.ofList name, v)
        match skipSpace rest with
        | ',' :: rest =>
          let (fields, rest) ← fields? n rest
          return (field :: fields, rest)
        | '\x7d' :: rest => return ([field], rest)
        | _ => none
      | _ => none
    | _ => none

end

/-- The value that a document holds. -/
def parse? (document : String) : Option Value :=
  let s := document.toList
  match value? (s.length + 1) s with
  | some (v, rest) => if (skipSpace rest).isEmpty then some v else none
  | none => none

end QueueRelay.Json

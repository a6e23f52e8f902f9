import QueueRelay.Number.Nearest
import QueueRelay.Value
/-!
Numbers, dates and times of a TOML document.

Each reader takes what it understands from the front of a text and gives back the rest.
Underscores may stand between two digits.  A date or a time has no kind of its own among
the values; it becomes a text in one fixed form.
-/
namespace QueueRelay.Toml

/-! ### Digits -/

/-- Digits from the front, with single underscores between them; the flag says whether a
digit came just before. -/
def digitRun (isDigit : Char → Bool) : Bool → List Char → List Char × List Char
  | _, [] => ([], [])
  | after, c :: rest =>
    if isDigit c then
      let (digits, rest) := digitRun isDigit true rest
      (c :: digits, rest)
    else if c = '_' ∧ after = true then
      match rest with
      | d :: _ =>
        if isDigit d then digitRun isDigit false rest else ([], c :: rest)
      | [] => ([], c :: rest)
    else ([], c :: rest)

/-- At least one digit. -/
def digits? (isDigit : Char → Bool) (s : List Char) : Option (List Char × List Char) :=
  let (digits, rest) := digitRun isDigit false s
  if digits.isEmpty then none else some (digits, rest)

/-- A decimal number without needless zeros in front. -/
def decimal? (s : List Char) : Option (List Char × List Char) :=
  match s with
  | '0' :: rest => some (['0'], rest)
  | _ => digits? Char.isDigit s

/-- The value of a digit of any base. -/
def digitValue (c : Char) : Nat :=
  if c.isDigit then c.toNat - 48 else c.toLower.toNat - 87

/-- The number that digits write in a base. -/
def inBase (base : Nat) (digits : List Char) : Nat :=
  digits.foldl (fun n c => n * base + digitValue c) 0

/-! ### Numbers -/

/-- A whole number, if 64 bits with a sign hold it. -/
def int64? (n : Int) : Option Value :=
  if -0x8000000000000000 ≤ n ∧ n < 0x8000000000000000 then some (.int n) else none

def isHexDigit (c : Char) : Bool :=
  c.isDigit || ('a' ≤ c && c ≤ 'f') || ('A' ≤ c && c ≤ 'F')

/-- A whole number in a base whose mark has been read. -/
def based? (base : Nat) (isDigit : Char → Bool) (s : List Char) :
    Option (Value × List Char) := do
  let (digits, rest) ← digits? isDigit s
  return (← int64? (inBase base digits), rest)

/-- A whole number. -/
def whole? (s : List Char) : Option (Value × List Char) :=
  match s with
  | '0' :: 'x' :: rest => based? 16 isHexDigit rest
  | '0' :: 'o' :: rest => based? 8 (fun c => '0' ≤ c && c ≤ '7') rest
  | '0' :: 'b' :: rest => based? 2 (fun c => c == '0' || c == '1') rest
  | _ => do
    let (negative, s) := Number.splitSign s
    let (digits, rest) ← decimal? s
    let n := Int.ofNat (Number.ofDigits digits)
    return (← int64? (if negative then -n else n), rest)

/-- The digits behind a point. -/
def fraction? : List Char → Option (List Char × List Char)
  | '.' :: rest => digits? Char.isDigit rest
  | _ => none

/-- The exponent behind its letter. -/
def exponent? : List Char → Option (Int × List Char)
  | c :: rest =>
    if c = 'e' ∨ c = 'E' then do
      let (negative, rest) := Number.splitSign rest
      let (digits, rest) ← digits? Char.isDigit rest
      let n := Int.ofNat (Number.ofDigits digits)
      return (if negative then -n else n, rest)
    else none
  | [] => none

/-- A number with a fraction, an exponent or both.  Too large a number is an error unless
it is negative, in which case it is the infinity. -/
def double? (s : List Char) : Option (Value × List Char) := do
  let (negative, s) := Number.splitSign s
  let (whole, rest) ← decimal? s
  let (fraction, rest) ← match rest with
    | '.' :: _ => fraction? rest
    | _ => some ([], rest)
  let (exponent, rest) ← match exponent? rest with
    | some (e, rest) => some (e, rest)
    | none => if fraction.isEmpty then none else some (0, rest)
  let x := Number.nearestDecimal (Number.ofDigits (whole ++ fraction))
    (exponent - Int.ofNat fraction.length)
  if x.isInf && !negative then none
  else return (.float (if negative then -x else x), rest)

/-- The names of the infinity and of what is no number, behind a sign perhaps. -/
def namedDouble? (s : List Char) : Option (Value × List Char) :=
  let (negative, s) := Number.splitSign s
  match s with
  | 'i' :: 'n' :: 'f' :: rest => some (.float (if negative then -1.0 / 0.0 else 1.0 / 0.0), rest)
  | 'n' :: 'a' :: 'n' :: rest => some (.float (0.0 / 0.0), rest)
  | _ => none

/-! ### Dates and times -/

/-- `n` in at least `width` digits. -/
def padded (width n : Nat) : List Char :=
  let digits := Nat.toDigits 10 n
  List.replicate (width - digits.length) '0' ++ digits

/-- A number of two digits from `low` to `high`. -/
def twoDigits? (low high : Nat) : List Char → Option (Nat × List Char)
  | a :: b :: rest =>
    if a.isDigit && b.isDigit then
      let n := Number.ofDigits [a, b]
      if low ≤ n ∧ n ≤ high then some (n, rest) else none
    else none
  | _ => none

/-- One given character. -/
def expect? (c : Char) : List Char → Option (List Char)
  | d :: rest => if d = c then some rest else none
  | [] => none

/-- Number of days in a month. -/
def daysIn (year month : Nat) : Nat :=
  if month = 2 then
    if year % 4 = 0 ∧ (year % 100 ≠ 0 ∨ year % 400 = 0) then 29 else 28
  else if [4, 6, 9, 11].contains month then 30
  else 31

/-- A date in its fixed form. -/
def date? (s : List Char) : Option (List Char × List Char) :=
  match s with
  | a :: b :: c :: d :: '-' :: rest =>
    if [a, b, c, d].all Char.isDigit then do
      let year := Number.ofDigits [a, b, c, d]
      let (month, rest) ← twoDigits? 1 12 rest
      let (day, rest) ← twoDigits? 1 (daysIn year month) (← expect? '-' rest)
      return (padded 4 year ++ '-' :: padded 2 month ++ '-' :: padded 2 day, rest)
    else none
  | _ => none

/-- The digits of a fraction of a second: at most nine, without zeros at the end. -/
def secondFraction (digits : List Char) : List Char :=
  match (((digits.take 9).reverse).dropWhile (· = '0')).reverse with
  | [] => []
  | digits => '.' :: digits

/-- A time in its fixed form. -/
def time? (s : List Char) : Option (List Char × List Char) := do
  let (hour, rest) ← twoDigits? 0 23 s
  let (minute, rest) ← twoDigits? 0 59 (← expect? ':' rest)
  let (second, rest) ← twoDigits? 0 60 (← expect? ':' rest)
  let form := padded 2 hour ++ ':' :: padded 2 minute ++ ':' :: padded 2 second
  match rest with
  | '.' :: after =>
    let digits := after.takeWhile Char.isDigit
    if digits.isEmpty then none
    else return (form ++ secondFraction digits, after.dropWhile Char.isDigit)
  | _ => return (form, rest)

/-- An offset from universal time in its fixed form; nothing if there is none. -/
def offset? : List Char → Option (List Char × List Char)
  | c :: rest =>
    if c = 'Z' ∨ c = 'z' then some (['Z'], rest)
    else if c = '+' ∨ c = '-' then do
      let (hours, rest) ← twoDigits? 0 23 rest
      let (minutes, rest) ← twoDigits? 0 59 (← expect? ':' rest)
      let sign := if c = '-' ∧ (hours ≠ 0 ∨ minutes ≠ 0) then '-' else '+'
      return (sign :: padded 2 hours ++ ':' :: padded 2 minutes, rest)
    else some ([], c :: rest)
  | [] => some ([], [])

/-- Whether a time begins behind the mark that ends a date. -/
def timeFollows : List Char → Bool
  | c :: a :: b :: ':' :: _ =>
    (c = 'T' || c = 't' || c = ' ') && (twoDigits? 0 23 [a, b]).isSome
  | _ => false

/-- A date, a time, or both with or without an offset. -/
def dateTime? (s : List Char) : Option (Value × List Char) :=
  match date? s with
  | some (date, rest) =>
    if timeFollows rest then do
      let (time, rest) ← time? (rest.drop 1)
      let (offset, rest) ← offset? rest
      return (.text (String.ofList (date ++ 'T' :: time ++ offset)), rest)
    else some (.text (String.ofList date), rest)
  | none => (time? s).map fun (time, rest) => (.text (String.ofList time), rest)

/-- A value that begins like a number. -/
def numeric? (s : List Char) : Option (Value × List Char) :=
  (dateTime? s).orElse fun _ => (double? s).orElse fun _ =>
    (namedDouble? s).orElse fun _ => whole? s

end QueueRelay.Toml

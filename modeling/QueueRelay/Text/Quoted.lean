import QueueRelay.Text.Printable
/-!
Quoted text, as it appears inside messages.

A quoted text stands between double quotes.  A quote and a backslash are preceded by a
backslash, five control characters have a letter of their own, and every other
character that has no visible form of its own is written as its number in braces.
-/
namespace QueueRelay.Text

/-- A number in lower-case hexadecimal, without leading zeros. -/
def hexDigits (n : Nat) : List Char :=
  Nat.toDigits 16 n

/-- The form of one character inside quotes. -/
def quoteChar (c : Char) : List Char :=
  if c = '\x00' then ['\\', '0']
  else if c = '\t' then ['\\', 't']
  else if c = '\r' then ['\\', 'r']
  else if c = '\n' then ['\\', 'n']
  else if c = '\\' then ['\\', '\\']
  else if c = '"' then ['\\', '"']
  else if isPrintable c && !isCombining c then [c]
  else ['\\', 'u', '\x7b'] ++ hexDigits c.toNat ++ ['\x7d']

/-- The text between double quotes. -/
def quoted (s : String) : String :=
  String.ofList ('"' :: s.toList.flatMap quoteChar ++ ['"'])

/-- An optional value: `None`, or `Some` around the form of the value. -/
def optional {α : Type} (form : α → String) : Option α → String
  | none => "None"
  | some a => "Some(" ++ form a ++ ")"

/-- A list: the forms of its items in brackets. -/
def listed {α : Type} (form : α → String) (items : List α) : String :=
  "[" ++ ", ".intercalate (items.map form) ++ "]"

/-- Bytes: a list of their numbers. -/
def byteList (bytes : ByteArray) : String :=
  listed (fun b => toString b.toNat) bytes.toList

/-- The body of a record form: each field with its name, separated by commas. -/
def fieldList : List (String × String) → String
  | [] => ""
  | [(name, form)] => name ++ ": " ++ form
  | (name, form) :: rest => name ++ ": " ++ form ++ ", " ++ fieldList rest

/-- A record form that lists all its fields. -/
def recordForm (name : String) (fields : List (String × String)) : String :=
  name ++ " \x7b " ++ fieldList fields ++ " \x7d"

/-- A record form that says it leaves fields out. -/
def openRecordForm (name : String) (fields : List (String × String)) : String :=
  name ++ " \x7b " ++ fieldList fields ++ ", .. \x7d"

end QueueRelay.Text

import QueueRelay.Number.Shortest
import QueueRelay.Value
/-!
Writing JSON, without blanks.

A quote, a backslash and the control characters are escaped; all other characters stand
for themselves.  JSON has no infinities and no NaN, so these are written as null.
-/
namespace QueueRelay.Json

/-- `n` in four hexadecimal digits. -/
def fourDigits (n : Nat) : List Char :=
  let digits := Nat.toDigits 16 n
  List.replicate (4 - digits.length) '0' ++ digits

def escape (c : Char) : List Char :=
  if c = '"' then ['\\', '"']
  else if c = '\\' then ['\\', '\\']
  else if c = '\n' then ['\\', 'n']
  else if c = '\r' then ['\\', 'r']
  else if c = '\t' then ['\\', 't']
  else if c = '\x08' then ['\\', 'b']
  else if c = '\x0c' then ['\\', 'f']
  else if c.toNat < 32 then ['\\', 'u'] ++ fourDigits c.toNat
  else [c]

/-- A text between quotes. -/
def renderText (s : String) : String :=
  String.ofList ('"' :: s.toList.flatMap escape ++ ['"'])

def renderFloat (x : Float) : String :=
  if x.isNaN || x.isInf then "null" else Number.plainText x

/-- Texts with commas between them. -/
def commaSeparated : List String → String
  | [] => ""
  | [s] => s
  | s :: rest => s ++ "," ++ commaSeparated rest

mutual

def render : Value → String
  | .null => "null"
  | .bool b => if b then "true" else "false"
  | .int n => toString n
  | .float x => renderFloat x
  | .text s => renderText s
  | .list items => "[" ++ commaSeparated (renderItems items) ++ "]"
  | .record fields => "\x7b" ++ commaSeparated (renderFields fields) ++ "\x7d"

def renderItems : List Value → List String
  | [] => []
  | v :: rest => render v :: renderItems rest

def renderFields : List (String × Value) → List String
  | [] => []
  | (name, v) :: rest => (renderText name ++ ":" ++ render v) :: renderFields rest

end

/-! ### Trees -/

mutual

/-- The tree of a document that holds a value.  It has null for a double that is no number. -/
def stored : Value → Value
  | .float x => if x.isNaN || x.isInf then .null else .float x
  | .list items => .list (storedItems items)
  | .record fields => .record (storedFields fields)
  | v => v

def storedItems : List Value → List Value
  | [] => []
  | v :: rest => stored v :: storedItems rest

def storedFields : List (String × Value) → List (String × Value)
  | [] => []
  | (name, v) :: rest => (name, stored v) :: storedFields rest

end

end QueueRelay.Json

import QueueRelay.DotEnv.Expansion
import QueueRelay.Table
import QueueRelay.Text.Blank
import QueueRelay.Text.Quoted
/-!
Files of `KEY=value` lines.

Blank lines, comments and lines without `=` are skipped.  A value in quotes is taken as
it stands; in a bare value the references to variables are replaced.  A later line for a
key replaces an earlier one.
-/
namespace QueueRelay

/-- The keys of a file with their values. -/
structure DotEnv where
  /-- Keys as written, each with the value of its last line. -/
  entries : Table String String
deriving DecidableEq

namespace DotEnv

/-- Why a file's text was refused: a line refers to a variable that is not set. -/
structure ParseError where
  /-- The line, counted from one. -/
  line : Nat
  /-- The key on that line. -/
  key : String
  /-- The name that could not be looked up. -/
  name : String
deriving DecidableEq

/-- Where the error is. -/
def ParseError.place (e : ParseError) : String :=
  "line " ++ toString e.line ++ ": cannot expand value of '" ++ e.key ++ "'"

/-- Where the error is, and what it is. -/
def ParseError.message (e : ParseError) : String :=
  e.place ++ ": error looking key '" ++ e.name ++
    "' up: environment variable not found: environment variable not found"

/-- Why a file could not be used. -/
inductive LoadError where
  /-- There is no such file. -/
  | missing (path : String)
  /-- Its bytes are not text. -/
  | notText (path : String)
  /-- Its text was refused. -/
  | malformed (path : String) (cause : ParseError)
deriving DecidableEq

/-- The outermost part of an error's wording. -/
def LoadError.place : LoadError → String
  | missing path | notText path => "Failed to read env file " ++ Text.quoted path
  | malformed path _ => "Failed to parse env file " ++ Text.quoted path

/-- The whole wording of an error. -/
def LoadError.message (e : LoadError) : String :=
  e.place ++ ": " ++ match e with
  | missing _ => "No such file or directory (os error 2)"
  | notText _ => "stream did not contain valid UTF-8"
  | malformed _ cause => cause.message

/-! ### Reading lines -/

/-- The pieces between line feeds. -/
def lines : List Char → List (List Char)
  | [] => [[]]
  | '\n' :: rest => [] :: lines rest
  | c :: rest =>
    match lines rest with
    | [] => [[c]]
    | line :: more => (c :: line) :: more

/-- The text before the first `=` and the text after it. -/
def splitAssignment : List Char → Option (List Char × List Char)
  | [] => none
  | '=' :: rest => some ([], rest)
  | c :: rest => (splitAssignment rest).map fun (key, value) => (c :: key, value)

/-- What may stand before a key, any number of times. -/
def exportWord : List Char := ['e', 'x', 'p', 'o', 'r', 't', ' ']

/-- The text without the export words it begins with. -/
def dropExports (s : List Char) : List Char :=
  if h : exportWord.isPrefixOf s then
    have : 7 ≤ s.length := (List.isPrefixOf_iff_prefix.1 h).length_le
    dropExports (s.drop 7)
  else s
termination_by s.length
decreasing_by simp only [List.length_drop]; omega

/-- What stands between two quotes `q`, if the value begins and ends with one. -/
def unquote? (q : Char) (value : List Char) : Option (List Char) :=
  match value with
  | c :: rest => if c = q ∧ rest.getLast? = some q then some rest.dropLast else none
  | [] => none

/-- The stored value: the inside of quotes as it stands, or the expansion of a bare one. -/
def value (vars : Variables) (raw : List Char) : Except String String :=
  match (unquote? '\'' raw).or (unquote? '"' raw) with
  | some literal => .ok (String.ofList literal)
  | none => expand vars (String.ofList raw)

/-- The key and the raw value on a line; nothing for a line that is skipped. -/
def assignment? (line : List Char) : Option (List Char × List Char) :=
  let line := Text.trimList line
  if line.head? = some '#' then none
  else do
    let (key, raw) ← splitAssignment line
    let key := Text.trimList (dropExports (Text.trimList key))
    if key.isEmpty then none else some (key, Text.trimList raw)

/-- Takes one line into account. -/
def parseLine (vars : Variables) (number : Nat) (entries : Table String String)
    (line : List Char) : Except ParseError (Table String String) :=
  match assignment? line with
  | none => .ok entries
  | some (key, raw) =>
    match value vars raw with
    | .ok value => .ok (entries.set (String.ofList key) value)
    | .error name => .error ⟨number, String.ofList key, name⟩

/-- Takes lines into account one after the other, the first of them having `number`. -/
def parseLines (vars : Variables) (number : Nat) (entries : Table String String) :
    List (List Char) → Except ParseError (Table String String)
  | [] => .ok entries
  | line :: rest => do
    let entries ← parseLine vars number entries line
    parseLines vars (number + 1) entries rest

/-- Reads the text of a file. -/
def parse (vars : Variables) (contents : String) : Except ParseError DotEnv :=
  (parseLines vars 1 .empty (lines contents.toList)).map DotEnv.mk

/-- Reads a file that holds `bytes`, or that is not there. -/
def load (vars : Variables) (path : String) (bytes : Option ByteArray) :
    Except LoadError DotEnv :=
  match bytes with
  | none => .error (.missing path)
  | some bytes =>
    match String.fromUTF8? bytes with
    | none => .error (.notText path)
    | some contents => (parse vars contents).mapError (.malformed path)

/-- The file that holds the given pairs. -/
def ofPairs (pairs : List (String × String)) : DotEnv := ⟨.ofList pairs⟩

/-! ### Looking values up -/

def get? (d : DotEnv) (key : String) : Option String := d.entries.get? key

def contains (d : DotEnv) (key : String) : Bool := d.entries.contains key

/-- The value of `key`, or `fallback` when it is absent or empty. -/
def getOr (d : DotEnv) (key fallback : String) : String :=
  match d.get? key with
  | some value => if value.isEmpty then fallback else value
  | none => fallback

/-- The value of `key` unless it is absent or empty. -/
def nonEmpty? (d : DotEnv) (key : String) : Option String :=
  (d.get? key).filter fun value => !value.isEmpty

/-- Whether the value of `key` is the word true in any case; `fallback` when it is absent. -/
def getBool (d : DotEnv) (key : String) (fallback : Bool) : Bool :=
  match d.get? key with
  | some value => Text.asciiLower (Text.trim value) == "true"
  | none => fallback

/-! ### What may be shown -/

/-- What is shown in place of a secret. -/
def redaction : String := "***"

/-- Words that mark the key of a secret. -/
def secretWords : List String := ["password", "key", "secret", "connection"]

/-- Whether `word` occurs in `s`. -/
def occursIn (word s : List Char) : Bool :=
  match s with
  | [] => word.isEmpty
  | c :: rest => word.isPrefixOf (c :: rest) || occursIn word rest

/-- Whether the value of a key must not be shown. -/
def isSecretKey (key : String) : Bool :=
  secretWords.any fun word => occursIn word.toList (Text.asciiLower key).toList

/-- The entries with every secret covered. -/
def redacted (d : DotEnv) : List (String × String) :=
  d.entries.entries.map fun (key, value) => (key, if isSecretKey key then redaction else value)

end DotEnv

end QueueRelay

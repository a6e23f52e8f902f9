/-!
Texts, keys, comments and line ends of a TOML document.

Each reader gives back what stands behind what it took.  The recursion over a text is
bounded by its length.
-/
namespace QueueRelay.Toml

def isSpace (c : Char) : Bool := c == ' ' || c == '\t'

def skipSpaces (s : List Char) : List Char := s.dropWhile isSpace

/-- A control character other than the tab. -/
def isForbidden (c : Char) : Bool := (c.toNat < 32 && c != '\t') || c.toNat == 127

/-! ### Lines -/

/-- A line end, if one comes next. -/
def newline? : List Char → Option (List Char)
  | '\n' :: rest => some rest
  | '\r' :: '\n' :: rest => some rest
  | _ => none

/-- A line end, or the end of the document. -/
def lineEnd? : List Char → Option (List Char)
  | [] => some []
  | s => newline? s

/-- What stands behind the characters of a comment. -/
def skipComment (s : List Char) : List Char := s.dropWhile fun c => !isForbidden c

/-- The rest of a line: blanks, a comment perhaps, and the line end. -/
def lineRest? (s : List Char) : Option (List Char) :=
  match skipSpaces s with
  | '#' :: rest => lineEnd? (skipComment rest)
  | s => lineEnd? s

/-- Blanks, comments and line ends, as they may stand between the items of an array. -/
def skipFiller : Nat → List Char → List Char
  | 0, s => s
  | n + 1, s =>
    match skipSpaces s with
    | '#' :: rest =>
      match newline? (skipComment rest) with
      | some rest => skipFiller n rest
      | none => '#' :: rest
    | s =>
      match newline? s with
      | some rest => skipFiller n rest
      | none => s

/-! ### Escapes -/

def hexValue? (c : Char) : Option Nat :=
  if c.isDigit then some (c.toNat - 48)
  else if 'a' ≤ c ∧ c ≤ 'f' then some (c.toNat - 87)
  else if 'A' ≤ c ∧ c ≤ 'F' then some (c.toNat - 55)
  else none

/-- The character whose number is written by the next `width` hexadecimal digits. -/
def coded? (width : Nat) (s : List Char) : Option (Char × List Char) := do
  if s.length < width then none
  else
    let n ← (s.take width).foldlM (fun n c => (hexValue? c).map (n * 16 + ·)) 0
    if n < 0xD800 ∨ (0xDFFF < n ∧ n < 0x110000) then
      return (Char.ofNat n, s.drop width)
    else none

/-- The character that is written behind a backslash. -/
def escape? : List Char → Option (Char × List Char)
  | [] => none
  | c :: rest =>
    if c = 'b' then some ('\x08', rest)
    else if c = 't' then some ('\t', rest)
    else if c = 'n' then some ('\n', rest)
    else if c = 'f' then some ('\x0c', rest)
    else if c = 'r' then some ('\r', rest)
    else if c = '"' then some ('"', rest)
    else if c = '\\' then some ('\\', rest)
    else if c = 'u' then coded? 4 rest
    else if c = 'U' then coded? 8 rest
    else none

/-! ### Texts on one line -/

/-- A quoted text behind its opening quote. -/
def quotedBody? : Nat → List Char → Option (List Char × List Char)
  | 0, _ => none
  | n + 1, s =>
    match s with
    | [] => none
    | '"' :: rest => some ([], rest)
    | '\\' :: rest => do
      let (c, rest) ← escape? rest
      let (body, rest) ← quotedBody? n rest
      return (c :: body, rest)
    | c :: rest =>
      if isForbidden c then none
      else (quotedBody? n rest).map fun (body, rest) => (c :: body, rest)

/-- A literal text behind its opening apostrophe. -/
def literalBody? (s : List Char) : Option (List Char × List Char) :=
  let body := s.takeWhile fun c => c != '\'' && !isForbidden c
  match s.drop body.length with
  | '\'' :: rest => some (body, rest)
  | _ => none

/-! ### Texts on several lines -/

/-- The quotes in front of a text, at most five. -/
def leading (quote : Char) (s : List Char) : Nat :=
  ((s.take 5).takeWhile (· = quote)).length

/-- Blanks and line ends. -/
def skipBlank : Nat → List Char → List Char
  | 0, s => s
  | n + 1, s =>
    let s := skipSpaces s
    match newline? s with
    | some rest => skipBlank n rest
    | none => s

/-- What stands behind a backslash at the end of a line and the blank text after it. -/
def continued? (n : Nat) (s : List Char) : Option (List Char) :=
  (newline? (skipSpaces s)).map (skipBlank n)

/-- A quoted text of several lines behind its opening quotes. -/
def quotedLines? : Nat → List Char → Option (List Char × List Char)
  | 0, _ => none
  | n + 1, s =>
    let quotes := leading '"' s
    if 3 ≤ quotes then some (List.replicate (quotes - 3) '"', s.drop quotes)
    else
      match newline? s with
      | some rest => (quotedLines? n rest).map fun (body, rest) => ('\n' :: body, rest)
      | none =>
        match s with
        | [] => none
        | '\\' :: rest =>
          match continued? n rest with
          | some rest => quotedLines? n rest
          | none => do
            let (c, rest) ← escape? rest
            let (body, rest) ← quotedLines? n rest
            return (c :: body, rest)
        | c :: rest =>
          if isForbidden c then none
          else (quotedLines? n rest).map fun (body, rest) => (c :: body, rest)

/-- A literal text of several lines behind its opening apostrophes. -/
def literalLines? : Nat → List Char → Option (List Char × List Char)
  | 0, _ => none
  | n + 1, s =>
    let quotes := leading '\'' s
    if 3 ≤ quotes then some (List.replicate (quotes - 3) '\'', s.drop quotes)
    else
      match newline? s with
      | some rest => (literalLines? n rest).map fun (body, rest) => ('\n' :: body, rest)
      | none =>
        match s with
        | [] => none
        | c :: rest =>
          if isForbidden c then none
          else (literalLines? n rest).map fun (body, rest) => (c :: body, rest)

/-- A text without the line end that may stand right behind its opening quotes. -/
def withoutFirstNewline (s : List Char) : List Char := (newline? s).getD s

/-- A text of any of the four kinds. -/
def text? (s : List Char) : Option (List Char × List Char) :=
  match s with
  | '"' :: '"' :: '"' :: rest => quotedLines? (s.length + 1) (withoutFirstNewline rest)
  | '\'' :: '\'' :: '\'' :: rest => literalLines? (s.length + 1) (withoutFirstNewline rest)
  | '"' :: rest => quotedBody? (s.length + 1) rest
  | '\'' :: rest => literalBody? rest
  | _ => none

/-! ### Keys -/

def isBare (c : Char) : Bool := c.isAlphanum || c == '_' || c == '-'

/-- One part of a key. -/
def keyPart? (s : List Char) : Option (String × List Char) :=
  match s with
  | '"' :: rest => (quotedBody? (s.length + 1) rest).map fun (k, rest) => (String.ofList k, rest)
  | '\'' :: rest => (literalBody? rest).map fun (k, rest) => (String.ofList k, rest)
  | _ =>
    let key := s.takeWhile isBare
    if key.isEmpty then none else some (String.ofList key, s.dropWhile isBare)

/-- A key: parts with points and blanks between them. -/
def key? : Nat → List Char → Option (List String × List Char)
  | 0, _ => none
  | n + 1, s => do
    let (part, rest) ← keyPart? (skipSpaces s)
    match skipSpaces rest with
    | '.' :: rest =>
      let (parts, rest) ← key? n rest
      return (part :: parts, rest)
    | rest => return ([part], rest)

end QueueRelay.Toml

import QueueRelay.Toml.Node
import QueueRelay.Toml.Scalar
import QueueRelay.Toml.Text
/-!
Reading a TOML document.

A document is a sequence of lines: pairs, table headers, comments and blank lines.  Pairs
go into the table of the latest header.  A document with any fault has no value at all.
-/
namespace QueueRelay.Toml

/-- Arrays and inline tables nest at most this deep, and a key has at most as many parts. -/
def maxDepth : Nat := 79

/-- A key of a pair or of a header. -/
def path? (s : List Char) : Option (List String × List Char) := do
  let (path, rest) ← key? (s.length + 1) s
  if path.length ≤ maxDepth then return (path, rest) else none

/-! ### Values -/

mutual

/-- A value, and what stands behind it. -/
def value? : Nat → Nat → List Char → Option (Value × List Char)
  | 0, _, _ => none
  | n + 1, depth, s =>
    match s with
    | '"' :: _ | '\'' :: _ => (text? s).map fun (t, rest) => (.text (String.ofList t), rest)
    | '[' :: rest =>
      match depth with
      | 0 => none
      | depth + 1 => (items? n depth rest).map fun (items, rest) => (.list items, rest)
    | '\x7b' :: rest =>
      match depth with
      | 0 => none
      | depth + 1 =>
        match skipSpaces rest with
        | '\x7d' :: rest => some (.record [], rest)
        | rest =>
          (pairs? n depth [] rest).map fun (es, rest) => (.record (entriesToValue es), rest)
    | 't' :: 'r' :: 'u' :: 'e' :: rest => some (.bool true, rest)
    | 'f' :: 'a' :: 'l' :: 's' :: 'e' :: rest => some (.bool false, rest)
    | _ => numeric? s

/-- The items of an array, behind its opening bracket or behind a comma. -/
def items? : Nat → Nat → List Char → Option (List Value × List Char)
  | 0, _, _ => none
  | n + 1, depth, s =>
    match skipFiller s.length s with
    | ']' :: rest => some ([], rest)
    | s => do
      let (v, rest) ← value? n depth s
      match skipFiller rest.length rest with
      | ',' :: rest =>
        let (items, rest) ← items? n depth rest
        return (v :: items, rest)
      | ']' :: rest => return ([v], rest)
      | _ => none

/-- The pairs of an inline table, added to those before them. -/
def pairs? : Nat → Nat → Entries → List Char → Option (Entries × List Char)
  | 0, _, _, _ => none
  | n + 1, depth, es, s => do
    let (key, rest) ← path? s
    match rest with
    | '=' :: rest =>
      let (v, rest) ← value? n depth (skipSpaces rest)
      let last ← key.getLast?
      let es ← Entries.addPair key.dropLast last (.value v) es
      match skipSpaces rest with
      | ',' :: rest => pairs? n depth es rest
      | '\x7d' :: rest => return (es, rest)
      | _ => none
    | _ => none

end

/-! ### Lines -/

/-- A document as far as it has been read. -/
structure Draft where
  /-- The finished tables. -/
  root : Entries := []
  /-- The table that pairs go into. -/
  current : Entries := []
  /-- Path of that table; the root's is empty. -/
  path : List String := []
  /-- Whether it is the next table of an array. -/
  isItem : Bool := false

namespace Draft

/-- Puts the current table into the tree. -/
def close (d : Draft) : Option Entries :=
  match d.path.getLast? with
  | none => some d.current
  | some key =>
    if d.isItem then Entries.closeTables d.path.dropLast key d.current d.root
    else Entries.closeTable d.path.dropLast key d.current d.root

/-- Begins the table of a header. -/
def beginTable (d : Draft) (path : List String) : Option Draft := do
  let key ← path.getLast?
  let (current, root) ← Entries.openTable path.dropLast key (← d.close)
  return { root := root, current := current, path := path }

/-- Begins the next table of an array. -/
def beginItem (d : Draft) (path : List String) : Option Draft := do
  let key ← path.getLast?
  let root ← Entries.openTables path.dropLast key (← d.close)
  return { root := root, path := path, isItem := true }

/-- Adds a pair to the current table. -/
def add (d : Draft) (path : List String) (v : Value) : Option Draft := do
  let key ← path.getLast?
  return { d with current := ← Entries.addPair path.dropLast key (.value v) d.current }

/-- Reads a header or a pair. -/
def readLine (d : Draft) (s : List Char) : Option (Draft × List Char) :=
  match s with
  | '[' :: '[' :: rest => do
    let (path, rest) ← path? rest
    let rest ← expect? ']' (← expect? ']' rest)
    return (← d.beginItem path, ← lineRest? rest)
  | '[' :: rest => do
    let (path, rest) ← path? rest
    return (← d.beginTable path, ← lineRest? (← expect? ']' rest))
  | _ => do
    let (path, rest) ← path? s
    let (v, rest) ← value? (s.length + 1) maxDepth (skipSpaces (← expect? '=' rest))
    return (← d.add path v, ← lineRest? rest)

/-- Reads all lines. -/
def readLines : Nat → Draft → List Char → Option Draft
  | 0, _, _ => none
  | n + 1, d, s =>
    match skipSpaces s with
    | [] => some d
    | '#' :: rest => do readLines n d (← lineEnd? (skipComment rest))
    | s =>
      match newline? s with
      | some rest => readLines n d rest
      | none => do
        let (d, rest) ← d.readLine s
        readLines n d rest

end Draft

/-- A document without the mark that may stand in front of it. -/
def withoutMark : List Char → List Char
  | c :: rest => if c.toNat = 0xFEFF then rest else c :: rest
  | [] => []

/-- The fields of a document. -/
def parse? (document : String) : Option (List (String × Value)) := do
  let s := withoutMark document.toList
  let d ← Draft.readLines (s.length + 1) {} s
  return entriesToValue (← d.close)

end QueueRelay.Toml

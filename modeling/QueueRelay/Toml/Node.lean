import QueueRelay.Value
/-!
The tree that a TOML document builds up line by line.

A table may be made on the way to another one, by a header or by a key with points.  Such
a table can still be given its own header, but only one, and only if no key with points
made it; and a key with points adds only to tables that no header has defined.  An array
of tables is added to at its last table.
-/
namespace QueueRelay.Toml

/-- A part of a document. -/
inductive Node where
  | value (v : Value)
  /-- A table.  It is `implicit` as long as no header has defined it, and `dotted` if a key
  with points made it. -/
  | table (implicit dotted : Bool) (entries : List (String × Node))
  /-- An array of tables, each made by a header. -/
  | tables (items : List (List (String × Node)))

/-- The entries of a table. -/
abbrev Entries := List (String × Node)

namespace Entries

/-- The entry with a key. -/
def node? (key : String) (es : Entries) : Option Node :=
  (es.find? fun e => e.1 = key).map Prod.snd

/-- The entries with another value under a key that they have. -/
def replace (key : String) (node : Node) (es : Entries) : Entries :=
  es.map fun e => if e.1 = key then (key, node) else e

/-- The entries without a key. -/
def remove (key : String) (es : Entries) : Entries :=
  es.filter fun e => e.1 ≠ key

/-- Goes down a path, making tables where there are none, and acts on the table at its
end.  The action is told whether that table is `dotted`. -/
def within {α : Type} (byKey : Bool) (act : Bool → Entries → Option (α × Entries)) :
    List String → Bool → Entries → Option (α × Entries)
  | [], dotted, es => act dotted es
  | key :: path, _, es =>
    match node? key es with
    | none => do
      let (a, inner) ← within byKey act path byKey []
      return (a, es ++ [(key, .table true byKey inner)])
    | some (.value _) => none
    | some (.tables items) => do
      let last ← items.getLast?
      let (a, inner) ← within byKey act path false last
      return (a, replace key (.tables (items.dropLast ++ [inner])) es)
    | some (.table implicit dotted inner) =>
      if byKey && !implicit then none
      else do
        let (a, inner) ← within byKey act path dotted inner
        return (a, replace key (.table implicit dotted inner) es)

/-- Adds a key and its value to a table. -/
def addPair (path : List String) (key : String) (node : Node) (es : Entries) :
    Option Entries :=
  (within true (fun dotted es =>
    if dotted = path.isEmpty then none
    else if (node? key es).isSome then none
    else some ((), es ++ [(key, node)])) path false es).map Prod.snd

/-- Opens a table for its header: takes what a path to another table has made of it out
of the tree. -/
def openTable (path : List String) (key : String) (es : Entries) : Option (Entries × Entries) :=
  within false (fun _ es =>
    match node? key es with
    | none => some ([], es)
    | some (.table true false inner) => some (inner, remove key es)
    | some _ => none) path false es

/-- Opens an array of tables for the header of its next table. -/
def openTables (path : List String) (key : String) (es : Entries) : Option Entries :=
  (within false (fun _ es =>
    match node? key es with
    | none => some ((), es ++ [(key, .tables [])])
    | some (.tables _) => some ((), es)
    | some _ => none) path false es).map Prod.snd

/-- Puts a finished table into the tree. -/
def closeTable (path : List String) (key : String) (table es : Entries) : Option Entries :=
  (within false (fun _ es =>
    match node? key es with
    | none => some ((), es ++ [(key, .table false false table)])
    | some _ => none) path false es).map Prod.snd

/-- Puts a finished table at the end of its array. -/
def closeTables (path : List String) (key : String) (table es : Entries) : Option Entries :=
  (within false (fun _ es =>
    match node? key es with
    | some (.tables items) => some ((), replace key (.tables (items ++ [table])) es)
    | _ => none) path false es).map Prod.snd

end Entries

/-! ### The value of a tree -/

mutual

def Node.toValue : Node → Value
  | .value v => v
  | .table _ _ entries => .record (entriesToValue entries)
  | .tables items => .list (itemsToValue items)

def entriesToValue : List (String × Node) → List (String × Value)
  | [] => []
  | (key, node) :: rest => (key, node.toValue) :: entriesToValue rest

def itemsToValue : List (List (String × Node)) → List Value
  | [] => []
  | es :: rest => .record (entriesToValue es) :: itemsToValue rest

end

end QueueRelay.Toml

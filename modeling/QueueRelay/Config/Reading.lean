import QueueRelay.Value
/-!
Reading typed data from untyped values.

A record type is read from a record, field by field and by name, or from a list, field by
field and by position.  What a scalar may be read from is the choice of a `Reading`: the
exact one takes a scalar only from its own kind, whole numbers also serving as doubles.
-/
namespace QueueRelay

/-- What the scalars of a configuration may be read from. -/
structure Reading where
  /-- Reads a truth value. -/
  bool : Value → Option Bool
  /-- Reads a text. -/
  text : Value → Option String
  /-- Reads a double. -/
  float : Value → Option Float
  /-- Reads a whole number of at most `bits` bits. -/
  word : (bits : Nat) → Value → Option Nat
  /-- Reads the name of one of several plain choices. -/
  choice : Value → Option String
  /-- Whether a list may hold more items than a record type has fields. -/
  allowsExtra : Bool

namespace Reading

/-- Every scalar is read from its own kind only. -/
def exact : Reading where
  bool
    | .bool b => some b
    | _ => none
  text
    | .text s => some s
    | _ => none
  float
    | .float x => some x
    | .int n => some (Float.ofInt n)
    | _ => none
  word bits
    | .int n => if 0 ≤ n ∧ n < Nat.pow 2 bits then some n.toNat else none
    | _ => none
  choice
    | .text s => some s
    | .record [(name, .null)] => some name
    | _ => none
  allowsExtra := false

/-- An optional value: null is none. -/
def nullable {α : Type} (read : Value → Option α) : Value → Option (Option α)
  | .null => some none
  | v => (read v).map some

/-- A list, item by item. -/
def list {α : Type} (read : Value → Option α) : Value → Option (List α)
  | .list items => items.mapM read
  | _ => none

end Reading

/-! ### Fields of a record type -/

/-- Where the fields of a record type come from. -/
inductive Fields where
  /-- By name. -/
  | named (fields : List (String × Value))
  /-- By position. -/
  | placed (items : List Value)

namespace Fields

/-- The fields of a value for a record type of `count` fields. -/
def ofValue? (r : Reading) (count : Nat) : Value → Option Fields
  | .record fields => some (named fields)
  | .list items => if r.allowsExtra || items.length ≤ count then some (placed items) else none
  | _ => none

/-- The value of the field called `name` at position `index`. -/
def get? (f : Fields) (index : Nat) (name : String) : Option Value :=
  match f with
  | named fields => (fields.find? fun e => e.1 = name).map Prod.snd
  | placed items => items[index]?

/-- A field that has to be there. -/
def required {α : Type} (f : Fields) (index : Nat) (name : String) (read : Value → Option α) :
    Option α :=
  (f.get? index name).bind read

/-- A field with a standard value. -/
def withDefault {α : Type} (f : Fields) (index : Nat) (name : String)
    (read : Value → Option α) (standard : α) : Option α :=
  match f.get? index name with
  | none => some standard
  | some v => read v

/-- An optional field that only a record may leave out. -/
def nullable {α : Type} (f : Fields) (index : Nat) (name : String) (read : Value → Option α) :
    Option (Option α) :=
  match f, f.get? index name with
  | named _, none => some none
  | placed _, none => none
  | _, some v => Reading.nullable read v

end Fields

end QueueRelay

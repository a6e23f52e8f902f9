import QueueRelay.Number.Binary64
/-!
Configuration data before it has a type.

A value is what a document, an overlay or a variable can hold: nothing, a truth value, a
whole number, a double, a text, a list or a record.  The keys of a record keep their
order; a record is read by key, and the first pair with a key counts.
-/
namespace QueueRelay

/-- Untyped configuration data. -/
inductive Value where
  | null
  | bool (b : Bool)
  | int (n : Int)
  | float (x : Float)
  | text (s : String)
  | list (items : List Value)
  | record (fields : List (String × Value))
deriving Inhabited, BEq

namespace Value

/-- The field `name` of a record. -/
def field? (name : String) : Value → Option Value
  | record fields => (fields.find? fun f => f.1 == name).map Prod.snd
  | _ => none

end Value

end QueueRelay

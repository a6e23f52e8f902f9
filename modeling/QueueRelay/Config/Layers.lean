import QueueRelay.Config.Lenient
/-!
Layers of configuration data.

A layer is put over what is there key by key: tables are merged, everything else is
replaced.  Keys are compared in lower case.  The key of a whole layer's field may be an
address, with points between the names of nested fields and with indexes in brackets;
what an address needs on the way and does not find is made.
-/
namespace QueueRelay.Config.Layers

/-! ### Merging -/

/-- The fields of a record; other values have none. -/
def fieldsOf : Value → List (String × Value)
  | .record fields => fields
  | _ => []

/-- The value under a key, null if there is none. -/
def fieldOf (key : String) (fields : List (String × Value)) : Value :=
  ((fields.find? fun f => f.1 = key).map Prod.snd).getD .null

/-- Gives a key a value. -/
def setField (key : String) (v : Value) : List (String × Value) → List (String × Value)
  | [] => [(key, v)]
  | f :: rest => if f.1 = key then (key, v) :: rest else f :: setField key v rest

/-- Whether a key has a value. -/
def hasField (key : String) (fields : List (String × Value)) : Bool :=
  fields.any fun f => f.1 = key

mutual

/-- Puts a value under a key of what is there.  A table is merged with what the key has,
which an empty table leaves alone. -/
def place (key : String) (v : Value) (root : Value) : Value :=
  let key := Reading.lowerCase key
  let fields := fieldsOf root
  match v with
  | .record incoming =>
    let target := if hasField key fields then fieldOf key fields else .record []
    .record (setField key (placeAll incoming target) fields)
  | v => .record (setField key v fields)

/-- Puts fields over what is there. -/
def placeAll : List (String × Value) → Value → Value
  | [], target => target
  | (key, v) :: rest, target => placeAll rest (place key v target)

end

/-! ### Addresses -/

/-- One step of an address. -/
inductive Step where
  | key (name : String)
  /-- An item of a list; a negative index counts from the end. -/
  | index (i : Int)
deriving DecidableEq

/-- A character of a name in an address. -/
def isNameChar (c : Char) : Bool :=
  c.isAlphanum || c == ' ' || c == '_' || c == '-' || c == ':'

/-- A whole number in brackets, behind the opening one. -/
def bracketed? (s : List Char) : Option (Int × List Char) :=
  let (negative, s) := match s with
    | '-' :: rest => (true, rest)
    | _ => (false, s)
  let digits := s.takeWhile Char.isDigit
  let n := Int.ofNat (Number.ofDigits digits)
  let n := if negative then -n else n
  match s.dropWhile Char.isDigit with
  | ']' :: rest =>
    if digits.isEmpty || n < -0x8000000000000000 || 0x8000000000000000 ≤ n then none
    else some (n, rest)
  | _ => none

/-- A name, behind a point or at the beginning. -/
def name? (s : List Char) : Option (String × List Char) :=
  let name := s.takeWhile isNameChar
  if name.isEmpty then none else some (String.ofList name, s.dropWhile isNameChar)

/-- The steps behind the first one. -/
def moreSteps? : Nat → List Char → Option (List Step)
  | 0, _ => none
  | _ + 1, [] => some []
  | n + 1, c :: rest =>
    if c = '.' then do
      let (name, rest) ← name? rest
      return .key name :: (← moreSteps? n rest)
    else if c = '[' then do
      let (i, rest) ← bracketed? rest
      return .index i :: (← moreSteps? n rest)
    else none

/-- The address that a key writes. -/
def address? (key : String) : Option (List Step) := do
  let (name, rest) ← name? key.toList
  return .key name :: (← moreSteps? (rest.length + 1) rest)

/-- The items of a list; other values have none. -/
def itemsOf : Value → List Value
  | .list items => items
  | _ => []

/-- Changes an item of a list.  A list that is too short is filled up with nulls, in front
if the index counts from the end. -/
def modifyItem (i : Int) (f : Value → Value) (items : List Value) : List Value :=
  let k := if 0 ≤ i then i else i + items.length
  if 0 ≤ k then
    let k := k.toNat
    let items := items ++ List.replicate (k + 1 - items.length) .null
    items.set k (f (items.getD k .null))
  else
    let items := List.replicate (-k).toNat .null ++ items
    items.set 0 (f (items.getD 0 .null))

/-- Puts a value at an address. -/
def setAt : List Step → Value → Value → Value
  | [], v, _ => v
  | [.key name], v, root => place name v root
  | .key name :: path, v, root =>
    let name := Reading.lowerCase name
    let fields := fieldsOf root
    .record (setField name (setAt path v (fieldOf name fields)) fields)
  | .index i :: path, v, root => .list (modifyItem i (setAt path v) (itemsOf root))

/-- Puts the field of a layer over what is there.  A key that is no address is taken as a
name. -/
def putField (root : Value) (field : String × Value) : Value :=
  match address? field.1 with
  | some path => setAt path field.2 root
  | none => place field.1 field.2 root

/-- Puts a layer over what is there. -/
def put (root : Value) (layer : List (String × Value)) : Value :=
  layer.foldl putField root

/-- Layers put one over the other, the last one on top. -/
def merge (layers : List (List (String × Value))) : Value :=
  layers.foldl put (.record [])

/-! ### Variables -/

/-- What stands in front of the name of every variable that counts, in lower case. -/
def variableMark : String := "relay__"

/-- The text with every pair of underscores replaced by a point. -/
def pointed : List Char → List Char
  | '_' :: '_' :: rest => '.' :: pointed rest
  | c :: rest => c :: pointed rest
  | [] => []

/-- The value that the text of a variable stands for. -/
def variableValue (s : String) : Value :=
  if Reading.lowerCase s = "true" then .bool true
  else if Reading.lowerCase s = "false" then .bool false
  else
    match Number.wholeNumber? s.toList with
    | some n =>
      if -0x8000000000000000 ≤ n ∧ n < 0x8000000000000000 then .int n
      else ((Number.double? s.toList).map Value.float).getD (.text s)
    | none => ((Number.double? s.toList).map Value.float).getD (.text s)

/-- The field that a variable sets, if it sets one. -/
def variableField? (assignment : String × String) : Option (String × Value) :=
  let name := (Reading.lowerCase assignment.1).toList
  if variableMark.toList.isPrefixOf name then
    some (String.ofList (pointed (name.drop variableMark.toList.length)),
      variableValue assignment.2)
  else none

/-- The layer that variables make. -/
def ofVariables (vars : List (String × String)) : List (String × Value) :=
  vars.filterMap variableField?

end QueueRelay.Config.Layers

import QueueRelay.Config.Codec
import QueueRelay.Config.Layers
import QueueRelay.Toml
/-!
A configuration from files and variables.

The base file comes first, then the overlay for an environment if there is such a file,
then the variables.  The overlay for `staging` is `environments/staging.toml` next to the
base file.

Which file stands for a path and how it is read is the choice of a `FileSource`.  The one at
hand, `tomlFiles`, knows TOML alone and takes a path as it is; others may know more formats,
and try known endings where there is no file at the path itself.
-/
namespace QueueRelay.Config

/-! ### Paths -/

/-- A part of a path that leads nowhere. -/
def isIdle (part : List Char) : Bool := part.isEmpty || part == ['.']

/-- The parts of a path between its slashes. -/
def partsOf : List Char → List (List Char)
  | [] => [[]]
  | c :: rest =>
    if c = '/' then [] :: partsOf rest
    else
      match partsOf rest with
      | part :: parts => (c :: part) :: parts
      | [] => [[c]]

/-- Parts with slashes between them. -/
def joinParts : List (List Char) → List Char
  | [] => []
  | [part] => part
  | part :: rest => part ++ '/' :: joinParts rest

/-- The parts without those at the end that lead nowhere. -/
def trimParts (parts : List (List Char)) : List (List Char) :=
  (parts.reverse.dropWhile isIdle).reverse

/-- The beginning of a path that is more than a separator or a part: a slash, or a point
with nothing or a slash behind it. -/
def headLength (path : List Char) : Nat :=
  match path with
  | '/' :: _ | ['.'] | '.' :: '/' :: _ => 1
  | _ => 0

/-- The path of the directory that holds what is at a path. -/
def parent? (path : List Char) : Option (List Char) :=
  let head := path.take (headLength path)
  match trimParts (partsOf (path.drop (headLength path))) with
  | [] => if head = ['.'] then some [] else none
  | parts => some (head ++ joinParts (trimParts parts.dropLast))

/-- A path seen from a directory. -/
def joinPath (directory path : List Char) : List Char :=
  match path with
  | '/' :: _ => path
  | _ =>
    if directory.isEmpty || directory.getLast? = some '/' then directory ++ path
    else directory ++ '/' :: path

/-- The path of the overlay for an environment. -/
def overlayPath (base environment : String) : String :=
  let directory := (parent? base.toList).getD ['.']
  String.ofList
    (joinPath (joinPath directory "environments".toList) (environment ++ ".toml").toList)

/-- Whether a path ends in a name with the ending `.toml`. -/
def isToml (path : String) : Bool :=
  match (partsOf path.toList).getLast? with
  | some name => ".toml".toList.isSuffixOf name && name != ".toml".toList
  | none => false

/-! ### Loading -/

/-- Why no configuration could be loaded. -/
inductive LoadError where
  /-- A file is missing or cannot be read. -/
  | unreadable
  /-- The data do not fit the configuration. -/
  | unfit
  /-- The configuration is not valid. -/
  | invalid (e : RelayError)
deriving DecidableEq

/-- The files that can be read, by path. -/
abbrev Files := String → Option ByteArray

/-- Follows the parts of a path, from the names of the directories that lead to where it
begins, the nearest first.  Going up is only possible from a directory that exists. -/
def follow? (exists? : List (List Char) → Bool) :
    List (List Char) → List (List Char) → Option (List (List Char))
  | here, [] => some here
  | here, part :: rest =>
    if isIdle part then follow? exists? here rest
    else if part = ['.', '.'] then
      if exists? here then follow? exists? here.tail rest else none
    else follow? exists? (part :: here) rest

/-- The files of a list.  A directory exists if it holds one of them. -/
def Files.ofList (files : List (String × ByteArray)) : Files := fun path =>
  let located := files.filterMap fun f =>
    (follow? (fun _ => true) [] (partsOf f.1.toList)).map fun place => (place, f.2)
  let exists? place := located.any fun f => place.isSuffixOf f.1
  (follow? exists? [] (partsOf path.toList)).bind fun place =>
    (located.find? fun f => f.1 == place).map Prod.snd

/-- What there is for a path. -/
inductive Found where
  /-- No file stands for it. -/
  | nothing
  /-- A file does that is no configuration data. -/
  | unreadable
  /-- A file does that has these fields. -/
  | data (fields : List (String × Value))

/-- How the file that stands for a path is found and read. -/
abbrev FileSource := Files → String → Found

/-- Files of TOML, each at its own path. -/
def tomlFiles : FileSource := fun files path =>
  match files path with
  | none => .nothing
  | some bytes =>
    if isToml path then
      match (String.fromUTF8? bytes).bind Toml.parse? with
      | some fields => .data fields
      | none => .unreadable
    else .unreadable

/-- The layer of a file that has to be there. -/
def Found.layer : Found → Except LoadError (List (String × Value))
  | data fields => .ok fields
  | nothing | unreadable => .error .unreadable

section
variable (source : FileSource) (files : Files) (vars : List (String × String)) (base : String)

/-- The layer of the environment that is asked for.  An overlay that does not exist is empty,
and so is that of no environment. -/
def environmentLayer : Option String → Except LoadError (List (String × Value))
  | some name =>
    let path := overlayPath base name
    if (files path).isSome then (source files path).layer else .ok []
  | none => .ok []

/-- The data of all layers. -/
def loadData (environment : Option String) : Except LoadError Value := do
  let fields ← (source files base).layer
  let overlay ← environmentLayer source files base environment
  return Layers.merge [fields, overlay, Layers.ofVariables vars]

/-- The configuration of the files and variables, validated. -/
def loadWith (environment : Option String) : Except LoadError Config := do
  let data ← loadData source files vars base environment
  match Config.ofValue? .lenient data with
  | none => throw .unfit
  | some c =>
    match c.validate with
    | .ok _ => return c
    | .error e => throw (.invalid e)

end

/-- The configuration of files of TOML and of variables, validated. -/
def load (files : Files) (vars : List (String × String)) (base : String)
    (environment : Option String) : Except LoadError Config :=
  loadWith tomlFiles files vars base environment

end QueueRelay.Config

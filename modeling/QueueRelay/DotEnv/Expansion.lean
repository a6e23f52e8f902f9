/-!
References to variables inside bare values.

A reference is `$` and a name in braces, with an optional default after `:-`; it ends at
the first closing brace.  A `$` that is not followed by an opening brace is no reference.
Such a `$` is first doubled everywhere in the value, and the reader then takes `$$` for
one `$`; inside a reference the doubling stays, so a default that gets used and a name
that is looked up show it.
-/
namespace QueueRelay.DotEnv

/-- The variables that a value can refer to. -/
abbrev Variables := String → Option String

/-- Doubles every `$` that is not followed by an opening brace. -/
def protect : List Char → List Char
  | [] => []
  | '$' :: '\x7b' :: rest => '$' :: '\x7b' :: protect rest
  | '$' :: rest => '$' :: '$' :: protect rest
  | c :: rest => c :: protect rest

/-- The text before the first closing brace and the text after it. -/
def splitBrace : List Char → Option (List Char × List Char)
  | [] => none
  | '\x7d' :: rest => some ([], rest)
  | c :: rest => (splitBrace rest).map fun (inside, after) => (c :: inside, after)

/-- The text before the first `:-` and the text after it. -/
def splitDefault : List Char → Option (List Char × List Char)
  | [] => none
  | ':' :: '-' :: rest => some ([], rest)
  | c :: rest => (splitDefault rest).map fun (name, default) => (c :: name, default)

/-- The name and the default of a reference, given what stands between its braces.  A
reference that begins with `:-` has no name before it, so all of it is the name. -/
def reference (inside : List Char) : List Char × Option (List Char) :=
  match splitDefault inside with
  | some ([], _) | none => (inside, none)
  | some (name, default) => (name, some default)

/-- The text a reference stands for, or the name that could not be looked up. -/
def resolve (vars : Variables) (inside : List Char) : Except String (List Char) :=
  let (name, default) := reference inside
  match vars (String.ofList name), default with
  | some value, _ => .ok value.toList
  | none, some default => .ok default
  | none, none => .error (String.ofList name)

theorem length_splitBrace {s inside after : List Char} (h : splitBrace s = some (inside, after)) :
    after.length < s.length := by
  induction s generalizing inside with
  | nil => simp [splitBrace] at h
  | cons c rest ih =>
    unfold splitBrace at h
    split at h
    · contradiction
    · next hc =>
      obtain ⟨rfl, rfl⟩ := List.cons.inj hc
      simp only [Option.some.injEq, Prod.mk.injEq] at h
      simp [h.2]
    · next hc =>
      obtain ⟨rfl, rfl⟩ := List.cons.inj hc
      simp only [Option.map_eq_some_iff, Prod.mk.injEq, Prod.exists] at h
      obtain ⟨inside', after', h', -, rfl⟩ := h
      have := ih h'
      simp only [List.length_cons]
      omega

/-- Reads a protected value from left to right and replaces its references. -/
def substitute (vars : Variables) : List Char → Except String (List Char)
  | [] => .ok []
  | '$' :: '\x7b' :: rest =>
    match h : splitBrace rest with
    | none => (substitute vars rest).map fun tail => '$' :: '\x7b' :: tail
    | some (inside, after) => do
      have := length_splitBrace h
      let value ← resolve vars inside
      let tail ← substitute vars after
      return value ++ tail
  | '$' :: '$' :: rest => (substitute vars rest).map ('$' :: ·)
  | c :: rest => (substitute vars rest).map (c :: ·)
termination_by s => s.length
decreasing_by all_goals simp only [List.length_cons]; omega

/-- The value with its references replaced, or the name that could not be looked up. -/
def expand (vars : Variables) (value : String) : Except String String :=
  (substitute vars (protect value.toList)).map String.ofList

end QueueRelay.DotEnv

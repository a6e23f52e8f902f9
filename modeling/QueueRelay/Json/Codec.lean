import QueueRelay.Json.Reader
import QueueRelay.Json.Writer
/-!
What JSON documents give back.

Documents are written and read by a codec.  JSON has a form for whole numbers of 64 bits, for
finite doubles and for records without a name twice (`Expressible`); whether a codec reads such
a value back as it was is a property of the codec and the value.  Where documents are trees
nothing is lost (`trees_keeps`).  Where they are texts a double is read from its digits and a
power of ten, each rounded on its own, and its last bit may change.
-/
namespace QueueRelay.Json

variable {δ : Type} {double : Float → Prop}

/-- A way to write values as documents and to read documents. -/
structure Codec (δ : Type) where
  print : Value → δ
  parse? : δ → Option Value

/-- The codec reads what it wrote for the value as the value. -/
def Codec.Keeps (J : Codec δ) (v : Value) : Prop := J.parse? (J.print v) = some v

/-- The codec whose documents are trees of values. -/
def trees : Codec Value where
  print := stored
  parse? := some

/-- The codec whose documents are texts. -/
def texts : Codec String where
  print := render
  parse? := parse?

/-! ### What JSON has a form for -/

mutual

/-- Whole numbers have 64 bits, no record has a name twice, and doubles are as `double` says. -/
def Formed (double : Float → Prop) : Value → Prop
  | .int n => -0x8000000000000000 ≤ n ∧ n < 0x10000000000000000
  | .float x => double x
  | .list items => ItemsFormed double items
  | .record fields => (fields.map Prod.fst).Nodup ∧ FieldsFormed double fields
  | .null | .bool _ | .text _ => True

def ItemsFormed (double : Float → Prop) : List Value → Prop
  | [] => True
  | v :: rest => Formed double v ∧ ItemsFormed double rest

def FieldsFormed (double : Float → Prop) : List (String × Value) → Prop
  | [] => True
  | (_, v) :: rest => Formed double v ∧ FieldsFormed double rest

end

/-- JSON has a form for the value. -/
def Expressible : Value → Prop := Formed fun x => x.isFinite = true

theorem fieldsFormed_iff {fields : List (String × Value)} :
    FieldsFormed double fields ↔ ∀ e ∈ fields, Formed double e.2 := by
  induction fields with
  | nil => simp [FieldsFormed]
  | cons e fields ih => rw [FieldsFormed, List.forall_mem_cons, ih]

/-- A record is formed just when all its fields are and no two have one name. -/
theorem formed_record_iff {fields : List (String × Value)} :
    Formed double (.record fields) ↔
      (fields.map Prod.fst).Nodup ∧ ∀ e ∈ fields, Formed double e.2 := by
  rw [Formed, fieldsFormed_iff]

@[simp] theorem formed_text (s : String) : Formed double (.text s) := trivial

@[simp] theorem formed_bool (b : Bool) : Formed double (.bool b) := trivial

theorem formed_texts (texts : List String) :
    Formed double (.list (texts.map .text)) := by
  rw [Formed]
  induction texts with
  | nil => exact trivial
  | cons s texts ih => exact ⟨trivial, ih⟩

/-! ### Trees -/

theorem isNaN_isInf_of_isFinite {x : Float} (h : x.isFinite = true) :
    x.isNaN = false ∧ x.isInf = false := by
  change x.toModel.unpack.isFinite = true at h
  show x.toModel.unpack.isNaN = false ∧ x.toModel.unpack.isInf = false
  revert h
  cases x.toModel.unpack with
  | notANumber | infinity => intro h; cases h
  | zero | finite => exact fun _ => ⟨rfl, rfl⟩

mutual

theorem stored_eq_self : ∀ {v : Value}, Expressible v → stored v = v
  | .float x, h => by
      obtain ⟨hnan, hinf⟩ := isNaN_isInf_of_isFinite h
      rw [stored, hnan, hinf]
      rfl
  | .list items, h => by
      rw [Expressible, Formed] at h
      rw [stored, storedItems_eq_self h]
  | .record fields, h => by
      rw [Expressible, Formed] at h
      rw [stored, storedFields_eq_self h.2]
  | .null, _ | .bool _, _ | .int _, _ | .text _, _ => rfl

theorem storedItems_eq_self : ∀ {items : List Value}, ItemsFormed (·.isFinite = true) items →
    storedItems items = items
  | [], _ => rfl
  | _ :: _, h => by rw [storedItems, stored_eq_self h.1, storedItems_eq_self h.2]

theorem storedFields_eq_self : ∀ {fields : List (String × Value)},
    FieldsFormed (·.isFinite = true) fields → storedFields fields = fields
  | [], _ => rfl
  | (_, _) :: _, h => by rw [storedFields, stored_eq_self h.1, storedFields_eq_self h.2]

end

/-- A tree is what it was written for. -/
theorem trees_keeps {v : Value} (h : Expressible v) : trees.Keeps v :=
  congrArg some (stored_eq_self h)

end QueueRelay.Json

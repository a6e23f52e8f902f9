/-!
Finite maps in the order of first insertion.

A table is a list of pairs.  `set` replaces the value of a key that is there and adds
the pair at the end otherwise, so the keys of a table built by `set` are distinct, and
what `get?` answers is what the last `set` of that key stored.
-/
namespace QueueRelay

/-- A finite map from `κ` to `ν`. -/
structure Table (κ ν : Type) where
  /-- The pairs, in the order in which the keys were first set. -/
  entries : List (κ × ν)
deriving DecidableEq, Inhabited

namespace Table

variable {κ ν : Type} [DecidableEq κ]

def empty : Table κ ν := ⟨[]⟩

/-- The value stored under `k`. -/
def get? (t : Table κ ν) (k : κ) : Option ν :=
  (t.entries.find? fun e => e.1 = k).map Prod.snd

/-- Whether `k` has a value. -/
def contains (t : Table κ ν) (k : κ) : Bool :=
  t.entries.any fun e => e.1 = k

/-- The pairs after `k` has been given the value `v`. -/
def setPairs (k : κ) (v : ν) : List (κ × ν) → List (κ × ν)
  | [] => [(k, v)]
  | e :: rest => if e.1 = k then (k, v) :: rest else e :: setPairs k v rest

/-- Gives `k` the value `v`. -/
def set (t : Table κ ν) (k : κ) (v : ν) : Table κ ν :=
  ⟨setPairs k v t.entries⟩

/-- Changes the value of `k`, if it has one. -/
def modify (t : Table κ ν) (k : κ) (f : ν → ν) : Table κ ν :=
  ⟨t.entries.map fun e => if e.1 = k then (e.1, f e.2) else e⟩

/-- The table without `k`. -/
def erase (t : Table κ ν) (k : κ) : Table κ ν :=
  ⟨t.entries.filter fun e => e.1 ≠ k⟩

/-- Number of keys. -/
def size (t : Table κ ν) : Nat := t.entries.length

/-- The pairs set one after the other; of two pairs with one key the later one counts. -/
def ofList (pairs : List (κ × ν)) : Table κ ν :=
  pairs.foldl (fun t e => t.set e.1 e.2) empty

/-! ### What a look-up answers -/

@[simp] theorem get?_empty (k : κ) : (empty : Table κ ν).get? k = none := rfl

theorem find?_setPairs (k l : κ) (v : ν) (es : List (κ × ν)) :
    ((setPairs k v es).find? fun e => e.1 = l).map Prod.snd =
      if k = l then some v else (es.find? fun e => e.1 = l).map Prod.snd := by
  induction es with
  | nil => by_cases h : k = l <;> simp [setPairs, h]
  | cons e rest ih =>
    by_cases he : e.1 = k
    · by_cases h : k = l <;> simp [setPairs, he, h]
    · by_cases hl : e.1 = l
      · have h : ¬ k = l := fun h => he (hl.trans h.symm)
        rw [setPairs, if_neg he]
        simp [hl, h]
      · rw [setPairs, if_neg he]
        simpa [hl] using ih

theorem get?_set (t : Table κ ν) (k l : κ) (v : ν) :
    (t.set k v).get? l = if k = l then some v else t.get? l :=
  find?_setPairs k l v t.entries

end Table

end QueueRelay

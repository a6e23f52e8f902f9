/-
What merging does to the leaves of data.

Data are seen as what their paths lead to.  Putting a table over data comes down to setting its
leaves one after another, provided no path leads to a table in one of the two and to something
else in the other.  That is carried through the merge as `Fits`: a predicate on paths says where
tables are, and it is the same one for all data that are merged.  `placed` is the induction over
the table that is put.
-/
import Mathlib
import QueueRelay.Config.Layers

namespace QueueRelay.Config.Layers

/-! ### Fields -/

section Fields

variable {key key' : String} {v : Value} {fields : List (String × Value)}

theorem field?_cons (key : String) (f : String × Value) (rest : List (String × Value)) :
    (Value.record (f :: rest)).field? key =
      if f.1 = key then some f.2 else (Value.record rest).field? key := by
  unfold Value.field?
  dsimp only
  by_cases h : f.1 = key
  · rw [if_pos h, List.find?_cons_of_pos (by simpa using h)]
    rfl
  · rw [if_neg h, List.find?_cons_of_neg (by simpa using h)]

theorem field?_setField (key : String) (v : Value) (fields : List (String × Value)) :
    (Value.record (setField key v fields)).field? key = some v := by
  induction fields with
  | nil => rw [setField, field?_cons, if_pos rfl]
  | cons f rest ih =>
      unfold setField
      by_cases h : f.1 = key
      · rw [if_pos h, field?_cons, if_pos rfl]
      · rw [if_neg h, field?_cons, if_neg h, ih]

theorem field?_setField_of_ne (h : key ≠ key') (v : Value) (fields : List (String × Value)) :
    (Value.record (setField key v fields)).field? key' = (Value.record fields).field? key' := by
  induction fields with
  | nil => rw [setField, field?_cons, if_neg h]
  | cons f rest ih =>
      unfold setField
      by_cases hf : f.1 = key
      · rw [if_pos hf, field?_cons, if_neg h, field?_cons, if_neg (by rwa [hf])]
      · rw [if_neg hf, field?_cons, field?_cons, ih]

theorem fieldOf_eq (key : String) (fields : List (String × Value)) :
    fieldOf key fields = ((Value.record fields).field? key).getD .null := by
  simp only [fieldOf, Value.field?, beq_eq_decide]

theorem hasField_eq (key : String) (fields : List (String × Value)) :
    hasField key fields = ((Value.record fields).field? key).isSome := by
  induction fields with
  | nil => rfl
  | cons f rest ih =>
      unfold hasField at ih ⊢
      rw [List.any_cons, field?_cons, ih]
      by_cases h : f.1 = key <;> simp [h]

end Fields

/-! ### Paths -/

/-- Whether a value is a table. -/
def isTable : Value → Bool
  | .record _ => true
  | _ => false

/-- What a path leads to. -/
def at? : List String → Value → Option Value
  | [], v => some v
  | key :: path, v => (v.field? key).bind (at? path)

/-- What a path leads to, unless that is a table. -/
def leafAt? (v : Value) (path : List String) : Option Value :=
  (at? path v).filter fun w => !isTable w

/-- The table that a value is on the way of a path: what is no table counts as an empty one. -/
def tableOf (v : Value) : Value := .record (fieldsOf v)

theorem tableOf_eq {v : Value} (h : isTable v = true) : tableOf v = v := by
  cases v with
  | record fields => rfl
  | null | bool | int | float | text | list => cases h

theorem at?_cons_of_leaf {v : Value} (h : ¬ isTable v = true) (key : String) (path : List String) :
    at? (key :: path) v = none := by
  cases v with
  | record fields => exact absurd rfl h
  | null | bool | int | float | text | list => rfl

theorem leafAt?_cons (v : Value) (key : String) (path : List String) :
    leafAt? v (key :: path) = (v.field? key).bind fun w => leafAt? w path := by
  unfold leafAt?
  rw [at?]
  cases v.field? key <;> rfl

/-- Tables are where a predicate says and nowhere else. -/
def Fits (T : List String → Prop) (v : Value) : Prop :=
  ∀ path w, at? path v = some w → (isTable w = true ↔ T path)

/-- What a predicate on paths says of those that go on behind a key. -/
def under (key : String) (T : List String → Prop) : List String → Prop :=
  fun path => T (key :: path)

section Fits

variable {T : List String → Prop} {key : String} {v w : Value} {fields : List (String × Value)}

theorem fits_empty (h : T []) : Fits T (.record []) := by
  intro path w hw
  cases path with
  | nil =>
      cases hw
      exact iff_of_true rfl h
  | cons key path => cases hw

theorem fits_leaf (h : ¬ isTable v = true) (hT : ¬ T []) : Fits T v := by
  intro path w hw
  cases path with
  | nil =>
      cases hw
      exact iff_of_false h hT
  | cons key path =>
      rw [at?_cons_of_leaf h] at hw
      cases hw

/-- What a key of a table leads to, where there has to be a table, and what it leads to in turn. -/
theorem fits_field (h : Fits T (.record fields)) (hkey : T [key]) :
    Fits (under key T) (tableOf (fieldOf key fields)) ∧
      leafAt? (tableOf (fieldOf key fields)) =
        fun path => leafAt? (.record fields) (key :: path) := by
  rw [fieldOf_eq]
  cases hv : (Value.record fields).field? key with
  | none =>
      refine ⟨fits_empty hkey, funext fun path => ?_⟩
      rw [leafAt?_cons, hv]
      cases path <;> rfl
  | some v =>
      have hat : ∀ path, at? (key :: path) (.record fields) = at? path v := by
        intro path
        rw [at?, hv, Option.bind_some]
      have htable : isTable v = true := (h [key] v (by rw [hat]; rfl)).2 hkey
      rw [Option.getD_some, tableOf_eq htable]
      refine ⟨fun path w hw => h (key :: path) w (by rw [hat]; exact hw), funext fun path => ?_⟩
      rw [leafAt?_cons, hv, Option.bind_some]

/-- Where there has to be a table, the one that is merged with is the one that is there. -/
theorem target_eq (h : Fits T (.record fields)) (hkey : T [key]) :
    (if hasField key fields then fieldOf key fields else .record []) =
      tableOf (fieldOf key fields) := by
  rw [hasField_eq, fieldOf_eq]
  cases hv : (Value.record fields).field? key with
  | none => rfl
  | some v =>
      have htable : isTable v = true := (h [key] v (by rw [at?, hv]; rfl)).2 hkey
      exact (tableOf_eq htable).symm

/-- Giving a key of a table another value changes what the paths behind that key lead to. -/
theorem fits_setField (h : Fits T (.record fields)) (hv : Fits (under key T) v) :
    Fits T (.record (setField key v fields)) := by
  intro path w hw
  cases path with
  | nil =>
      cases hw
      exact iff_of_true rfl ((h [] _ rfl).1 rfl)
  | cons key' path =>
      rw [at?] at hw
      by_cases hk : key = key'
      · subst hk
        rw [field?_setField, Option.bind_some] at hw
        exact hv path w hw
      · rw [field?_setField_of_ne hk] at hw
        exact h (key' :: path) w hw

end Fits

/-! ### Setting leaves -/

/-- Gives a path a value and leaves the others alone. -/
def setLeaf (view : List String → Option Value) (leaf : List String × Value) :
    List String → Option Value :=
  Function.update view leaf.1 (some leaf.2)

/-- A leaf with a key in front of its path. -/
def behind (key : String) (leaf : List String × Value) : List String × Value :=
  (key :: leaf.1, leaf.2)

theorem foldl_setLeaf_behind (key : String) (leaves : List (List String × Value))
    (view : List String → Option Value) (path : List String) :
    (leaves.map (behind key)).foldl setLeaf view (key :: path) =
      leaves.foldl setLeaf (fun path => view (key :: path)) path := by
  induction leaves generalizing view with
  | nil => rfl
  | cons leaf leaves ih =>
      have hset : (fun path => setLeaf view (behind key leaf) (key :: path)) =
          setLeaf (fun path => view (key :: path)) leaf := by
        funext path
        by_cases h : path = leaf.1 <;> simp [setLeaf, behind, Function.update_apply, h]
      rw [List.map_cons, List.foldl_cons, List.foldl_cons, ih, hset]

theorem foldl_setLeaf_behind_of_ne {key : String} {path : List String}
    (h : ∀ rest, path ≠ key :: rest) (leaves : List (List String × Value))
    (view : List String → Option Value) :
    (leaves.map (behind key)).foldl setLeaf view path = view path := by
  induction leaves generalizing view with
  | nil => rfl
  | cons leaf leaves ih =>
      rw [List.map_cons, List.foldl_cons, ih]
      exact Function.update_of_ne (h leaf.1) _ _

/-- A table with leaves set, where tables are where they have to be. -/
structure Puts (T : List String → Prop) (leaves : List (List String × Value)) (v w : Value) :
    Prop where
  table : isTable w = true
  fits : Fits T w
  view : leafAt? w = leaves.foldl setLeaf (leafAt? v)

section Puts

variable {T : List String → Prop} {leaves leaves' : List (List String × Value)} {u v w : Value}

theorem Puts.refl (htable : isTable v = true) (h : Fits T v) : Puts T [] v v :=
  ⟨htable, h, rfl⟩

theorem Puts.trans (h : Puts T leaves u v) (h' : Puts T leaves' v w) :
    Puts T (leaves ++ leaves') u w :=
  ⟨h'.table, h'.fits, by rw [h'.view, h.view, List.foldl_append]⟩

/-- A new value for a key sets its leaves behind the key, if it shows what was there with its
leaves set. -/
theorem puts_setField {key : String} {fields : List (String × Value)}
    (h : Fits T (.record fields)) (hv : Fits (under key T) v)
    (hview : leafAt? v = leaves.foldl setLeaf fun path => leafAt? (.record fields) (key :: path)) :
    Puts T (leaves.map (behind key)) (.record fields) (.record (setField key v fields)) := by
  refine ⟨rfl, fits_setField h hv, funext fun path => ?_⟩
  cases path with
  | nil =>
      rw [foldl_setLeaf_behind_of_ne (by simp)]
      rfl
  | cons key' path =>
      by_cases hk : key = key'
      · subst hk
        rw [foldl_setLeaf_behind, leafAt?_cons, field?_setField, Option.bind_some, hview]
      · have hother : ∀ rest, key' :: path ≠ key :: rest := by
          intro rest heq
          exact hk (List.cons.inj heq).1.symm
        rw [foldl_setLeaf_behind_of_ne hother, leafAt?_cons, leafAt?_cons,
          field?_setField_of_ne hk]

/-- A new leaf for a key that has no table. -/
theorem puts_leaf {key : String} {fields : List (String × Value)} (h : Fits T (.record fields))
    (hleaf : ¬ isTable v = true) (hkey : ¬ T [key]) :
    Puts T [([key], v)] (.record fields) (.record (setField key v fields)) := by
  show Puts T ([([], v)].map (behind key)) (.record fields) (.record (setField key v fields))
  refine puts_setField h (fits_leaf hleaf hkey) (funext fun path => ?_)
  cases path with
  | nil => simp [leafAt?, at?, hleaf, setLeaf]
  | cons key' path =>
      have hnone : leafAt? (.record fields) (key :: key' :: path) = none := by
        rw [leafAt?_cons]
        cases hw : (Value.record fields).field? key with
        | none => rfl
        | some w =>
            have hw' : ¬ isTable w = true := fun htable =>
              hkey ((h [key] w (by rw [at?, hw]; rfl)).1 htable)
            rw [Option.bind_some, leafAt?, at?_cons_of_leaf hw']
            rfl
      rw [leafAt?, at?_cons_of_leaf hleaf]
      simp [setLeaf, hnone]

end Puts

/-! ### Putting a table -/

mutual

/-- A value and all that is in it, with the paths in lower case that lead there. -/
def entriesOf : Value → List (List String × Value)
  | .record fields => ([], .record fields) :: entriesIn fields
  | v => [([], v)]

/-- All that is in fields. -/
def entriesIn : List (String × Value) → List (List String × Value)
  | [] => []
  | (key, v) :: rest => (entriesOf v).map (behind (Reading.lowerCase key)) ++ entriesIn rest

end

/-- The entries that are no tables. -/
def leavesAmong (entries : List (List String × Value)) : List (List String × Value) :=
  entries.filter fun e => !isTable e.2

theorem leavesAmong_behind (key : String) (entries : List (List String × Value)) :
    leavesAmong (entries.map (behind key)) = (leavesAmong entries).map (behind key) := by
  unfold leavesAmong
  rw [List.filter_map]
  rfl

mutual

/-- Putting a value under a key sets its leaves. -/
theorem placed {T : List String → Prop} (key : String) (v root : Value)
    (h : Fits T (tableOf root))
    (hv : ∀ e ∈ entriesOf v, isTable e.2 = true ↔ T (Reading.lowerCase key :: e.1)) :
    Puts T (leavesAmong ((entriesOf v).map (behind (Reading.lowerCase key)))) (tableOf root)
      (place key v root) := by
  cases v with
  | record incoming =>
      have hkey : T [Reading.lowerCase key] := (hv ([], _) (List.mem_cons_self)).1 rfl
      obtain ⟨hfits, hview⟩ := fits_field h hkey
      have hall := placedAll incoming rfl hfits fun e he => hv e (List.mem_cons_of_mem _ he)
      rw [leavesAmong_behind, place, target_eq h hkey]
      exact puts_setField h hall.fits (hview ▸ hall.view)
  | null | bool | int | float | text | list =>
      exact puts_leaf h Bool.false_ne_true fun hkey =>
        absurd ((hv ([], _) (List.mem_singleton_self _)).2 hkey) Bool.false_ne_true

/-- Putting fields over a table sets their leaves. -/
theorem placedAll {T : List String → Prop} {target : Value} (fields : List (String × Value))
    (htable : isTable target = true) (h : Fits T target)
    (hfields : ∀ e ∈ entriesIn fields, isTable e.2 = true ↔ T e.1) :
    Puts T (leavesAmong (entriesIn fields)) target (placeAll fields target) := by
  cases fields with
  | nil =>
      rw [placeAll]
      exact .refl htable h
  | cons f rest =>
      obtain ⟨key, v⟩ := f
      rw [entriesIn] at hfields ⊢
      rw [placeAll, leavesAmong, List.filter_append]
      have hv := placed key v target (by rwa [tableOf_eq htable])
        fun e he => hfields _ (List.mem_append_left _ (List.mem_map_of_mem he))
      rw [tableOf_eq htable] at hv
      exact hv.trans (placedAll rest hv.table hv.fits fun e he =>
        hfields e (List.mem_append_right _ he))

end

end QueueRelay.Config.Layers

/-
Which source a configuration has its values from.

The name of a variable is an address once its pairs of underscores are points, and an address of
plain names leads through tables to one leaf.  So each of the three sources sets leaves, and the
last one that sets a leaf decides it.
-/
import QueueRelay.Config.File
import QueueRelay.Proofs.Config.Merging
import QueueRelay.Proofs.Url.Path

namespace QueueRelay.Config.Layers

open Reading (lowerCase)

/-! ### Plain keys -/

/-- A character of a key that needs no quotes in a file. -/
def isPlainChar (c : Char) : Bool := c.isAlphanum || c == '_' || c == '-'

/-- A key that needs no quotes in a file. -/
def IsPlain (key : String) : Prop := key ≠ "" ∧ key.toList.all isPlainChar = true

instance (key : String) : Decidable (IsPlain key) :=
  inferInstanceAs (Decidable (key ≠ "" ∧ key.toList.all isPlainChar = true))

theorem isNameChar_of_plain {c : Char} (h : isPlainChar c = true) : isNameChar c = true := by
  unfold isPlainChar at h
  unfold isNameChar
  simp only [Bool.or_eq_true] at h ⊢
  tauto

/-- A plain key in front of what does not go on with a name. -/
theorem name?_append {key : String} (h : IsPlain key) {rest : List Char}
    (hrest : ∀ c, rest.head? = some c → isNameChar c = false) :
    name? (key.toList ++ rest) = some (key, rest) := by
  have hall : ∀ c ∈ key.toList, isNameChar c = true := fun c hc =>
    isNameChar_of_plain (List.all_eq_true.1 h.2 c hc)
  have htake : (key.toList ++ rest).takeWhile isNameChar = key.toList := by
    rw [List.takeWhile_append_of_pos hall]
    cases rest with
    | nil => simp
    | cons c rest => simp [hrest c rfl]
  have hdrop : (key.toList ++ rest).dropWhile isNameChar = rest := by
    rw [List.dropWhile_append_of_pos hall]
    cases rest with
    | nil => rfl
    | cons c rest => simp [hrest c rfl]
  have hne : key.toList ≠ [] := fun heq => h.1 (String.toList_eq_nil_iff.1 heq)
  unfold name?
  simp [htake, hdrop, hne]

/-- The names behind the first one of an address, each behind a point. -/
def pointedNames (path : List String) : List Char :=
  path.flatMap fun key => '.' :: key.toList

theorem head?_pointedNames (path : List String) (c : Char)
    (h : (pointedNames path).head? = some c) : isNameChar c = false := by
  cases path with
  | nil => cases h
  | cons key path =>
      cases h
      rfl

theorem moreSteps?_pointedNames {path : List String} (h : ∀ key ∈ path, IsPlain key) {n : Nat}
    (hn : path.length < n) :
    moreSteps? n (pointedNames path) = some (path.map Step.key) := by
  induction path generalizing n with
  | nil =>
      cases n with
      | zero => cases hn
      | succ n => rfl
  | cons key path ih =>
      cases n with
      | zero => cases hn
      | succ n =>
          have hname := name?_append (h key List.mem_cons_self) (head?_pointedNames path)
          have hmore := ih (fun k hk => h k (List.mem_cons_of_mem _ hk)) (Nat.lt_of_succ_lt_succ hn)
          show moreSteps? (n + 1) ('.' :: (key.toList ++ pointedNames path)) = _
          rw [moreSteps?, if_pos rfl, hname]
          simp [hmore]

theorem length_le_pointedNames (path : List String) : path.length ≤ (pointedNames path).length := by
  induction path with
  | nil => exact Nat.zero_le _
  | cons key path ih =>
      show path.length + 1 ≤ ('.' :: (key.toList ++ pointedNames path)).length
      rw [List.length_cons, List.length_append]
      omega

/-- The address of plain names with points between them. -/
theorem address?_names {key : String} {path : List String} (h : ∀ k ∈ key :: path, IsPlain k) :
    address? (String.ofList (key.toList ++ pointedNames path)) =
      some ((key :: path).map Step.key) := by
  have hname := name?_append (h key List.mem_cons_self) (head?_pointedNames path)
  have hmore := moreSteps?_pointedNames (fun k hk => h k (List.mem_cons_of_mem _ hk))
    (Nat.lt_succ_of_le (length_le_pointedNames path))
  unfold address?
  rw [String.toList_ofList, hname]
  simp [hmore]

/-- A layer's field with a plain key goes under that key. -/
theorem putField_plain {key : String} (h : IsPlain key) (v root : Value) :
    putField root (key, v) = place key v root := by
  have haddress : address? key = some [.key key] := by
    have hone : ∀ k ∈ [key], IsPlain k := by simpa using h
    have hnames := address?_names hone
    rwa [pointedNames, List.flatMap_nil, List.append_nil, String.ofList_toList] at hnames
  unfold putField
  rw [haddress]
  rfl

/-- A layer with plain keys is put as a table is. -/
theorem put_plain (root : Value) {layer : List (String × Value)} (h : ∀ f ∈ layer, IsPlain f.1) :
    put root layer = placeAll layer root := by
  induction layer generalizing root with
  | nil =>
      rw [placeAll]
      rfl
  | cons f layer ih =>
      obtain ⟨key, v⟩ := f
      rw [placeAll, ← ih _ fun f hf => h f (List.mem_cons_of_mem _ hf),
        ← putField_plain (h _ List.mem_cons_self) v root]
      rfl

/-! ### The names of variables -/

/-- The parts of a text between its pairs of underscores. -/
def nameParts : List Char → List (List Char)
  | '_' :: '_' :: rest => [] :: nameParts rest
  | c :: rest =>
    match nameParts rest with
    | part :: parts => (c :: part) :: parts
    | [] => [[c]]
  | [] => [[]]

/-- The path that the name of a variable stands for, if it is the name of one that counts. -/
def variablePath? (name : String) : Option (List String) :=
  let name := (lowerCase name).toList
  if variableMark.toList.isPrefixOf name then
    some ((nameParts (name.drop variableMark.toList.length)).map String.ofList)
  else none

theorem pointed_eq (s : List Char) : ∃ part parts, nameParts s = part :: parts ∧
    pointed s = part ++ pointedNames (parts.map String.ofList) := by
  fun_induction pointed s with
  | case1 rest ih =>
      obtain ⟨part, parts, hparts, hpointed⟩ := ih
      refine ⟨[], part :: parts, by rw [nameParts, hparts], ?_⟩
      simp [hpointed, pointedNames]
  | case2 c rest h ih =>
      obtain ⟨part, parts, hparts, hpointed⟩ := ih
      refine ⟨c :: part, parts, ?_, by rw [hpointed]; rfl⟩
      rw [nameParts, hparts]
      exact h
  | case3 => exact ⟨[], [], rfl, rfl⟩

theorem mem_of_mem_nameParts {s part : List Char} {c : Char} (hpart : part ∈ nameParts s)
    (hc : c ∈ part) : c ∈ s := by
  induction s using nameParts.induct generalizing part with
  | case1 rest ih =>
      rw [nameParts] at hpart
      rcases List.mem_cons.1 hpart with rfl | hpart
      · cases hc
      · exact List.mem_cons_of_mem _ (List.mem_cons_of_mem _ (ih hpart hc))
  | case2 d rest h part' parts hparts ih =>
      rw [nameParts, hparts] at hpart
      · rcases List.mem_cons.1 hpart with rfl | hpart
        · rcases List.mem_cons.1 hc with rfl | hc
          · exact List.mem_cons_self
          · exact List.mem_cons_of_mem _ (ih (by rw [hparts]; exact List.mem_cons_self) hc)
        · exact List.mem_cons_of_mem _ (ih (by rw [hparts]; exact List.mem_cons_of_mem _ hpart) hc)
      · exact h
  | case3 d rest h hparts ih =>
      rw [nameParts, hparts] at hpart
      · rcases List.mem_singleton.1 hpart with rfl
        rcases List.mem_singleton.1 hc with rfl
        exact List.mem_cons_self
      · exact h
  | case4 =>
      rcases List.mem_singleton.1 hpart with rfl
      cases hc

/-- A character in lower case is kept by lower case. -/
theorem lower_of_mem {s : String} {c : Char} (h : c ∈ (lowerCase s).toList) :
    (if c = '\u212A' then 'k' else c.toLower) = c := by
  have letters : ∀ n ∈ List.range' 65 26,
      (if (Char.ofNat n).toLower = '\u212A' then 'k' else (Char.ofNat n).toLower.toLower) =
        (Char.ofNat n).toLower := by decide
  unfold lowerCase at h
  rw [String.toList_ofList] at h
  obtain ⟨d, -, rfl⟩ := List.mem_map.1 h
  by_cases hd : d = '\u212A'
  · rw [if_pos hd]
    rfl
  · rw [if_neg hd]
    rcases Url.toLower_eq d with heq | ⟨hlow, hhigh⟩
    · rw [heq, if_neg hd, heq]
    · have hletter := letters d.toNat (by rw [List.mem_range'_1]; omega)
      rwa [Char.ofNat_toNat] at hletter

theorem lowerCase_eq_self {key : String}
    (h : ∀ c ∈ key.toList, (if c = '\u212A' then 'k' else c.toLower) = c) :
    lowerCase key = key := by
  unfold lowerCase
  rw [List.map_congr_left h, List.map_id', String.ofList_toList]

/-- The keys that the name of a variable stands for are in lower case. -/
theorem lowerCase_of_variablePath {name : String} {path : List String} {key : String}
    (h : variablePath? name = some path) (hkey : key ∈ path) : lowerCase key = key := by
  unfold variablePath? at h
  dsimp only at h
  split_ifs at h
  obtain rfl := Option.some.inj h
  obtain ⟨part, hpart, rfl⟩ := List.mem_map.1 hkey
  refine lowerCase_eq_self fun c hc => lower_of_mem (s := name) ?_
  rw [String.toList_ofList] at hc
  exact List.mem_of_mem_drop (mem_of_mem_nameParts hpart hc)

/-- The leaves that variables set. -/
def variableLeaves (vars : List (String × String)) : List (List String × Value) :=
  vars.filterMap fun a => (variablePath? a.1).map fun path => (path, variableValue a.2)

/-- The field of a variable is put at the address that its name writes. -/
theorem putField_variable {name : String} {path : List String}
    (h : variablePath? name = some path) (hplain : ∀ key ∈ path, IsPlain key) (text : String) :
    path ≠ [] ∧ ∃ field, variableField? (name, text) = some field ∧
      ∀ root, putField root field = setAt (path.map Step.key) (variableValue text) root := by
  unfold variablePath? at h
  dsimp only at h
  split_ifs at h with hmark
  obtain rfl := Option.some.inj h
  obtain ⟨part, parts, hparts, hpointed⟩ :=
    pointed_eq ((lowerCase name).toList.drop variableMark.toList.length)
  rw [hparts, List.map_cons] at hplain ⊢
  refine ⟨List.cons_ne_nil _ _, _, if_pos hmark, fun root => ?_⟩
  have haddress := address?_names hplain
  rw [String.toList_ofList, ← hpointed] at haddress
  unfold putField
  rw [haddress]

theorem variableField?_eq_none {name : String} (h : variablePath? name = none) (text : String) :
    variableField? (name, text) = none := by
  unfold variablePath? at h
  dsimp only at h
  split_ifs at h with hmark
  exact if_neg hmark

theorem isTable_variableValue (text : String) : ¬ isTable (variableValue text) = true := by
  have hdouble : ∀ x : Option Float, ¬ isTable ((x.map Value.float).getD (.text text)) = true := by
    intro x
    cases x <;> exact Bool.false_ne_true
  unfold variableValue
  split_ifs
  · exact Bool.false_ne_true
  · exact Bool.false_ne_true
  · split
    · split_ifs
      · exact Bool.false_ne_true
      · exact hdouble _
    · exact hdouble _

/-! ### Setting one leaf -/

/-- A value at an address of keys is one leaf, if tables lead there. -/
theorem puts_setAt {T : List String → Prop} {path : List String} {v : Value} (root : Value)
    (hne : path ≠ []) (hlower : ∀ key ∈ path, lowerCase key = key) (hv : ¬ isTable v = true)
    (hpath : ¬ T path) (hway : ∀ q, q <+: path → q ≠ path → T q) (h : Fits T (tableOf root)) :
    Puts T [(path, v)] (tableOf root) (setAt (path.map Step.key) v root) := by
  induction path generalizing T root with
  | nil => exact absurd rfl hne
  | cons key path ih =>
      have hkey := hlower key List.mem_cons_self
      cases path with
      | nil =>
          have hplace : setAt [Step.key key] v root = .record (setField key v (fieldsOf root)) := by
            show place key v root = _
            cases v with
            | record fields => exact absurd rfl hv
            | null | bool | int | float | text | list => rw [place, hkey]; simp
          show Puts T [([key], v)] (tableOf root) (setAt [Step.key key] v root)
          rw [hplace]
          exact puts_leaf h hv hpath
      | cons key' path =>
          obtain ⟨hfits, hview⟩ := fits_field h (hway [key] (by simp) (by simp))
          have hrest := ih (T := under key T) (fieldOf key (fieldsOf root))
            (List.cons_ne_nil _ _) (fun k hk => hlower k (List.mem_cons_of_mem _ hk)) hpath
            (fun q hq hne => hway (key :: q) (by simpa using hq) (by simpa using hne)) hfits
          show Puts T ([(key' :: path, v)].map (behind key)) (tableOf root)
            (.record (setField (lowerCase key) (setAt ((key' :: path).map Step.key) v
              (fieldOf (lowerCase key) (fieldsOf root))) (fieldsOf root)))
          rw [hkey]
          exact puts_setField h hrest.fits (hview ▸ hrest.view)

/-- Putting the layer of variables sets their leaves. -/
theorem puts_variables {T : List String → Prop} {vars : List (String × String)} {root : Value}
    (hplain : ∀ leaf ∈ variableLeaves vars, ∀ key ∈ leaf.1, IsPlain key)
    (hleaf : ∀ leaf ∈ variableLeaves vars, ¬ T leaf.1)
    (hway : ∀ leaf ∈ variableLeaves vars, ∀ q, q <+: leaf.1 → q ≠ leaf.1 → T q)
    (htable : isTable root = true) (h : Fits T root) :
    Puts T (variableLeaves vars) root (put root (ofVariables vars)) := by
  induction vars generalizing root with
  | nil => exact .refl htable h
  | cons a vars ih =>
      obtain ⟨name, text⟩ := a
      cases hname : variablePath? name with
      | none =>
          have hleaves : variableLeaves ((name, text) :: vars) = variableLeaves vars :=
            List.filterMap_cons_none (by rw [hname]; rfl)
          have hfields : ofVariables ((name, text) :: vars) = ofVariables vars :=
            List.filterMap_cons_none (variableField?_eq_none hname text)
          rw [hleaves] at hplain hleaf hway ⊢
          rw [hfields]
          exact ih hplain hleaf hway htable h
      | some path =>
          have hleaves : variableLeaves ((name, text) :: vars) =
              [(path, variableValue text)] ++ variableLeaves vars :=
            List.filterMap_cons_some (by rw [hname]; rfl)
          rw [hleaves] at hplain hleaf hway ⊢
          have hfirst := List.mem_append_left (variableLeaves vars)
            (List.mem_singleton_self (path, variableValue text))
          obtain ⟨hne, field, hfield, hput⟩ := putField_variable hname (hplain _ hfirst) text
          have hfields : ofVariables ((name, text) :: vars) = field :: ofVariables vars :=
            List.filterMap_cons_some hfield
          have hset := puts_setAt root hne (fun key => lowerCase_of_variablePath hname)
            (isTable_variableValue text) (hleaf _ hfirst) (hway _ hfirst)
            (by rwa [tableOf_eq htable])
          rw [tableOf_eq htable, ← hput] at hset
          rw [hfields]
          exact hset.trans (ih (fun leaf hl => hplain leaf (List.mem_append_right _ hl))
            (fun leaf hl => hleaf leaf (List.mem_append_right _ hl))
            (fun leaf hl => hway leaf (List.mem_append_right _ hl)) hset.table hset.fits)

/-! ### Sources -/

/-- What a source of configuration data sets, and where it has tables. -/
structure Source where
  /-- Its leaves, in order. -/
  leaves : List (List String × Value)
  /-- The paths that lead to its tables, the empty one among them. -/
  tables : List (List String)

/-- The fields of a file. -/
def Source.ofFields (fields : List (String × Value)) : Source where
  leaves := leavesAmong (entriesIn fields)
  tables := [] :: ((entriesIn fields).filter fun e => isTable e.2).map Prod.fst

/-- Variables, which have tables on the way to their leaves. -/
def Source.ofVariables (vars : List (String × String)) : Source where
  leaves := variableLeaves vars
  tables := [] :: (variableLeaves vars).flatMap fun leaf => leaf.1.dropLast.inits

/-- The value that a source gives a path. -/
def Source.valueAt (s : Source) (path : List String) : Option Value := s.leaves.lookup path

theorem lookup_eq_none_iff {leaves : List (List String × Value)} {path : List String} :
    leaves.lookup path = none ↔ path ∉ leaves.map Prod.fst := by
  rw [List.lookup_eq_none_iff]
  constructor
  · intro h hmem
    obtain ⟨leaf, hleaf, rfl⟩ := List.mem_map.1 hmem
    exact bne_iff_ne.1 (h leaf hleaf) rfl
  · intro h leaf hleaf
    exact bne_iff_ne.2 fun heq => h (heq ▸ List.mem_map_of_mem hleaf)

theorem isSome_valueAt (s : Source) (path : List String) :
    (s.valueAt path).isSome = true ↔ path ∈ s.leaves.map Prod.fst := by
  rw [Option.isSome_iff_ne_none, Source.valueAt, ne_eq, lookup_eq_none_iff, not_not]

/-- No source sets a path twice, and no path is a leaf in one place and a table in another. -/
structure Consistent (sources : List Source) : Prop where
  once : ∀ s ∈ sources, (s.leaves.map Prod.fst).Nodup
  apart : ∀ s ∈ sources, ∀ s' ∈ sources, ∀ leaf ∈ s.leaves, leaf.1 ∉ s'.tables

/-- Where some source has a table. -/
def hasTable (sources : List Source) (path : List String) : Prop :=
  ∃ s ∈ sources, path ∈ s.tables

section Consistent

variable {sources : List Source} {fields : List (String × Value)} {vars : List (String × String)}

theorem Consistent.not_hasTable (h : Consistent sources) {s : Source} (hs : s ∈ sources)
    {leaf : List String × Value} (hleaf : leaf ∈ s.leaves) : ¬ hasTable sources leaf.1 :=
  fun ⟨s', hs', htable⟩ => h.apart s hs s' hs' leaf hleaf htable

theorem Consistent.entries (h : Consistent sources) (hs : .ofFields fields ∈ sources) :
    ∀ e ∈ entriesIn fields, isTable e.2 = true ↔ hasTable sources e.1 := by
  intro e he
  constructor
  · intro htable
    refine ⟨_, hs, List.mem_cons_of_mem _ (List.mem_map_of_mem ?_)⟩
    exact List.mem_filter.2 ⟨he, htable⟩
  · intro htable
    by_contra hleaf
    refine h.not_hasTable hs (List.mem_filter.2 ⟨he, ?_⟩) htable
    simpa using hleaf

theorem Consistent.way (hs : .ofVariables vars ∈ sources) {leaf : List String × Value}
    (hleaf : leaf ∈ variableLeaves vars) {q : List String} (hq : q <+: leaf.1)
    (hne : q ≠ leaf.1) : hasTable sources q := by
  refine ⟨_, hs, List.mem_cons_of_mem _ (List.mem_flatMap.2 ⟨leaf, hleaf, ?_⟩)⟩
  have hlength : q.length < leaf.1.length :=
    Nat.lt_of_le_of_ne hq.length_le fun heq => hne (hq.eq_of_length heq)
  rw [List.mem_inits]
  refine List.prefix_of_prefix_length_le hq (List.dropLast_prefix _) ?_
  rw [List.length_dropLast]
  omega

end Consistent

/-- Leaves that are set one after another, no path twice. -/
theorem foldl_setLeaf {leaves : List (List String × Value)} (h : (leaves.map Prod.fst).Nodup)
    (view : List String → Option Value) (path : List String) :
    leaves.foldl setLeaf view path = (leaves.lookup path).or (view path) := by
  induction leaves generalizing view with
  | nil => rfl
  | cons leaf leaves ih =>
      rw [List.map_cons, List.nodup_cons] at h
      rw [List.foldl_cons, ih h.2, List.lookup_cons]
      by_cases hp : path = leaf.1
      · subst hp
        simp [lookup_eq_none_iff.2 h.1, setLeaf]
      · rw [beq_false_of_ne hp, setLeaf, Function.update_of_ne hp]

/-! ### The merge of all three -/

/-- The three sources of a configuration. -/
def sources (base overlay : List (String × Value)) (vars : List (String × String)) : List Source :=
  [.ofFields base, .ofFields overlay, .ofVariables vars]

/-- All keys that count as addresses are plain: those of the fields of a file, and the parts of
the names of variables. -/
structure PlainKeys (base overlay : List (String × Value)) (vars : List (String × String)) :
    Prop where
  base : ∀ f ∈ base, IsPlain f.1
  overlay : ∀ f ∈ overlay, IsPlain f.1
  vars : ∀ leaf ∈ variableLeaves vars, ∀ key ∈ leaf.1, IsPlain key

theorem puts_layer {T : List String → Prop} {layer : List (String × Value)} {root : Value}
    (hplain : ∀ f ∈ layer, IsPlain f.1)
    (hentries : ∀ e ∈ entriesIn layer, isTable e.2 = true ↔ T e.1)
    (htable : isTable root = true) (h : Fits T root) :
    Puts T (Source.ofFields layer).leaves root (put root layer) := by
  rw [put_plain root hplain]
  exact placedAll layer htable h hentries

/-- **A merge has the value of the last source that has one.** -/
theorem leafAt?_merge {base overlay : List (String × Value)} {vars : List (String × String)}
    (hplain : PlainKeys base overlay vars) (h : Consistent (sources base overlay vars))
    (path : List String) :
    leafAt? (merge [base, overlay, ofVariables vars]) path =
      ((Source.ofVariables vars).valueAt path).or
        (((Source.ofFields overlay).valueAt path).or ((Source.ofFields base).valueAt path)) := by
  have hbase : Source.ofFields base ∈ sources base overlay vars := by simp [sources]
  have hoverlay : Source.ofFields overlay ∈ sources base overlay vars := by simp [sources]
  have hvars : Source.ofVariables vars ∈ sources base overlay vars := by simp [sources]
  have hempty : Fits (hasTable (sources base overlay vars)) (.record []) :=
    fits_empty ⟨_, hbase, List.mem_cons_self⟩
  have h₁ := puts_layer hplain.base (h.entries hbase) rfl hempty
  have h₂ := puts_layer hplain.overlay (h.entries hoverlay) h₁.table h₁.fits
  have h₃ := puts_variables hplain.vars (fun _ hleaf => h.not_hasTable hvars hleaf)
    (fun _ hleaf _ => Consistent.way hvars hleaf) h₂.table h₂.fits
  have honce : ((variableLeaves vars).map Prod.fst).Nodup := h.once _ hvars
  have hnothing : leafAt? (.record []) path = none := by
    cases path <;> rfl
  show leafAt? (put (put (put (.record []) base) overlay) (ofVariables vars)) path = _
  rw [h₃.view, foldl_setLeaf honce, h₂.view, foldl_setLeaf (h.once _ hoverlay),
    h₁.view, foldl_setLeaf (h.once _ hbase), hnothing, Option.or_none]
  rfl

end QueueRelay.Config.Layers

namespace QueueRelay.Config

open Layers

/-- **Every leaf of a configuration has the value of the variable that names it, else that of the
overlay, else that of the base file, and there are no other leaves.**  An overlay that does not
exist makes no difference, and where nothing is found for the base file nothing is loaded.  This is
so wherever the files come from and however they are read. -/
theorem loadData_precedence (source : FileSource) (files : Files) (vars : List (String × String))
    (base : String) :
    (∀ environment fields overlay, (source files base).layer = .ok fields →
      environmentLayer source files base environment = .ok overlay →
      PlainKeys fields overlay vars → Consistent (sources fields overlay vars) →
      ∃ data, loadData source files vars base environment = .ok data ∧ ∀ path,
        leafAt? data path = ((Source.ofVariables vars).valueAt path).or
          (((Source.ofFields overlay).valueAt path).or ((Source.ofFields fields).valueAt path)) ∧
        ((leafAt? data path).isSome ↔
          ∃ s ∈ sources fields overlay vars, path ∈ s.leaves.map Prod.fst)) ∧
    (∀ name, files (overlayPath base name) = none →
      loadData source files vars base (some name) = loadData source files vars base none ∧
      loadWith source files vars base (some name) = loadWith source files vars base none) ∧
    (source files base = .nothing → ∀ environment,
      loadData source files vars base environment = .error .unreadable ∧
      loadWith source files vars base environment = .error .unreadable) := by
  refine ⟨fun environment fields overlay hbase hoverlay hplain h => ?_, fun name hname => ?_,
    fun hmissing environment => ?_⟩
  · refine ⟨merge [fields, overlay, ofVariables vars], ?_, fun path => ?_⟩
    · rw [loadData, hbase, hoverlay]
      rfl
    · have hleaf := leafAt?_merge hplain h path
      refine ⟨hleaf, ?_⟩
      rw [hleaf, Option.isSome_or, Option.isSome_or, Bool.or_eq_true, Bool.or_eq_true,
        isSome_valueAt, isSome_valueAt, isSome_valueAt]
      simp only [sources, List.mem_cons, List.not_mem_nil, or_false, exists_eq_or_imp,
        exists_eq_left]
      tauto
  · have hlayer : environmentLayer source files base (some name) =
        environmentLayer source files base none := by
      simp [environmentLayer, hname]
    have hdata : loadData source files vars base (some name) =
        loadData source files vars base none := by
      rw [loadData, loadData, hlayer]
    refine ⟨hdata, ?_⟩
    rw [loadWith, loadWith, hdata]
  · have hdata : loadData source files vars base environment = .error .unreadable := by
      rw [loadData, hmissing]
      rfl
    refine ⟨hdata, ?_⟩
    rw [loadWith, hdata]
    rfl

/-- A base file and an overlay with the same section, its name in another case. -/
def stagedFiles : Files := fun path =>
  if path = "relay.toml" then
    some "[source]\nhost = \"a\"\nport = 1\nvhost = \"b\"\n".toUTF8
  else if path = "environments/staging.toml" then
    some "[Source]\nport = 2\n".toUTF8
  else none

/-- One section that all three sources set, and an overlay that does not exist. -/
theorem loadData_precedence_staged :
    (∃ data,
      loadData tomlFiles stagedFiles [("RELAY__SOURCE__HOST", "c")] "relay.toml"
        (some "staging") = .ok data ∧
      (leafAt? data ["source", "host"]).bind Reading.exact.text = some "c" ∧
      (leafAt? data ["source", "port"]).bind (Reading.exact.word 16) = some 2 ∧
      (leafAt? data ["source", "vhost"]).bind Reading.exact.text = some "b") ∧
    loadData tomlFiles stagedFiles [] "relay.toml" (some "absent") =
      loadData tomlFiles stagedFiles [] "relay.toml" none ∧
    loadData tomlFiles stagedFiles [("RELAY__SOURCE__HOST", "c")] "missing.toml"
      (some "staging") = .error .unreadable := by
  have hbase : (tomlFiles stagedFiles "relay.toml").layer = .ok [("source",
      .record [("host", .text "a"), ("port", .int 1), ("vhost", .text "b")])] := by cbv
  have hoverlay : environmentLayer tomlFiles stagedFiles "relay.toml" (some "staging") =
      .ok [("Source", .record [("port", .int 2)])] := by cbv
  have hmissing : tomlFiles stagedFiles "missing.toml" = .nothing := by cbv
  obtain ⟨data, hdata, hleaf⟩ :=
    (loadData_precedence tomlFiles stagedFiles [("RELAY__SOURCE__HOST", "c")] "relay.toml").1
      (some "staging") _ _ hbase hoverlay
      ⟨by decide +kernel, by decide +kernel, by decide +kernel⟩
      ⟨by decide +kernel, by decide +kernel⟩
  have habsent :=
    (loadData_precedence tomlFiles stagedFiles [] "relay.toml").2.1 "absent" (by decide +kernel)
  refine ⟨⟨data, hdata, ?_, ?_, ?_⟩, habsent.1, ?_⟩
  · rw [(hleaf _).1]
    decide +kernel
  · rw [(hleaf _).1]
    decide +kernel
  · rw [(hleaf _).1]
    decide +kernel
  · exact ((loadData_precedence tomlFiles stagedFiles _ "missing.toml").2.2 hmissing _).1

end QueueRelay.Config

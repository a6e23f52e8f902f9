/-
What the operations on a table do to its pairs.

A look-up goes by the first pair with a key, while what a broker owes its clients is
counted over all pairs.  The two agree as long as no key stands twice.  Then a table has
one place for a key that is in it, and giving the key a new value, or changing the value it
has, puts the new value in that place and leaves everything before and after it alone.
-/
import QueueRelay.Table

namespace QueueRelay

namespace Table

variable {κ ν : Type} [DecidableEq κ] {t : Table κ ν} {k l : κ} {v w : ν}

/-- The keys, in the order of the pairs. -/
def keys (t : Table κ ν) : List κ := t.entries.map Prod.fst

/-! ### Looking up -/

theorem mem_of_get? (h : t.get? k = some v) : (k, v) ∈ t.entries := by
  obtain ⟨e, he, rfl⟩ := Option.map_eq_some_iff.1 h
  have hk : e.1 = k := by simpa using List.find?_some he
  subst hk
  exact List.mem_of_find?_eq_some he

theorem get?_of_mem (hn : t.keys.Nodup) (h : (k, v) ∈ t.entries) : t.get? k = some v := by
  obtain ⟨es⟩ := t
  show (es.find? fun e => e.1 = k).map Prod.snd = some v
  induction es with
  | nil => cases h
  | cons e es ih =>
      obtain ⟨hne, hn⟩ := List.nodup_cons.1 hn
      rcases List.mem_cons.1 h with rfl | hm
      · simp
      · have hek : e.1 ≠ k := by
          rintro rfl
          exact hne (List.mem_map.2 ⟨_, hm, rfl⟩)
        rw [List.find?_cons_of_neg (by simpa using hek)]
        exact ih hn hm

/-- Tables with the same pairs, none of whose keys stands twice, answer the same. -/
theorem get?_eq_of_perm {t' : Table κ ν} (hn : t.keys.Nodup) (h : t.entries.Perm t'.entries)
    (k : κ) : t.get? k = t'.get? k := by
  have hn' : t'.keys.Nodup := (h.map Prod.fst).nodup_iff.1 hn
  refine Option.ext fun v => ⟨fun hv => ?_, fun hv => ?_⟩
  · exact get?_of_mem hn' (h.subset (mem_of_get? hv))
  · exact get?_of_mem hn (h.symm.subset (mem_of_get? hv))

theorem mem_keys_of_get? (h : t.get? k = some v) : k ∈ t.keys :=
  List.mem_map_of_mem (mem_of_get? h)

theorem get?_eq_none_of_not_mem (h : k ∉ t.keys) : t.get? k = none := by
  cases hv : t.get? k with
  | none => rfl
  | some v => exact absurd (mem_keys_of_get? hv) h

theorem contains_iff : t.contains k = true ↔ k ∈ t.keys := by
  simp [contains, keys]

theorem exists_get?_of_contains (h : t.contains k = true) : ∃ v, t.get? k = some v := by
  have hm := contains_iff.1 h
  cases hv : t.get? k with
  | some v => exact ⟨v, rfl⟩
  | none =>
      obtain ⟨e, he, rfl⟩ := List.mem_map.1 hm
      have := List.find?_eq_none.1 (Option.map_eq_none_iff.1 hv) e he
      simp at this

theorem contains_eq_isSome (t : Table κ ν) (k : κ) : t.contains k = (t.get? k).isSome := by
  cases hc : t.contains k with
  | true =>
      obtain ⟨v, hv⟩ := exists_get?_of_contains hc
      rw [hv]
      rfl
  | false =>
      have hk : k ∉ t.keys := by
        intro hm
        rw [contains_iff.2 hm] at hc
        cases hc
      rw [get?_eq_none_of_not_mem hk]
      rfl

/-! ### Setting -/

/-- A key that is there has one place, which keeps its value. -/
theorem entries_set (h : t.get? k = some v) :
    ∃ l₁ l₂, t.entries = l₁ ++ (k, v) :: l₂ ∧
      ∀ w, (t.set k w).entries = l₁ ++ (k, w) :: l₂ := by
  obtain ⟨es⟩ := t
  change (es.find? fun e => e.1 = k).map Prod.snd = some v at h
  show ∃ l₁ l₂, es = l₁ ++ (k, v) :: l₂ ∧ ∀ w, setPairs k w es = l₁ ++ (k, w) :: l₂
  induction es with
  | nil => simp at h
  | cons e es ih =>
      by_cases he : e.1 = k
      · subst he
        simp only [decide_true, List.find?_cons_of_pos, Option.map_some, Option.some.injEq] at h
        subst h
        exact ⟨[], es, rfl, fun w => by simp [setPairs]⟩
      · rw [List.find?_cons_of_neg (by simpa using he)] at h
        obtain ⟨l₁, l₂, hes, hset⟩ := ih h
        exact ⟨e :: l₁, l₂, by rw [hes]; rfl, fun w => by simp [setPairs, he, hset w]⟩

/-- A key that is not there comes at the end. -/
theorem entries_set_of_not_mem (h : k ∉ t.keys) (w : ν) :
    (t.set k w).entries = t.entries ++ [(k, w)] := by
  obtain ⟨es⟩ := t
  show setPairs k w es = es ++ [(k, w)]
  induction es with
  | nil => rfl
  | cons e es ih =>
      have he : e.1 ≠ k := by
        rintro rfl
        exact h List.mem_cons_self
      have hes : k ∉ keys ⟨es⟩ := by
        intro hm
        exact h (List.mem_cons_of_mem _ hm)
      show (if e.1 = k then (k, w) :: es else e :: setPairs k w es) = e :: es ++ [(k, w)]
      rw [if_neg he, ih hes]
      rfl

/-- Keys that are all new come at the end, in the order in which they are set. -/
theorem entries_foldl_set {es : List (κ × ν)} (h : (t.entries ++ es).map Prod.fst |>.Nodup) :
    (es.foldl (fun t e => t.set e.1 e.2) t).entries = t.entries ++ es := by
  induction es generalizing t with
  | nil => rw [List.foldl_nil, List.append_nil]
  | cons e es ih =>
      have hset : (t.set e.1 e.2).entries = t.entries ++ [e] := by
        refine entries_set_of_not_mem (fun hm => ?_) e.2
        rw [List.map_append, List.nodup_append] at h
        exact h.2.2 e.1 hm e.1 List.mem_cons_self rfl
      rw [List.foldl_cons, ih (by rwa [hset, ← List.append_cons]), hset, ← List.append_cons]

theorem keys_set (h : t.get? k = some v) (w : ν) : (t.set k w).keys = t.keys := by
  obtain ⟨l₁, l₂, hes, hset⟩ := entries_set h
  simp [keys, hes, hset w]

/-- What all values satisfy they satisfy still when one more that does is set. -/
theorem forall_get?_set {P : ν → Prop} (h : ∀ l v, t.get? l = some v → P v) (k : κ) {w : ν}
    (hw : P w) : ∀ l v, (t.set k w).get? l = some v → P v := by
  intro l v hl
  rw [get?_set] at hl
  split at hl
  · cases hl
    exact hw
  · exact h l v hl

/-- Every pair after a key was set is the new one or an old one. -/
theorem mem_entries_set {e : κ × ν} (h : e ∈ (t.set k w).entries) :
    e = (k, w) ∨ e ∈ t.entries := by
  by_cases hk : k ∈ t.keys
  · obtain ⟨v, hv⟩ := exists_get?_of_contains (contains_iff.2 hk)
    obtain ⟨l₁, l₂, hes, hset⟩ := entries_set hv
    rw [hset w] at h
    rw [hes]
    simp only [List.mem_append, List.mem_cons] at h ⊢
    rcases h with h | h | h
    · exact .inr (.inl h)
    · exact .inl h
    · exact .inr (.inr (.inr h))
  · rw [entries_set_of_not_mem hk w] at h
    simp only [List.mem_append, List.mem_singleton] at h
    exact h.symm

/-! ### Changing -/

theorem get?_modify (f : ν → ν) :
    (t.modify k f).get? l = if k = l then (t.get? l).map f else t.get? l := by
  obtain ⟨es⟩ := t
  show ((es.map fun e => if e.1 = k then (e.1, f e.2) else e).find? fun e => e.1 = l).map
      Prod.snd =
    if k = l then ((es.find? fun e => e.1 = l).map Prod.snd).map f
    else (es.find? fun e => e.1 = l).map Prod.snd
  induction es with
  | nil => simp
  | cons e es ih =>
      by_cases he : e.1 = l
      · by_cases hk : k = l
        · subst hk
          simp [he]
        · have hlk : l ≠ k := fun h => hk h.symm
          simp [he, hk, hlk]
      · have hkeep : (if e.1 = k then (e.1, f e.2) else e).1 = e.1 := by split <;> rfl
        rw [List.map_cons, List.find?_cons_of_neg (by simpa [hkeep] using he), ih,
          List.find?_cons_of_neg (by simpa using he)]

theorem keys_modify (f : ν → ν) : (t.modify k f).keys = t.keys := by
  simp only [keys, modify, List.map_map]
  refine List.map_congr_left fun e _ => ?_
  simp only [Function.comp_apply]
  split <;> rfl

theorem contains_modify (f : ν → ν) : (t.modify k f).contains l = t.contains l := by
  rw [Bool.eq_iff_iff, contains_iff, contains_iff, keys_modify]

theorem contains_set_of_contains (h : t.contains l = true) (w : ν) :
    (t.set k w).contains l = true := by
  obtain ⟨v, hv⟩ := exists_get?_of_contains h
  refine contains_iff.2 ?_
  by_cases hkl : k = l
  · exact mem_keys_of_get? (v := w) (by rw [get?_set, if_pos hkl])
  · exact mem_keys_of_get? (v := v) (by rw [get?_set, if_neg hkl, hv])

/-- Where no key stands twice, no pair around the place of a key has that key. -/
theorem entries_around (hn : t.keys.Nodup) (h : t.get? k = some v) :
    ∃ l₁ l₂, t.entries = l₁ ++ (k, v) :: l₂ ∧ (∀ e ∈ l₁ ++ l₂, e.1 ≠ k) ∧
      ∀ w, (t.set k w).entries = l₁ ++ (k, w) :: l₂ := by
  obtain ⟨l₁, l₂, hes, hset⟩ := entries_set h
  have hkeys : (l₁.map Prod.fst ++ k :: l₂.map Prod.fst).Nodup := by
    simpa [keys, hes] using hn
  obtain ⟨-, hn₂, hdisj⟩ := List.nodup_append.1 hkeys
  refine ⟨l₁, l₂, hes, fun e he => ?_, hset⟩
  rcases List.mem_append.1 he with he | he
  · exact hdisj e.1 (List.mem_map_of_mem he) k List.mem_cons_self
  · rintro rfl
    exact (List.nodup_cons.1 hn₂).1 (List.mem_map_of_mem he)

/-- Where no key stands twice, changing a value is setting it. -/
theorem modify_eq_set (hn : t.keys.Nodup) (h : t.get? k = some v) (f : ν → ν) :
    t.modify k f = t.set k (f v) := by
  obtain ⟨l₁, l₂, hes, hout, hset⟩ := entries_around hn h
  have hkeep : ∀ l : List (κ × ν), (∀ e ∈ l, e.1 ≠ k) →
      (l.map fun e => if e.1 = k then (e.1, f e.2) else e) = l := by
    intro l hl
    have hid : l.map (fun e => if e.1 = k then (e.1, f e.2) else e) = l.map id := by
      refine List.map_congr_left fun e he => ?_
      rw [if_neg (hl e he)]
      rfl
    rw [hid, List.map_id]
  have hentries : (t.modify k f).entries = (t.set k (f v)).entries := by
    rw [hset (f v)]
    simp only [modify, hes, List.map_append, List.map_cons, if_true]
    rw [hkeep l₁ fun e he => hout e (List.mem_append_left _ he),
      hkeep l₂ fun e he => hout e (List.mem_append_right _ he)]
  cases hm : t.modify k f
  cases hs : t.set k (f v)
  rw [hm, hs] at hentries
  exact congrArg Table.mk hentries

/-! ### Taking out -/

theorem keys_erase_sublist : (t.erase k).keys.Sublist t.keys :=
  List.filter_sublist.map Prod.fst

/-- Where no key stands twice, taking a key out takes out one pair. -/
theorem perm_erase (hn : t.keys.Nodup) (h : t.get? k = some v) :
    t.entries.Perm ((k, v) :: (t.erase k).entries) := by
  obtain ⟨l₁, l₂, hes, hout, -⟩ := entries_around hn h
  have hkeep : ∀ e ∈ l₁ ++ l₂, decide (e.1 ≠ k) = true := by
    intro e he
    exact decide_eq_true (hout e he)
  have herase : (t.erase k).entries = l₁ ++ l₂ := by
    rw [← List.filter_eq_self.2 hkeep]
    simp [erase, hes]
  rw [herase, hes]
  exact List.perm_middle

/-! ### Changing every value -/

variable {f g : κ → ν → ν}

/-- Changes every value as its key says. -/
def mapWith (t : Table κ ν) (f : κ → ν → ν) : Table κ ν :=
  ⟨t.entries.map fun e => (e.1, f e.1 e.2)⟩

omit [DecidableEq κ] in
theorem keys_mapWith (f : κ → ν → ν) : (t.mapWith f).keys = t.keys := by
  simp [keys, mapWith]

theorem contains_mapWith (f : κ → ν → ν) (k : κ) :
    (t.mapWith f).contains k = t.contains k := by
  rw [Bool.eq_iff_iff, contains_iff, contains_iff, keys_mapWith]

omit [DecidableEq κ] in
theorem mapWith_mapWith : (t.mapWith f).mapWith g = t.mapWith fun k v => g k (f k v) := by
  simp [mapWith]

omit [DecidableEq κ] in
theorem mapWith_congr (h : ∀ k v, k ∈ t.keys → f k v = g k v) : t.mapWith f = t.mapWith g := by
  refine congrArg Table.mk (List.map_congr_left ?_)
  intro e he
  rw [h e.1 e.2 (List.mem_map_of_mem he)]

omit [DecidableEq κ] in
theorem mapWith_eq_self (h : ∀ k v, k ∈ t.keys → f k v = v) : t.mapWith f = t := by
  rw [mapWith_congr (g := fun _ v => v) h]
  simp [mapWith]

theorem get?_mapWith (f : κ → ν → ν) (k : κ) : (t.mapWith f).get? k = (t.get? k).map (f k) := by
  obtain ⟨es⟩ := t
  show ((es.map fun e => (e.1, f e.1 e.2)).find? fun e => e.1 = k).map Prod.snd =
    ((es.find? fun e => e.1 = k).map Prod.snd).map (f k)
  induction es with
  | nil => rfl
  | cons e es ih =>
      by_cases he : e.1 = k
      · simp [he]
      · simpa [he] using ih

theorem modify_eq_mapWith (k : κ) (h : ν → ν) :
    t.modify k h = t.mapWith fun l v => if l = k then h v else v := by
  refine congrArg Table.mk (List.map_congr_left ?_)
  intro e _
  by_cases he : e.1 = k <;> simp [he]

/-- A key that is not there can be set before or after the others are changed. -/
theorem mapWith_set {k : κ} {v : ν} (hk : k ∉ t.keys) (hv : f k v = v) :
    (t.mapWith f).set k v = (t.set k v).mapWith f := by
  have hk' : k ∉ (t.mapWith f).keys := by
    rw [keys_mapWith]
    exact hk
  have hentries : ((t.mapWith f).set k v).entries = ((t.set k v).mapWith f).entries := by
    rw [entries_set_of_not_mem hk' v]
    simp [mapWith, entries_set_of_not_mem hk v, hv]
  cases hl : (t.mapWith f).set k v
  cases hr : (t.set k v).mapWith f
  rw [hl, hr] at hentries
  exact congrArg Table.mk hentries

theorem contains_set (k l : κ) (v : ν) :
    (t.set k v).contains l = true ↔ l = k ∨ t.contains l = true := by
  constructor
  · intro h
    obtain ⟨w, hw⟩ := exists_get?_of_contains h
    rw [get?_set] at hw
    split at hw
    · rename_i hkl
      exact .inl hkl.symm
    · exact .inr (contains_iff.2 (mem_keys_of_get? hw))
  · rintro (rfl | h)
    · exact contains_iff.2 (mem_keys_of_get? (v := v) (by rw [get?_set, if_pos rfl]))
    · exact contains_set_of_contains h v

/-! ### Putting one table over another -/

theorem nodup_keys_set (hn : t.keys.Nodup) (k : κ) (v : ν) : (t.set k v).keys.Nodup := by
  by_cases hk : k ∈ t.keys
  · obtain ⟨w, hw⟩ := exists_get?_of_contains (contains_iff.2 hk)
    rwa [keys_set hw]
  · have hkeys : (t.set k v).keys = t.keys ++ [k] := by
      rw [keys, entries_set_of_not_mem hk, List.map_append]
      rfl
    rw [hkeys]
    refine List.nodup_append.2 ⟨hn, by simp, fun l hl m hm => ?_⟩
    rw [List.mem_singleton.1 hm]
    rintro rfl
    exact hk hl

theorem setPairs_setPairs (k : κ) (v w : ν) (es : List (κ × ν)) :
    setPairs k w (setPairs k v es) = setPairs k w es := by
  induction es with
  | nil => simp [setPairs]
  | cons e es ih => by_cases he : e.1 = k <;> simp [setPairs, he, ih]

/-- A key that has its place can be given its value before or after another key is. -/
theorem setPairs_comm {es : List (κ × ν)} (hk : k ∈ es.map Prod.fst) (hkl : k ≠ l) (v w : ν) :
    setPairs k v (setPairs l w es) = setPairs l w (setPairs k v es) := by
  induction es with
  | nil => cases hk
  | cons e es ih =>
      by_cases hek : e.1 = k
      · have hel : e.1 ≠ l := fun hel => hkl (hek.symm.trans hel)
        simp [setPairs, hek, hkl]
      · have hes : k ∈ es.map Prod.fst := (List.mem_cons.1 hk).resolve_left (Ne.symm hek)
        by_cases hel : e.1 = l
        · simp [setPairs, hel, Ne.symm hkl]
        · simp [setPairs, hek, hel, ih hes]

theorem foldl_set_comm {es : List (κ × ν)} (hk : k ∈ t.keys) (hes : k ∉ es.map Prod.fst) (v : ν) :
    (es.foldl (fun t e => t.set e.1 e.2) t).set k v =
      es.foldl (fun t e => t.set e.1 e.2) (t.set k v) := by
  induction es generalizing t with
  | nil => rfl
  | cons e es ih =>
      obtain ⟨hne, hes⟩ := List.ne_and_not_mem_of_not_mem_cons hes
      have hstill : k ∈ (t.set e.1 e.2).keys :=
        contains_iff.1 (contains_set_of_contains (contains_iff.2 hk) e.2)
      have hswap : (t.set e.1 e.2).set k v = (t.set k v).set e.1 e.2 :=
        congrArg mk (setPairs_comm hk hne v e.2)
      rw [List.foldl_cons, List.foldl_cons, ih hstill hes, hswap]

/-- The table with what `u` holds in place of what it holds itself for the same keys. -/
def overriddenBy (t u : Table κ ν) : Table κ ν :=
  u.entries.foldl (fun t e => t.set e.1 e.2) t

@[simp] theorem overriddenBy_empty (t : Table κ ν) : t.overriddenBy empty = t := rfl

theorem get?_overriddenBy {u : Table κ ν} (hn : u.keys.Nodup) (k : κ) :
    (t.overriddenBy u).get? k = (u.get? k).or (t.get? k) := by
  obtain ⟨es⟩ := u
  show (es.foldl (fun t e => t.set e.1 e.2) t).get? k = _
  induction es generalizing t with
  | nil => rfl
  | cons e es ih =>
      obtain ⟨hne, hn⟩ := List.nodup_cons.1 hn
      rw [List.foldl_cons, ih hn, get?_set]
      by_cases he : e.1 = k
      · have hnone : (mk es).get? k = none := get?_eq_none_of_not_mem (he ▸ hne)
        have hsome : (mk (e :: es)).get? k = some e.2 := by simp [get?, he]
        rw [hnone, hsome, if_pos he]
        rfl
      · have hskip : (mk (e :: es)).get? k = (mk es).get? k := by simp [get?, he]
        rw [hskip, if_neg he]

/-- What is set in the table on top can be set in the result. -/
theorem overriddenBy_set {u : Table κ ν} (hn : u.keys.Nodup) (t : Table κ ν) (k : κ) (v : ν) :
    t.overriddenBy (u.set k v) = (t.overriddenBy u).set k v := by
  by_cases hk : k ∈ u.keys
  · obtain ⟨w, hw⟩ := exists_get?_of_contains (contains_iff.2 hk)
    obtain ⟨l₁, l₂, hes, hout, hset⟩ := entries_around hn hw
    have hl₂ : k ∉ l₂.map Prod.fst := by
      intro hm
      obtain ⟨e, he, hke⟩ := List.mem_map.1 hm
      exact hout e (List.mem_append_right _ he) hke
    have hplace : ∀ t : Table κ ν, k ∈ (t.set k w).keys := fun t =>
      contains_iff.1 ((contains_set k k w).2 (.inl rfl))
    have hagain : ∀ t : Table κ ν, (t.set k w).set k v = t.set k v := fun t =>
      congrArg mk (setPairs_setPairs k w v t.entries)
    simp only [overriddenBy, hes, hset v, List.foldl_append, List.foldl_cons]
    rw [foldl_set_comm (hplace _) hl₂, hagain]
  · simp only [overriddenBy, entries_set_of_not_mem hk, List.foldl_append, List.foldl_cons,
      List.foldl_nil]

end Table

end QueueRelay

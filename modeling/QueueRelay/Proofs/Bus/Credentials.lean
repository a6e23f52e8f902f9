/-
A connection string that cannot be read says nothing of its key.

Two readings that began alike are followed side by side.  A part changes what was gathered in
the same way in both, or ends both with the same error, whatever key was gathered before; and
what is made of the parts in the end asks of the key only whether there is one.  So the
readings agree as soon as the parts do, but for the value of a key.

The parts are found by cutting the text at every semicolon, before anything is known of them.
A key without one stays in its part, behind the name of the part, whatever else it holds.  A
key with one is cut, and what stands behind the cut is read as parts of its own: such a part
has no name, and the error that it causes shows it as it is.
-/
import QueueRelay.Bus.Credentials
import QueueRelay.Proofs.Url.Ipv6

namespace QueueRelay.Bus

variable {α β : Type}

/-! ### Two readings side by side -/

/-- Both are refused with the same error, or both succeed with results related by `R`. -/
inductive Agree (R : α → α → Prop) : Except LinkError α → Except LinkError α → Prop
  | refused (e : LinkError) : Agree R (.error e) (.error e)
  | given {a b : α} (h : R a b) : Agree R (.ok a) (.ok b)

theorem Agree.bind {R : α → α → Prop} {S : β → β → Prop} {x y : Except LinkError α}
    {f g : α → Except LinkError β} (h : Agree R x y)
    (hfg : ∀ a b, R a b → Agree S (f a) (g b)) : Agree S (x >>= f) (y >>= g) := by
  cases h with
  | refused e => exact .refused e
  | given h => exact hfg _ _ h

/-- Whatever each part keeps, all of them keep. -/
theorem agree_foldlM {R : β → β → Prop} {add : β → α → Except LinkError β}
    (hadd : ∀ p q a, R p q → Agree R (add p a) (add q a)) (parts : List α) {p q : β}
    (h : R p q) : Agree R (parts.foldlM add p) (parts.foldlM add q) := by
  induction parts generalizing p q with
  | nil => exact .given h
  | cons a parts ih =>
      rw [List.foldlM_cons, List.foldlM_cons]
      exact (hadd p q a h).bind fun p' q' h' => ih h'

/-- The same was gathered, but for the value of the key. -/
structure Parts.Alike (p q : Parts) : Prop where
  endpoint : p.endpoint = q.endpoint
  keyName : p.keyName = q.keyName
  key : p.key.isSome = q.key.isSome

theorem Parts.Alike.refl (p : Parts) : p.Alike p := ⟨rfl, rfl, rfl⟩

/-- The same access, but for the key. -/
structure Credentials.Alike (c d : Credentials) : Prop where
  host : c.host = d.host
  keyName : c.keyName = d.keyName

theorem agree_add (p q : Parts) (part : List Char) (h : p.Alike q) :
    Agree Parts.Alike (p.add part) (q.add part) := by
  obtain ⟨endpoint, keyName, key⟩ := h
  unfold Parts.add
  cases splitPair part with
  | none => exact .refused _
  | some pair =>
      refine .given ?_
      split_ifs
      · exact ⟨rfl, keyName, key⟩
      · exact ⟨endpoint, rfl, key⟩
      · exact ⟨endpoint, keyName, rfl⟩
      · exact ⟨endpoint, keyName, key⟩

theorem agree_credentials (host? : String → Option String) {p q : Parts} (h : p.Alike q) :
    Agree Credentials.Alike (p.credentials host?) (q.credentials host?) := by
  obtain ⟨endpoint, keyName, key⟩ := p
  obtain ⟨endpoint', keyName', key'⟩ := q
  obtain ⟨rfl, rfl, hkey⟩ : endpoint = endpoint' ∧ keyName = keyName' ∧
      key.isSome = key'.isSome := ⟨h.endpoint, h.keyName, h.key⟩
  unfold Parts.credentials
  cases endpoint with
  | none => exact .refused _
  | some endpoint =>
      dsimp only
      cases host? endpoint with
      | none => exact .refused _
      | some host =>
          cases keyName with
          | none => exact .refused _
          | some keyName =>
              cases key <;> cases key' <;> cases hkey
              · exact .refused _
              · exact .given ⟨rfl, rfl⟩

/-! ### The parts of a text -/

theorem splitAt_append (c : Char) (s t : List Char) :
    Url.splitAt c (s ++ c :: t) = Url.splitAt c s ++ Url.splitAt c t := by
  simp only [Url.splitAt_eq_splitOn]
  exact List.splitOn_append_cons_self s t

theorem splitAt_of_not_mem {c : Char} {s : List Char} (h : c ∉ s) : Url.splitAt c s = [s] := by
  rw [Url.splitAt_eq_splitOn]
  exact List.splitOn_eq_singleton h

theorem segmentsOf_append (s t : String) :
    segmentsOf (s ++ ";" ++ t) = segmentsOf s ++ segmentsOf t := by
  have hlist : (s ++ ";" ++ t).toList = s.toList ++ ';' :: t.toList := by simp
  simp only [segmentsOf, hlist, splitAt_append, List.map_append, List.filter_append]

/-- A text that is put together from parts has the parts of its parts. -/
theorem segmentsOf_intercalate (parts : List String) :
    segmentsOf (";".intercalate parts) = parts.flatMap segmentsOf := by
  induction parts with
  | nil => rfl
  | cons s parts ih =>
      rcases parts with - | ⟨t, parts⟩
      · simp
      · rw [String.intercalate_cons_cons, segmentsOf_append, ih]
        simp only [List.flatMap_cons]

theorem splitPair_append {name : List Char} (h : '=' ∉ name) (value : List Char) :
    splitPair (name ++ '=' :: value) = some (name, value) := by
  induction name with
  | nil => rfl
  | cons c name ih =>
      obtain ⟨hc, hname⟩ := List.ne_and_not_mem_of_not_mem_cons h
      simp [splitPair, Ne.symm hc, ih hname]

/-- Trimming stops at a character that is not blank, from either end. -/
theorem trimList_append {c d : Char} (hc : Text.isBlank c = false) (hd : Text.isBlank d = false)
    (s t : List Char) :
    Text.trimList (c :: (s ++ d :: t)) =
      c :: (s ++ d :: (t.reverse.dropWhile Text.isBlank).reverse) := by
  have hfront : (c :: (s ++ d :: t)).dropWhile Text.isBlank = c :: (s ++ d :: t) :=
    List.dropWhile_cons_of_neg (by simp [hc])
  have hback : (t.reverse ++ d :: (s.reverse ++ [c])).dropWhile Text.isBlank =
      t.reverse.dropWhile Text.isBlank ++ d :: (s.reverse ++ [c]) := by
    rw [List.dropWhile_append, List.dropWhile_cons_of_neg (by simp [hd])]
    split_ifs with hnil
    · rw [List.isEmpty_iff.mp hnil, List.nil_append]
    · rfl
  rw [Text.trimList, hfront]
  simp [hback]

/-! ### The part that holds the key -/

/-- The part that gives `key`. -/
def keyPart (key : String) : String := "SharedAccessKey=" ++ key

theorem keyPart_eq (key : String) : keyPart key = "SharedAccessKey=" ++ key := rfl

/-- The connection string with `key` between the parts of `front` and those of `back`. -/
def textWithKey (front back : List String) (key : String) : String :=
  ";".intercalate (front ++ keyPart key :: back)

theorem toList_keyPart (key : String) :
    (keyPart key).toList = 'S' :: ("haredAccessKey".toList ++ '=' :: key.toList) := by
  rw [keyPart_eq, String.toList_append]
  rfl

theorem segmentsOf_keyPart {key : String} (h : ';' ∉ key.toList) :
    segmentsOf (keyPart key) =
      ["SharedAccessKey".toList ++ '=' :: (key.toList.reverse.dropWhile Text.isBlank).reverse] := by
  have hwhole : ';' ∉ (keyPart key).toList := by simp [toList_keyPart, h]
  rw [segmentsOf, splitAt_of_not_mem hwhole, toList_keyPart, List.map_singleton,
    trimList_append rfl rfl]
  rfl

/-- A key without a semicolon is taken as it is, but for blanks at its end. -/
theorem foldlM_keyPart {key : String} (h : ';' ∉ key.toList) (p : Parts) :
    ∃ value, (segmentsOf (keyPart key)).foldlM Parts.add p = .ok { p with key := some value } := by
  have hpair := splitPair_append (show '=' ∉ "SharedAccessKey".toList by decide)
    (key.toList.reverse.dropWhile Text.isBlank).reverse
  refine ⟨String.ofList (key.toList.reverse.dropWhile Text.isBlank).reverse, ?_⟩
  rw [segmentsOf_keyPart h, List.foldlM_cons, Parts.add, hpair]
  rfl

/-- What stands behind the first semicolon of a key is cut off and read as parts. -/
theorem segmentsOf_keyPart_cut (key : String) (tail : List String) :
    segmentsOf (keyPart (";".intercalate (key :: tail))) =
      segmentsOf (keyPart key) ++ tail.flatMap segmentsOf := by
  rw [keyPart_eq, ← String.intercalate_cons_append, segmentsOf_intercalate, List.flatMap_cons,
    keyPart_eq]

/-- **What a connection string is read as, or the error that refuses it, does not depend on what
the key holds before its first semicolon.**  With either of two keys that differ only there,
between the same parts, the reading gives the same host and the same name of the key, or the
same error; so it does with any two keys that hold no semicolon (`tail` is empty then). -/
theorem hides_key (front back tail : List String) {key key' : String} (h : ';' ∉ key.toList)
    (h' : ';' ∉ key'.toList) :
    Agree Credentials.Alike
      (Credentials.parse (textWithKey front back (";".intercalate (key :: tail))))
      (Credentials.parse (textWithKey front back (";".intercalate (key' :: tail)))) := by
  have hkey : ∀ p q, p.Alike q → Agree Parts.Alike
      ((segmentsOf (keyPart key)).foldlM Parts.add p)
      ((segmentsOf (keyPart key')).foldlM Parts.add q) := by
    intro p q hpq
    obtain ⟨value, hvalue⟩ := foldlM_keyPart h p
    obtain ⟨value', hvalue'⟩ := foldlM_keyPart h' q
    rw [hvalue, hvalue']
    exact .given ⟨hpq.endpoint, hpq.keyName, rfl⟩
  have hrest := fun parts p q => agree_foldlM (p := p) (q := q) agree_add parts
  simp only [Credentials.parse, Credentials.parseWith, textWithKey, segmentsOf_intercalate,
    List.flatMap_append, List.flatMap_cons, segmentsOf_keyPart_cut, List.foldlM_append]
  refine Agree.bind ?_ fun p q => agree_credentials endpointHost?
  refine (hrest _ _ _ (.refl {})).bind fun p q hpq => ?_
  exact ((hkey p q hpq).bind fun p q => hrest _ p q).bind fun p q => hrest _ p q

theorem hides_key_of_malformed :
    ';' ∉ "c2VjcmV0".toList ∧ ';' ∉ "a=b ".toList ∧
      Agree Credentials.Alike
        (Credentials.parse (textWithKey ["Endpoint=sb://h"] ["EntityPath"]
          (";".intercalate ["c2VjcmV0", "x"])))
        (Credentials.parse (textWithKey ["Endpoint=sb://h"] ["EntityPath"]
          (";".intercalate ["a=b ", "x"]))) :=
  ⟨by decide, by decide, hides_key _ _ _ (by decide) (by decide)⟩

/-- Of two keys one is read, and of the other, which a semicolon cuts, a part is shown. -/
theorem cut_key_shown :
    (∃ c, Credentials.parse
      (textWithKey ["Endpoint=sb://h", "SharedAccessKeyName=n"] [] "a") = .ok c) ∧
      Credentials.parse (textWithKey ["Endpoint=sb://h", "SharedAccessKeyName=n"] [] "a;b") =
        .error (.invalidConfig "malformed connection string segment 'b'") := by
  constructor
  · exact ⟨⟨"h", "n", "a"⟩, by decide +kernel⟩
  · decide +kernel

end QueueRelay.Bus

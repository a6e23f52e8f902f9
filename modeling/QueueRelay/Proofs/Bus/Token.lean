/-
What a token says, and how it is read.

A token is four fields between ampersands.  The resource, the signature and the second of expiry
cannot run into their neighbours: what they are written as holds no ampersand, and is read back
as what it was written for.  The name of the key is written as it is.  So the fields of a token
are the first three and then those that the name is cut into, and the token is read back just
when the name is read as itself.

What is signed is the encoded resource and the second with a line feed between them, which
neither of them holds; so no two of them are signed alike.
-/
import QueueRelay.Proofs.Bus.Credentials
import QueueRelay.Proofs.Url.Authority
import QueueRelay.Proofs.Url.Form

namespace QueueRelay.Bus.Credentials

open Url

variable {c : Credentials} {resource : String} {expiry : Nat}

theorem length_of_mapM {α β : Type} {f : α → Option β} {l : List α} {r : List β}
    (h : l.mapM f = some r) : r.length = l.length := by
  induction l generalizing r with
  | nil =>
      cases h
      rfl
  | cons a l ih =>
      rw [List.mapM_cons] at h
      obtain ⟨b, -, hr⟩ := Option.bind_eq_some_iff.1 h
      obtain ⟨rest, hrest, hr⟩ := Option.bind_eq_some_iff.1 hr
      cases hr
      rw [List.length_cons, List.length_cons, ih hrest]

/-! ### What a token is made of -/

/-- A field as it is written. -/
def field (name : String) (value : List Char) : List Char := name.toList ++ '=' :: value

/-- The field that says which key a token was signed with. -/
def nameField (c : Credentials) : List Char := field "skn" c.keyName.toList

theorem toList_token (c : Credentials) (resource : String) (expiry : Nat) :
    (c.token resource expiry).toList = tokenMark.toList ++
      (field "sr" (formEncode resource).toList ++ '&' ::
        (field "sig" (formEncode (c.signature resource expiry)).toList ++ '&' ::
          (field "se" (toString expiry).toList ++ '&' :: c.nameField))) := by
  simp only [token, String.toList_append, List.append_assoc, field, nameField]
  rfl

theorem mem_toString {d : Char} (h : d ∈ (toString expiry).toList) : d ∈ hexDigits := by
  rw [toList_toString] at h
  exact (mem_decimal h).2

theorem formDecode?_toString (expiry : Nat) :
    formDecode? (toString expiry).toList = some (toString expiry).toList := by
  have hplus : '+' ∉ (toString expiry).toList := fun h => absurd (mem_toString h) (by decide)
  have hescape : '%' ∉ (toString expiry).toList := fun h => absurd (mem_toString h) (by decide)
  exact formDecode?_eq_self_iff.2 ⟨hplus, not_hasEscape hescape⟩

/-! ### How a token is read -/

/-- What a token is cut into at its ampersands. -/
def tokenParts (token : String) : List (List Char) :=
  splitAt '&' (token.toList.drop tokenMark.length)

/-- A field as it is cut at its first `=`. -/
def readField (field : List Char) : Option (String × String) :=
  (splitPair field).map fun (name, value) => (String.ofList name, String.ofList value)

theorem readField_field {name : String} (h : '=' ∉ name.toList) (value : List Char) :
    readField (field name value) = some (name, String.ofList value) := by
  simp [readField, field, splitPair_append h]

theorem not_mem_field {name : String} {value : List Char} (hname : '&' ∉ name.toList)
    (hvalue : '&' ∉ value) : '&' ∉ field name value := by
  simp [field, hname, hvalue]

/-- Three fields stay apart; the name of the key may be cut. -/
theorem tokenParts_token (c : Credentials) (resource : String) (expiry : Nat) :
    tokenParts (c.token resource expiry) =
      [field "sr" (formEncode resource).toList,
        field "sig" (formEncode (c.signature resource expiry)).toList,
        field "se" (toString expiry).toList] ++ splitAt '&' c.nameField := by
  have hencoded : ∀ s, '&' ∉ (formEncode s).toList :=
    not_mem_formEncode (by decide) (by decide) (by decide)
  have hexpiry : '&' ∉ (toString expiry).toList := fun h => absurd (mem_toString h) (by decide)
  rw [tokenParts, toList_token, ← String.length_toList, List.drop_left, splitAt_append,
    splitAt_append, splitAt_append, splitAt_of_not_mem (not_mem_field (by decide) (hencoded _)),
    splitAt_of_not_mem (not_mem_field (by decide) (hencoded _)),
    splitAt_of_not_mem (not_mem_field (by decide) hexpiry)]
  rfl

theorem tokenFields?_token (c : Credentials) (resource : String) (expiry : Nat) :
    tokenFields? (c.token resource expiry) =
      (tokenParts (c.token resource expiry)).mapM readField := by
  have hmark : tokenMark.toList.isPrefixOf (c.token resource expiry).toList = true := by
    rw [toList_token]
    simp
  rw [tokenFields?, if_pos hmark]
  rfl

/-- The token is read as four fields, whose values are what it was made from. -/
def ReadBack (c : Credentials) (resource : String) (expiry : Nat) : Prop :=
  ∃ sr sig se skn : String,
    tokenFields? (c.token resource expiry) =
      some [("sr", sr), ("sig", sig), ("se", se), ("skn", skn)] ∧
    formDecode? sr.toList = some resource.toList ∧
    formDecode? sig.toList = some (c.signature resource expiry).toList ∧
    formDecode? se.toList = some (toString expiry).toList ∧
    formDecode? skn.toList = some c.keyName.toList

/-- The name of the key can be written as it is. -/
structure HasPlainName (c : Credentials) : Prop where
  no_ampersand : '&' ∉ c.keyName.toList
  no_plus : '+' ∉ c.keyName.toList
  no_escape : ¬ HasEscape c.keyName.toList

theorem tokenFields?_of_no_ampersand (h : '&' ∉ c.keyName.toList) (resource : String)
    (expiry : Nat) :
    tokenFields? (c.token resource expiry) =
      some [("sr", formEncode resource), ("sig", formEncode (c.signature resource expiry)),
        ("se", toString expiry), ("skn", c.keyName)] := by
  have hname : splitAt '&' c.nameField = [c.nameField] :=
    splitAt_of_not_mem (not_mem_field (by decide) h)
  rw [tokenFields?_token, tokenParts_token, hname]
  have hsr := readField_field (show '=' ∉ "sr".toList by decide)
  have hsig := readField_field (show '=' ∉ "sig".toList by decide)
  have hse := readField_field (show '=' ∉ "se".toList by decide)
  have hskn := readField_field (show '=' ∉ "skn".toList by decide)
  simp only [nameField, List.cons_append, List.nil_append, List.mapM_cons, List.mapM_nil, hsr,
    hsig, hse, hskn, String.ofList_toList]
  rfl

theorem no_ampersand_of_four {fields : List (String × String)}
    (h : tokenFields? (c.token resource expiry) = some fields) (hlength : fields.length = 4) :
    '&' ∉ c.keyName.toList := by
  rw [tokenFields?_token, tokenParts_token] at h
  have hparts := length_of_mapM h
  rw [List.length_append, length_splitAt, hlength] at hparts
  have hnone : c.nameField.count '&' = 0 := by
    simp only [List.length_cons, List.length_nil] at hparts
    omega
  intro hm
  exact List.count_eq_zero.1 hnone (List.mem_append_right _ (List.mem_cons_of_mem _ hm))

theorem readBack_iff : ReadBack c resource expiry ↔ c.HasPlainName := by
  constructor
  · rintro ⟨sr, sig, se, skn, hfields, -, -, -, hname⟩
    have hcut := no_ampersand_of_four hfields rfl
    rw [tokenFields?_of_no_ampersand hcut] at hfields
    cases hfields
    obtain ⟨hplus, hescape⟩ := formDecode?_eq_self_iff.1 hname
    exact ⟨hcut, hplus, hescape⟩
  · intro h
    exact ⟨_, _, _, _, tokenFields?_of_no_ampersand h.no_ampersand resource expiry,
      formDecode?_formEncode resource, formDecode?_formEncode _, formDecode?_toString expiry,
      formDecode?_eq_self_iff.2 ⟨h.no_plus, h.no_escape⟩⟩

/-! ### What is signed -/

/-- No two tokens sign the same for different resources or seconds. -/
theorem stringToSign_injective {resource' : String} {expiry' : Nat}
    (h : stringToSign resource expiry = stringToSign resource' expiry') :
    resource = resource' ∧ expiry = expiry' := by
  have htext : ∀ r e, (stringToSign r e).toList =
      (formEncode r).toList ++ '\n' :: (toString e).toList := by
    intro r e
    simp [stringToSign]
  have hencoded : '\n' ∉ (formEncode resource).toList :=
    not_mem_formEncode (by decide) (by decide) (by decide) resource
  have hdigits : '\n' ∉ (toString expiry).toList := fun h => absurd (mem_toString h) (by decide)
  have hsame := congrArg String.toList h
  rw [htext, htext] at hsame
  obtain ⟨hresource, -, hexpiry⟩ := (List.append_cons_inj_of_notMem hencoded hdigits).1 hsame
  have hread : ∀ n : Nat, Nat.ofDigitChars 10 (toString n).toList 0 = n := by
    intro n
    rw [toList_toString]
    exact Nat.ofDigitChars_toDigits (by decide) (by decide)
  refine ⟨formEncode_injective (String.toList_inj.1 hresource), ?_⟩
  rw [← hread expiry, hexpiry, hread expiry']

/-- **How a token is read.**  Behind its mark a token is cut into the fields of the resource, of
the signature and of the second of expiry, each of which is read back, and what the field with
the name of the key is cut into.  It is read back as a whole just when the name holds no
ampersand, no `+` and no escape.  What is signed for one resource and second is signed for no
other. -/
theorem token_read_back (c : Credentials) (resource : String) (expiry : Nat) :
    (∃ sr sig se, tokenMark.toList <+: (c.token resource expiry).toList ∧
      tokenParts (c.token resource expiry) =
        [field "sr" sr, field "sig" sig, field "se" se] ++
          splitAt '&' (field "skn" c.keyName.toList) ∧
      formDecode? sr = some resource.toList ∧
      formDecode? sig = some (c.signature resource expiry).toList ∧
      formDecode? se = some (toString expiry).toList) ∧
    (ReadBack c resource expiry ↔ c.HasPlainName) ∧
    ∀ resource' expiry', stringToSign resource expiry = stringToSign resource' expiry' →
      resource = resource' ∧ expiry = expiry' := by
  refine ⟨⟨_, _, _, ?_, tokenParts_token c resource expiry, formDecode?_formEncode resource,
    formDecode?_formEncode _, formDecode?_toString expiry⟩, readBack_iff,
    fun _ _ => stringToSign_injective⟩
  rw [toList_token]
  exact List.prefix_append _ _

/-- A resource full of marks, the last second there is and a name with a `=` are read back. -/
theorem token_read_back_marks :
    let c : Credentials := ⟨"h", "send=all", "k"⟩
    c.HasPlainName ∧ ReadBack c "https://h/a&se=1+2%41\n" 18446744073709551615 ∧
      ¬ stringToSign "a" 11 = stringToSign "a\n1" 1 := by
  intro c
  have hplain : c.HasPlainName := ⟨by decide, by decide, not_hasEscape (by decide)⟩
  have hread := (token_read_back c "https://h/a&se=1+2%41\n" 18446744073709551615).2.1.2 hplain
  have hsigned := (token_read_back c "a" 11).2.2 "a\n1" 1
  exact ⟨hplain, hread, fun h => absurd (hsigned h).2 (by decide)⟩

/-- The name of a key that was read from a connection string is cut at its ampersand: the token
has a part too many, and is not read back. -/
theorem name_cut_at_ampersand :
    let c : Credentials := ⟨"h", "a&b", "k"⟩
    parse "Endpoint=sb://h;SharedAccessKeyName=a&b;SharedAccessKey=k" = .ok c ∧
      (tokenParts (c.token "r" 0)).length = 5 ∧ ¬ ReadBack c "r" 0 := by
  intro c
  refine ⟨by decide +kernel, ?_, fun h => (readBack_iff.1 h).no_ampersand (by decide)⟩
  rw [tokenParts_token, List.length_append, length_splitAt]
  decide

end QueueRelay.Bus.Credentials

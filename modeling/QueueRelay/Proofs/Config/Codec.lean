/-
Configurations survive being written and read.

Writer and reader are tied together by the names of fields alone, one section at a time.  So
there is one lemma for each section: what it is written as is read back.  The sections meet in
the record of the whole, and a target's fields in the record that also holds its tag; the tag
is looked up before the fields are, and no field has its name.

Two things can go wrong on the way.  A whole number has a size, 16 bits for ports and
heartbeats and 64 for delays, and one that is too large is not read: `Config.Sized` keeps them
out.  And a double that is not finite has no form in JSON.  With both kept out, JSON has a form
for the whole (`formed_retagged`), and the document gives back what its codec keeps.
-/
import QueueRelay.Config.Codec
import QueueRelay.Proofs.Json.RoundTrip

namespace QueueRelay

variable {α : Type} {bits : Nat} {double : Float → Prop}

/-! ### Scalars and fields -/

namespace Reading

/-- A reading that takes every scalar from its own kind as it is. -/
structure Faithful (r : Reading) : Prop where
  bool : ∀ b, r.bool (.bool b) = some b
  text : ∀ s, r.text (.text s) = some s
  float : ∀ x, r.float (.float x) = some x
  word : ∀ {bits n}, n < Nat.pow 2 bits → r.word bits (.ofNat n) = some n
  choice : ∀ k : ExchangeKind, r.choice k.toValue = some k.name

theorem exact_faithful : exact.Faithful where
  bool _ := rfl
  text _ := rfl
  float _ := rfl
  word {bits n} h := by
    have h' : (n : Int) < (Nat.pow 2 bits : Nat) := Int.ofNat_lt.2 h
    simp only [exact, Value.ofNat]
    rw [if_pos ⟨Int.natCast_nonneg n, h'⟩]
    rfl
  choice _ := rfl

/-- An option is read back if what it may hold is, and is not written as null. -/
theorem nullable_ofOption {read : Value → Option α} {write : α → Value} {o : Option α}
    (hn : ∀ a, write a ≠ .null) (h : ∀ a, o = some a → read (write a) = some a) :
    nullable read (.ofOption write o) = some o := by
  cases o with
  | none => rfl
  | some a =>
      have ha := h a rfl
      show nullable read (write a) = some (some a)
      unfold nullable
      split
      · next hw => exact absurd hw (hn a)
      · rw [ha]
        rfl

variable {r : Reading} (hr : r.Faithful)
include hr

theorem Faithful.optionalText (o : Option String) :
    nullable r.text (.ofOption .text o) = some o :=
  nullable_ofOption nofun fun s _ => hr.text s

theorem Faithful.optionalWord {o : Option Nat} (h : ∀ n, o = some n → n < Nat.pow 2 bits) :
    nullable (r.word bits) (.ofOption .ofNat o) = some o :=
  nullable_ofOption nofun fun n hn => hr.word (h n hn)

theorem Faithful.optionalFloat (o : Option Float) :
    nullable r.float (.ofOption .float o) = some o :=
  nullable_ofOption nofun fun x _ => hr.float x

theorem Faithful.texts (texts : List String) :
    list r.text (.list (texts.map .text)) = some texts := by
  simp only [list]
  induction texts with
  | nil => rfl
  | cons s texts ih => simp [hr.text, ih]

end Reading

namespace Fields

variable {fields : List (String × Value)} {index : Nat} {name name' : String} {v : Value}
  {read : Value → Option α} {standard : α}

@[simp] theorem get?_named_cons : (named ((name', v) :: fields)).get? index name =
    if name' = name then some v else (named fields).get? index name := by
  by_cases h : name' = name <;> simp [get?, h]

end Fields

/-! ### One lemma a section -/

/-- The whole numbers of a broker's address fit into 16 bits. -/
structure BrokerAddress.Sized (b : BrokerAddress) : Prop where
  port : b.port < Nat.pow 2 16
  heartbeat : b.heartbeatSecs < Nat.pow 2 16

/-- The delays fit into 64 bits. -/
structure BackoffSettings.Sized (s : BackoffSettings) : Prop where
  retry : ∀ n, s.retryDelayMs = some n → n < Nat.pow 2 64
  longest : ∀ n, s.maxDelaySecs = some n → n < Nat.pow 2 64

section
variable {r : Reading} (hr : r.Faithful)
include hr

theorem ExchangeKind.ofValue?_toValue (k : ExchangeKind) : ofValue? r k.toValue = some k := by
  rw [ofValue?, hr.choice]
  cases k <;> rfl

theorem Secret.ofValue?_toValue (s : Secret) : ofValue? r s.toValue = some s := by
  rw [ofValue?, toValue, hr.text]
  rfl

theorem BrokerAddress.ofValue?_toValue {b : BrokerAddress} (h : b.Sized) :
    ofValue? r b.toValue = some b := by
  simp [ofValue?, toValue, Fields.ofValue?, Fields.required, Fields.withDefault, hr.text,
    hr.word h.port, hr.word h.heartbeat, Secret.ofValue?_toValue hr]

theorem BackoffSettings.ofValue?_toValue {s : BackoffSettings} (h : s.Sized) :
    ofValue? r s.toValue = some s := by
  simp [ofValue?, toValue, Fields.ofValue?, Fields.nullable, hr.optionalWord h.retry,
    hr.optionalFloat, hr.optionalWord h.longest]

theorem Identity.ofValue?_toValue (i : Identity) : ofValue? r i.toValue = some i := by
  simp [ofValue?, toValue, Fields.ofValue?, Fields.withDefault, hr.text, hr.bool]

theorem Topology.ofValue?_toValue (t : Topology) : ofValue? r t.toValue = some t := by
  simp [ofValue?, toValue, Fields.ofValue?, Fields.withDefault, hr.text, hr.bool, hr.texts,
    ExchangeKind.ofValue?_toValue hr]

/-- Fields that are looked up by their names do not see the tag. -/
theorem BrokerTarget.ofValue?_tagged {t : BrokerTarget} (h : t.broker.Sized) (w : Value) :
    ofValue? r (.record ((Target.tagKey, w) :: t.toFields)) = some t := by
  simp [ofValue?, toFields, Fields.ofValue?, Fields.required, Fields.withDefault, Target.tagKey,
    hr.text, hr.bool, hr.optionalText, BrokerAddress.ofValue?_toValue hr h]

theorem CloudTarget.ofValue?_tagged (t : CloudTarget) (w : Value) :
    ofValue? r (.record ((Target.tagKey, w) :: t.toFields)) = some t := by
  simp [ofValue?, toFields, Fields.ofValue?, Fields.required, Fields.withDefault, Target.tagKey,
    hr.text, hr.bool, hr.optionalText, Secret.ofValue?_toValue hr]

theorem BusTarget.ofValue?_tagged (t : BusTarget) (w : Value) :
    ofValue? r (.record ((Target.tagKey, w) :: t.toFields)) = some t := by
  simp [ofValue?, toFields, Fields.ofValue?, Fields.required, Fields.withDefault, Target.tagKey,
    hr.bool, hr.optionalText, Secret.ofValue?_toValue hr]

end

/-! ### Targets -/

namespace Target

/-- The second name of a target's kind. -/
def secondName : Target → String
  | localBroker _ => "rabbitmq"
  | cloudQueue _ => "aws"
  | managedBus _ => "azure"

/-- The fields of a target without its tag. -/
def fields : Target → List (String × Value)
  | localBroker t => t.toFields
  | cloudQueue t => t.toFields
  | managedBus t => t.toFields

/-- A target written with `tag` for the name of its kind. -/
def tagged (tag : String) (t : Target) : Value := .record ((tagKey, .text tag) :: t.fields)

theorem toValue_eq_tagged (t : Target) : t.toValue = t.tagged t.kind := by
  cases t <;> rfl

/-- The whole numbers of a target have the sizes it gives them. -/
def Sized : Target → Prop
  | localBroker t => t.broker.Sized
  | _ => True

end Target

/-- A target is read back under either name of its kind. -/
theorem Target.ofValue?_tagged {t : Target} {tag : String} (h : t.Sized)
    (ht : tag = t.kind ∨ tag = t.secondName) : ofValue? (t.tagged tag) = some t := by
  cases t with
  | localBroker t =>
      have hr := BrokerTarget.ofValue?_tagged Reading.exact_faithful h (.text tag)
      rcases ht with rfl | rfl <;> simp_all [tagged, fields, ofValue?, ofTagged?, kind, secondName]
  | cloudQueue t =>
      have hr := CloudTarget.ofValue?_tagged Reading.exact_faithful t (.text tag)
      rcases ht with rfl | rfl <;> simp_all [tagged, fields, ofValue?, ofTagged?, kind, secondName]
  | managedBus t =>
      have hr := BusTarget.ofValue?_tagged Reading.exact_faithful t (.text tag)
      rcases ht with rfl | rfl <;> simp_all [tagged, fields, ofValue?, ofTagged?, kind, secondName]

/-! ### What JSON has a form for -/

namespace Json

theorem formed_ofNat {n : Nat} (hbits : bits ≤ 64) (h : n < Nat.pow 2 bits) :
    Formed double (.ofNat n) := by
  have hn : n < 2 ^ 64 := Nat.lt_of_lt_of_le h (Nat.pow_le_pow_right Nat.two_pos hbits)
  simp only [Value.ofNat, Formed, Int.ofNat_eq_natCast]
  omega

theorem formed_ofOption {write : α → Value} {o : Option α}
    (h : ∀ a, o = some a → Formed double (write a)) : Formed double (.ofOption write o) := by
  cases o with
  | none => exact trivial
  | some a => exact h a rfl

@[simp] theorem formed_optionalText (o : Option String) :
    Formed double (.ofOption .text o) :=
  formed_ofOption fun _ _ => trivial

end Json

open Json

theorem BrokerAddress.formed_toValue {b : BrokerAddress} (h : b.Sized) :
    Formed double b.toValue := by
  have hport : Formed double (.ofNat b.port) := formed_ofNat (by decide) h.port
  have hheartbeat : Formed double (.ofNat b.heartbeatSecs) := formed_ofNat (by decide) h.heartbeat
  simp [toValue, formed_record_iff, Secret.toValue, hport, hheartbeat]

theorem Target.formed_tagged (tag : String) {t : Target} (h : t.Sized) :
    Formed double (t.tagged tag) := by
  cases t with
  | localBroker t =>
      simp [tagged, formed_record_iff, tagKey, fields, BrokerTarget.toFields,
        BrokerAddress.formed_toValue h]
  | cloudQueue t =>
      simp [tagged, formed_record_iff, tagKey, fields, CloudTarget.toFields, Secret.toValue]
  | managedBus t =>
      simp [tagged, formed_record_iff, tagKey, fields, BusTarget.toFields, Secret.toValue]

theorem BackoffSettings.formed_toValue {s : BackoffSettings} (h : s.Sized)
    (hm : ∀ x, s.multiplier = some x → double x) : Formed double s.toValue := by
  have hretry : Formed double (.ofOption .ofNat s.retryDelayMs) :=
    formed_ofOption fun n hn => formed_ofNat (by decide) (h.retry n hn)
  have hmultiplier : Formed double (.ofOption .float s.multiplier) := formed_ofOption hm
  have hlongest : Formed double (.ofOption .ofNat s.maxDelaySecs) :=
    formed_ofOption fun n hn => formed_ofNat (by decide) (h.longest n hn)
  simp [toValue, formed_record_iff, hretry, hmultiplier, hlongest]

theorem Identity.formed_toValue (i : Identity) : Formed double i.toValue := by
  simp [toValue, formed_record_iff]

theorem Topology.formed_toValue (t : Topology) : Formed double t.toValue := by
  simp [toValue, formed_record_iff, ExchangeKind.toValue, formed_texts]

/-! ### The whole -/

/-- A record with the value of one field changed. -/
def Value.changeField (name : String) (f : Value → Value) : Value → Value
  | .record fields => .record (fields.map fun e => if e.1 = name then (e.1, f e.2) else e)
  | v => v

namespace Config

/-- The form of a configuration with the tag of its target replaced. -/
def retagged (tag : String) (c : Config) : Value :=
  c.toValue.changeField "destination" (·.changeField Target.tagKey fun _ => .text tag)

/-- The whole numbers of a configuration have the sizes it gives them. -/
structure Sized (c : Config) : Prop where
  source : c.source.Sized
  destination : c.destination.Sized
  reconnect : c.reconnect.Sized

/-- No field of a target has the name of the tag. -/
theorem changeField_tagged (tag tag' : String) (t : Target) :
    (t.tagged tag).changeField Target.tagKey (fun _ => .text tag') = t.tagged tag' := by
  cases t <;> simp [Target.tagged, Value.changeField, Target.fields, BrokerTarget.toFields,
    CloudTarget.toFields, BusTarget.toFields, Target.tagKey]

theorem retagged_eq (tag : String) (c : Config) : c.retagged tag =
    .record [("relay", c.relay.toValue), ("source", c.source.toValue),
      ("topology", c.topology.toValue), ("destination", c.destination.tagged tag),
      ("reconnect", c.reconnect.toValue)] := by
  have hd := changeField_tagged c.destination.kind tag c.destination
  rw [retagged, toValue, Target.toValue_eq_tagged]
  simpa [Value.changeField] using hd

theorem retagged_kind (c : Config) : c.retagged c.destination.kind = c.toValue := by
  rw [retagged_eq, toValue, Target.toValue_eq_tagged]

theorem formed_retagged (tag : String) {c : Config}
    (h : c.Sized)
    (hm : ∀ x, c.reconnect.multiplier = some x → double x) :
    Formed double (c.retagged tag) := by
  rw [retagged_eq]
  simp [formed_record_iff, Identity.formed_toValue,
    BrokerAddress.formed_toValue h.source, Topology.formed_toValue,
    Target.formed_tagged tag h.destination, BackoffSettings.formed_toValue h.reconnect hm]

theorem ofValue?_retagged {r : Reading} (hr : r.Faithful) {c : Config} {tag : String}
    (h : c.Sized) (ht : tag = c.destination.kind ∨ tag = c.destination.secondName) :
    ofValue? r (c.retagged tag) = some c := by
  rw [retagged_eq]
  simp [ofValue?, Fields.ofValue?, Fields.required, Fields.withDefault,
    Identity.ofValue?_toValue hr, BrokerAddress.ofValue?_toValue hr h.source,
    Topology.ofValue?_toValue hr, Target.ofValue?_tagged h.destination ht,
    BackoffSettings.ofValue?_toValue hr h.reconnect]

/-- The tag under which a configuration's target is written. -/
def tag? (v : Value) : Option Value := (v.field? "destination").bind (·.field? Target.tagKey)

theorem tag?_retagged (tag : String) (c : Config) : tag? (c.retagged tag) = some (.text tag) := by
  rw [retagged_eq]
  simp [tag?, Value.field?, Target.tagged]

/-! ### Documents -/

variable {δ : Type}

/-- The document of a configuration. -/
def toDocument (J : Codec δ) (c : Config) : δ := J.print c.toValue

/-- The configuration that a document holds. -/
def ofDocument? (J : Codec δ) (document : δ) : Option Config :=
  (J.parse? document).bind (ofValue? .exact)

/-- The form of a configuration, and the form with the second name of its target's kind. -/
def forms (c : Config) : List Value := [c.toValue, c.retagged c.destination.secondName]

theorem formed_of_mem_forms {c : Config}
    (h : c.Sized)
    (hm : ∀ x, c.reconnect.multiplier = some x → double x) {v : Value}
    (hv : v ∈ c.forms) : Formed double v := by
  obtain rfl | rfl : v = c.toValue ∨ v = c.retagged c.destination.secondName := by
    simpa [forms] using hv
  · rw [← retagged_kind]
    exact formed_retagged _ h hm
  · exact formed_retagged _ h hm

theorem ofValue?_of_mem_forms {r : Reading} (hr : r.Faithful) {c : Config} (h : c.Sized)
    {v : Value} (hv : v ∈ c.forms) : ofValue? r v = some c := by
  obtain rfl | rfl : v = c.toValue ∨ v = c.retagged c.destination.secondName := by
    simpa [forms] using hv
  · rw [← retagged_kind]
    exact ofValue?_retagged hr h (.inl rfl)
  · exact ofValue?_retagged hr h (.inr rfl)

/-- **A configuration survives its document.**  What is written is read back as it was, also
when the target is named by its second name; and what was read from there is written with the
first name again.  Of the codec it is asked that it keeps the two forms, which JSON can express
because the multiplier is finite. -/
theorem read_back (J : Codec δ) (c : Config) (h : c.Sized)
    (hm : ∀ x, c.reconnect.multiplier = some x → x.isFinite = true)
    (hJ : ∀ v ∈ c.forms, Expressible v → J.Keeps v) :
    ofDocument? J (c.toDocument J) = some c ∧
    ofDocument? J (J.print (c.retagged c.destination.secondName)) = some c ∧
    ∃ d, ofDocument? J (J.print (c.retagged c.destination.secondName)) = some d ∧
      (J.parse? (d.toDocument J)).bind tag? = some (.text c.destination.kind) := by
  have hread : ∀ v ∈ c.forms, ofDocument? J (J.print v) = some c := by
    intro v hv
    have hkeeps : J.parse? (J.print v) = some v := hJ v hv (formed_of_mem_forms h hm hv)
    rw [ofDocument?, hkeeps]
    exact ofValue?_of_mem_forms Reading.exact_faithful h hv
  have hfirst := hread _ List.mem_cons_self
  have hsecond := hread _ (List.mem_cons_of_mem _ List.mem_cons_self)
  refine ⟨hfirst, hsecond, c, hsecond, ?_⟩
  have hkeeps : J.parse? (c.toDocument J) = some c.toValue :=
    hJ _ List.mem_cons_self (formed_of_mem_forms h hm List.mem_cons_self)
  rw [hkeeps, ← retagged_kind]
  exact tag?_retagged _ c

/-- A relay to another broker. -/
def bridge (multiplier : Option Float) : Config where
  destination := .localBroker { broker := .standard, queue := some "uploads" }
  reconnect := { retryDelayMs := none, multiplier, maxDelaySecs := some 60 }

theorem read_back_bridge :
    ((bridge (some 31.245270191439438)).Sized ∧
      (∀ x, (bridge (some 31.245270191439438)).reconnect.multiplier = some x → x.isFinite = true) ∧
      (∀ v ∈ (bridge (some 31.245270191439438)).forms, Expressible v → trees.Keeps v) ∧
      ofDocument? trees (trees.print ((bridge (some 31.245270191439438)).retagged "rabbitmq")) =
        some (bridge (some 31.245270191439438))) ∧
    (∀ v ∈ (bridge none).forms, Expressible v → texts.Keeps v) ∧
    ofDocument? texts (texts.print ((bridge none).retagged "rabbitmq")) = some (bridge none) := by
  have hs : ∀ multiplier, (bridge multiplier).Sized := fun multiplier =>
    { source := ⟨of_decide_eq_true rfl, of_decide_eq_true rfl⟩
      destination := ⟨by decide, by decide⟩
      reconnect := ⟨nofun, fun n hn => by cases hn; decide⟩ }
  have hm : ∀ x, (bridge (some 31.245270191439438)).reconnect.multiplier = some x →
      x.isFinite = true := by
    intro x hx
    cases hx
    decide +kernel
  have hnone : ∀ (double : Float → Prop) x,
      (bridge none).reconnect.multiplier = some x → double x := by
    intro double x hx
    cases hx
  have htrees : ∀ v ∈ (bridge (some 31.245270191439438)).forms, Expressible v → trees.Keeps v :=
    fun v _ => trees_keeps
  have htexts : ∀ v ∈ (bridge none).forms, Expressible v → texts.Keeps v := fun v hv h =>
    texts_keeps h (formed_of_mem_forms (hs none) (hnone _) hv)
  exact ⟨⟨hs _, hm, htrees, (read_back trees _ (hs _) hm htrees).2.1⟩, htexts,
    (read_back texts _ (hs none) (hnone _) htexts).2.1⟩

end Config

end QueueRelay

/-
What a target is made into.

The field with the name of a place is looked at twice.  Validation asks that it is not blank, and
the place that is taken from it, that it is not empty.  A text that is not blank is not empty,
so what passes the first check passes the second (`hasPlace_of_validate`).  After a validation
only one thing can still fail, and that is reading the connection string of a bus.

Both look at the field of the mode that is selected, and at nothing that belongs to the other
mode.  So a target makes the same sink whatever the field of the other mode holds
(`sinkFor_withOther`).
-/
import Mathlib.Control.Monad.Basic
import QueueRelay.Sink.Build

namespace QueueRelay

theorem bind_eq_ok_iff {α β : Type} {x : Except LinkError α} {f : α → Except LinkError β} {b : β} :
    x >>= f = .ok b ↔ ∃ a, x = .ok a ∧ f a = .ok b := by
  cases x <;> simp [bind, Except.bind]

/-- Whether the link of a sink is live. -/
def LinkedSink.isConnected {σ : Type} {C : Interface} :
    LinkedSink σ → Program (Link.calls C σ) Bool
  | broker s => Sink.isConnected s
  | cloud s => Sink.isConnected s
  | bus s => Sink.isConnected s

namespace Target

variable {σ : Type} {t : Target} {name : String}

/-! ### The field that the mode selects -/

/-- The value of the field that the mode selects. -/
def selected? : Target → Option String
  | localBroker t => if t.useQueue then t.queue else some t.exchange
  | cloudQueue t => if t.useQueue then t.queueUrl else t.topicArn
  | managedBus t => if t.useQueue then t.queueName else t.topicName

/-- The target with a value in the field of the mode that is not selected. -/
def withOther (value : Option String) : Target → Target
  | localBroker t => localBroker <|
    if t.useQueue then { t with exchange := value.getD "" } else { t with queue := value }
  | cloudQueue t => cloudQueue <|
    if t.useQueue then { t with topicArn := value } else { t with queueUrl := value }
  | managedBus t => managedBus <|
    if t.useQueue then { t with topicName := value } else { t with queueName := value }

theorem require_eq_ok_iff {field : String} {value : Option String} :
    require field value = .ok () ↔ ∃ v, value = some v ∧ Text.allBlank v = false := by
  cases value with
  | none => simp [require]
  | some v => cases hv : Text.allBlank v <;> simp [require, hv]

theorem ne_empty_of_not_blank {v : String} (h : Text.allBlank v = false) : v ≠ "" := by
  rintro rfl
  cases h

/-- Of two fields the one that the mode selects is required. -/
theorem required_of_mode {mode : Bool} {field field' : String} {value value' : Option String}
    (h : (if mode then require field value else require field' value') = .ok ()) :
    ∃ v, (if mode then value else value') = some v ∧ v ≠ "" := by
  have hrequired : ∃ v, (if mode then value else value') = some v ∧ Text.allBlank v = false := by
    cases mode <;> exact require_eq_ok_iff.1 h
  obtain ⟨v, hv, hblank⟩ := hrequired
  exact ⟨v, hv, ne_empty_of_not_blank hblank⟩

theorem selected_of_validate (h : t.validate = .ok ()) : ∃ v, t.selected? = some v ∧ v ≠ "" := by
  cases t with
  | localBroker t =>
      obtain ⟨-, -, h⟩ := bind_eq_ok_iff.1 h
      exact required_of_mode h
  | cloudQueue t =>
      simp only [validate, bind_eq_ok_iff] at h
      obtain ⟨-, -, -, -, -, -, h⟩ := h
      exact required_of_mode h
  | managedBus t =>
      obtain ⟨-, -, h⟩ := bind_eq_ok_iff.1 h
      exact required_of_mode h

/-! ### The place that the mode selects -/

/-- The place of a broker that a value of the selected field names. -/
def brokerPlace (t : BrokerTarget) (v : String) : BrokerPlace :=
  if t.useQueue then .queue v else .exchange v t.routingKey

/-- The place of a service that a value of the selected field names. -/
def servicePlace (useQueue : Bool) (v : String) : Place :=
  if useQueue then .queue v else .topic v

theorem given?_some {v : String} (hv : v ≠ "") : Place.given? (some v) = some v :=
  if_neg fun h => hv (String.isEmpty_iff.1 h)

theorem ofTarget_of_selected {t : BrokerTarget} {v : String}
    (h : (localBroker t).selected? = some v) (hv : v ≠ "") :
    BrokerPlace.ofTarget t = .ok (brokerPlace t v) := by
  unfold BrokerPlace.ofTarget brokerPlace
  simp only [selected?] at h
  split at h
  · next hq => simp only [hq, if_true, h, given?_some hv]
  · next hq =>
      cases h
      have hne : t.exchange.isEmpty = false := by simpa using hv
      simp only [hq, hne, Bool.false_eq_true, if_false]

/-- The cloud and the bus take their places from two fields in the same way. -/
theorem servicePlace_of_given {useQueue : Bool} {queue topic : Option String} {e e' : LinkError}
    {v : String} (h : (if useQueue then queue else topic) = some v) (hv : v ≠ "") :
    (if useQueue then
      match Place.given? queue with
      | some name => .ok (.queue name)
      | none => .error e
    else
      match Place.given? topic with
      | some name => .ok (.topic name)
      | none => .error e') = (.ok (servicePlace useQueue v) : Except LinkError Place) := by
  unfold servicePlace
  split at h
  · next hq => simp only [hq, if_true, h, given?_some hv]
  · next hq => simp only [hq, Bool.false_eq_true, if_false, h, given?_some hv]

theorem ofCloudTarget_of_selected {t : CloudTarget} {v : String}
    (h : (cloudQueue t).selected? = some v) (hv : v ≠ "") :
    Place.ofCloudTarget t = .ok (servicePlace t.useQueue v) :=
  servicePlace_of_given h hv

theorem ofBusTarget_of_selected {t : BusTarget} {v : String}
    (h : (managedBus t).selected? = some v) (hv : v ≠ "") :
    Place.ofBusTarget t = .ok (servicePlace t.useQueue v) :=
  servicePlace_of_given h hv

/-- The target has a place to send to. -/
def HasPlace : Target → Prop
  | localBroker t => ∃ place, BrokerPlace.ofTarget t = .ok place
  | cloudQueue t => ∃ place, Place.ofCloudTarget t = .ok place
  | managedBus t => ∃ place, Place.ofBusTarget t = .ok place

theorem hasPlace_of_validate (h : t.validate = .ok ()) : t.HasPlace := by
  obtain ⟨v, hv, hne⟩ := selected_of_validate h
  cases t with
  | localBroker t => exact ⟨_, ofTarget_of_selected hv hne⟩
  | cloudQueue t => exact ⟨_, ofCloudTarget_of_selected hv hne⟩
  | managedBus t => exact ⟨_, ofBusTarget_of_selected hv hne⟩

/-! ### The sink -/

/-- What a target is made into once a value of its selected field passed both checks. -/
def sinkTo (name v : String) : Target → Except LinkError (LinkedSink σ)
  | localBroker t => .ok (.broker (BrokerSink.ofPlace name t.broker.endpoint (brokerPlace t v)))
  | cloudQueue t =>
    .ok (.cloud (CloudSink.ofRoute name t.endpoint ⟨servicePlace t.useQueue v, t.origin⟩))
  | managedBus t => (Bus.Credentials.parse t.connectionString.value).map fun credentials =>
    .bus (BusSink.ofPlace name (credentials.endpoint v) (servicePlace t.useQueue v))

theorem sinkTo_bus {t : BusTarget} {v : String} {s : LinkedSink σ} :
    (managedBus t).sinkTo name v = .ok s ↔
      ∃ c, Bus.Credentials.parse t.connectionString.value = .ok c ∧
        s = .bus (BusSink.ofPlace name (c.endpoint v) (servicePlace t.useQueue v)) := by
  simp only [sinkTo]
  cases Bus.Credentials.parse t.connectionString.value with
  | error e => exact iff_of_false nofun nofun
  | ok c => simp [Except.map, eq_comm]

/-- Only the connection string of a bus can still keep a sink from being made. -/
theorem exists_sinkTo_iff {v : String} : (∃ s : LinkedSink σ, t.sinkTo name v = .ok s) ↔
    ∀ b, t = managedBus b → ∃ c, Bus.Credentials.parse b.connectionString.value = .ok c := by
  cases t with
  | localBroker t => exact iff_of_true ⟨_, rfl⟩ nofun
  | cloudQueue t => exact iff_of_true ⟨_, rfl⟩ nofun
  | managedBus t =>
      simp only [sinkTo_bus, managedBus.injEq, forall_eq']
      exact ⟨fun ⟨_, c, hc, _⟩ => ⟨c, hc⟩, fun ⟨c, hc⟩ => ⟨_, c, hc, rfl⟩⟩

theorem sinkFor_of_validate {v : String} (h : t.validate = .ok ()) (hv : t.selected? = some v)
    (hne : v ≠ "") :
    t.sinkFor name = (t.sinkTo (name ++ "-" ++ t.kind) v : Except LinkError (LinkedSink σ)) := by
  unfold sinkFor
  rw [h]
  cases t with
  | localBroker t =>
      have hplace := ofTarget_of_selected hv hne
      simp only [bind, Except.bind, BrokerSink.ofTarget, hplace]
      rfl
  | cloudQueue t =>
      have hplace := ofCloudTarget_of_selected hv hne
      simp only [bind, Except.bind, CloudSink.ofTarget, hplace]
      rfl
  | managedBus t =>
      have hplace := ofBusTarget_of_selected hv hne
      have hname : (servicePlace t.useQueue v).name = v := by
        unfold servicePlace
        split <;> rfl
      simp only [bind, Except.bind, BusSink.ofTarget, hplace]
      cases hc : Bus.Credentials.parse t.connectionString.value with
      | error e => simp only [sinkTo, hc]; rfl
      | ok c => simp only [sinkTo, hc, hname]; rfl

/-! ### The field of the other mode -/

theorem kind_withOther (value : Option String) (t : Target) :
    (t.withOther value).kind = t.kind := by
  cases t <;> rfl

theorem selected?_withOther (value : Option String) (t : Target) :
    (t.withOther value).selected? = t.selected? := by
  cases t <;> simp only [withOther] <;> split <;> simp_all [selected?]

theorem validate_withOther (value : Option String) (t : Target) :
    (t.withOther value).validate = t.validate := by
  cases t <;> simp only [withOther] <;> split <;> simp_all [validate]

theorem sinkTo_withOther (value : Option String) (name v : String) (t : Target) :
    ((t.withOther value).sinkTo name v : Except LinkError (LinkedSink σ)) = t.sinkTo name v := by
  cases t <;> simp only [withOther] <;> split <;>
    simp_all [sinkTo, brokerPlace, CloudTarget.endpoint]

theorem sinkFor_of_invalid {e : LinkError} (h : t.validate = .error e) (name : String) :
    (t.sinkFor name : Except LinkError (LinkedSink σ)) = .error e := by
  unfold sinkFor
  rw [h]
  rfl

theorem sinkFor_withOther (value : Option String) (name : String) (t : Target) :
    ((t.withOther value).sinkFor name : Except LinkError (LinkedSink σ)) = t.sinkFor name := by
  have hvalidate := validate_withOther value t
  cases hv : t.validate with
  | error e => rw [sinkFor_of_invalid hv, sinkFor_of_invalid (hvalidate.trans hv)]
  | ok _ =>
      obtain ⟨v, hsel, hne⟩ := selected_of_validate hv
      rw [sinkFor_of_validate hv hsel hne,
        sinkFor_of_validate (hvalidate.trans hv) ((selected?_withOther value t).trans hsel) hne,
        sinkTo_withOther, kind_withOther]

/-! ### The sink that is made -/

/-- The sink sends to the place that the value of the selected field names. -/
inductive SendsTo (v : String) : Target → LinkedSink σ → Prop
  | broker {t : BrokerTarget} {s : BrokerSink σ} (h : s.place = brokerPlace t v) :
      SendsTo v (localBroker t) (.broker s)
  | cloud {t : CloudTarget} {s : CloudSink σ}
      (h : s.place = ⟨servicePlace t.useQueue v, t.origin⟩) : SendsTo v (cloudQueue t) (.cloud s)
  | bus {t : BusTarget} {s : BusSink σ} (h : s.place = servicePlace t.useQueue v) :
      SendsTo v (managedBus t) (.bus s)

/-- The place that the value of the selected field names, in words. -/
def inWords (v : String) : Target → String
  | localBroker t =>
    t.broker.endpoint ++ (if t.useQueue then " queue '" else " exchange '") ++ v ++ "'"
  | cloudQueue t => (if t.useQueue then "queue " else "topic ") ++ v
  | managedBus t => v ++ if t.useQueue then " (queue)" else " (topic)"

/-- The sink was made for the target, and nothing was done with it. -/
structure Made (name : String) (t : Target) (s : LinkedSink σ) : Prop where
  name : s.status.name = name ++ "-" ++ t.kind
  phase : s.status.phase = .disconnected
  /-- The sink is not connected, which it says without a call. -/
  apart : ∀ C : Interface, (s.isConnected : Program (Link.calls C σ) Bool) = pure false
  /-- The sink sends to the value of the selected field as it is, and says so. -/
  destination : ∃ v, t.selected? = some v ∧ SendsTo v t s ∧ s.destination = t.inWords v

theorem made_of_sinkTo {v : String} {s : LinkedSink σ} (hv : t.selected? = some v)
    (h : t.sinkTo (name ++ "-" ++ t.kind) v = .ok s) : Made name t s := by
  cases t with
  | localBroker t =>
      cases h
      refine ⟨rfl, rfl, fun C => rfl, v, hv, .broker rfl, ?_⟩
      simp only [LinkedSink.destination, BrokerSink.destination, BrokerSink.ofPlace, brokerPlace,
        inWords]
      split <;> rfl
  | cloudQueue t =>
      cases h
      refine ⟨rfl, rfl, fun C => rfl, v, hv, .cloud rfl, ?_⟩
      simp only [LinkedSink.destination, CloudSink.destination, CloudSink.ofRoute, servicePlace,
        inWords]
      split <;> rfl
  | managedBus t =>
      obtain ⟨c, -, rfl⟩ := sinkTo_bus.1 h
      refine ⟨rfl, rfl, fun C => rfl, v, hv, .bus rfl, ?_⟩
      simp only [LinkedSink.destination, BusSink.destination, BusSink.ofPlace, servicePlace,
        inWords]
      split <;> rfl

theorem sinkTo_of_sinkFor {s : LinkedSink σ} (h : t.sinkFor name = .ok s) :
    ∃ v, t.selected? = some v ∧ t.sinkTo (name ++ "-" ++ t.kind) v = .ok s := by
  cases hv : t.validate with
  | error e =>
      rw [sinkFor_of_invalid hv] at h
      cases h
  | ok _ =>
      obtain ⟨v, hsel, hne⟩ := selected_of_validate hv
      exact ⟨v, hsel, (sinkFor_of_validate hv hsel hne).symm.trans h⟩

/-- **What a target is made into.**  A sink is made just when the target is valid and, for a bus,
its connection string can be read: a valid target is never without a place.  The sink carries
the name and the kind, is not connected, and sends to the value of the field that the mode
selects, as it is.  What the field of the other mode holds makes no difference. -/
theorem sink_made (name : String) (t : Target) :
    ((∃ s : LinkedSink σ, t.sinkFor name = .ok s) ↔ t.validate = .ok () ∧
      ∀ b, t = managedBus b → ∃ c, Bus.Credentials.parse b.connectionString.value = .ok c) ∧
    (t.validate = .ok () → t.HasPlace) ∧
    (∀ s : LinkedSink σ, t.sinkFor name = .ok s → Made name t s) ∧
    ∀ value, ((t.withOther value).sinkFor name : Except LinkError (LinkedSink σ)) =
      t.sinkFor name := by
  refine ⟨?_, hasPlace_of_validate, fun s hs => ?_, fun value => sinkFor_withOther value name t⟩
  · cases hv : t.validate with
    | error e =>
        rw [sinkFor_of_invalid hv]
        exact iff_of_false nofun nofun
    | ok _ =>
        obtain ⟨v, hsel, hne⟩ := selected_of_validate hv
        rw [sinkFor_of_validate hv hsel hne, exists_sinkTo_iff]
        exact ⟨fun haccess => ⟨rfl, haccess⟩, And.right⟩
  · obtain ⟨v, hv, hto⟩ := sinkTo_of_sinkFor hs
    exact made_of_sinkTo hv hto

/-- A name with blanks around it is taken as it is.  One of blanks only would make a place, but is
not valid. -/
theorem sink_made_blanks :
    let text := "Endpoint=sb://h;SharedAccessKeyName=n;SharedAccessKey=k"
    let t := managedBus { connectionString := ⟨text⟩, queueName := some " jobs " }
    let blank := managedBus { connectionString := ⟨text⟩, queueName := some " " }
    t.validate = .ok () ∧ t.HasPlace ∧
      (∃ s : LinkedSink Nat, t.sinkFor "relay" = .ok s ∧ Made "relay" t s ∧
        (t.withOther (some "news")).sinkFor "relay" = .ok s) ∧
      blank.HasPlace ∧ ¬ ∃ s : LinkedSink Nat, blank.sinkFor "relay" = .ok s := by
  intro text t blank
  have hvalid : t.validate = .ok () := by decide +kernel
  have hinvalid : blank.validate ≠ .ok () := by decide +kernel
  have haccess : ∃ c, Bus.Credentials.parse text = .ok c := ⟨⟨"h", "n", "k"⟩, by decide +kernel⟩
  obtain ⟨hmade, hplace, hnew, hother⟩ := sink_made (σ := Nat) "relay" t
  obtain ⟨s, hs⟩ := hmade.2 ⟨hvalid, fun b hb => managedBus.inj hb ▸ haccess⟩
  exact ⟨hvalid, hplace hvalid, ⟨s, hs, hnew s hs, (hother (some "news")).trans hs⟩,
    ⟨.queue " ", rfl⟩, fun hblank => hinvalid ((sink_made "relay" blank).1.1 hblank).1⟩

end Target

end QueueRelay

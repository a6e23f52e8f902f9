/-
How a relay starts.

Before it consumes, a relay connects to its source, makes sure of the topology if it has
one, establishes the backend and subscribes.  `Starts` and `Begins` spell out the exchanges
of this, and what comes of them: each part is begun only when all before it succeeded, and
the first that fails decides the error with which the relay is refused.

None of this waits for anything the relay could be called away from.  So a relay that was
told to stop before it had started still starts.
-/
import QueueRelay.Proofs.Program.Yielding
import QueueRelay.Relay.Run

namespace QueueRelay.Relay

open Program

variable {σ δ α : Type} {c : Settings} {l l' : Link σ} {s : σ}

/-! ### The parts -/

/-- An exchange on the link to the source as one of the relay. -/
def atSource (e : (BrokerLink σ δ).Exchange) : (calls σ δ).Exchange :=
  ⟨.source e.call, e.answer⟩

/-- An exchange with a session as one on the link it belongs to. -/
def atSession (s : σ) (e : (Channel.calls δ).Exchange) : (BrokerLink σ δ).Exchange :=
  ⟨.ask s e.call, e.answer⟩

/-- The session in use is closed, if there is one that reports itself open. -/
inductive Discards : List (BrokerLink σ δ).Exchange → Prop
  | nothing : Discards []
  | lapsed (s : σ) : Discards [⟨.isOpen s, false⟩]
  | closed (s : σ) (r : Except LinkError Unit) : Discards [⟨.isOpen s, true⟩, ⟨.close s, r⟩]

/-- A session is opened in place of the one in use. -/
inductive Opens : List (BrokerLink σ δ).Exchange → Except LinkError σ → Prop
  | mk {u : List (BrokerLink σ δ).Exchange} (h : Discards u) (a : Except LinkError σ) :
      Opens (u ++ [⟨.connect, a⟩]) a

/-- The session in use is found to be open, or another one is opened. -/
inductive Joins : List (BrokerLink σ δ).Exchange → Except LinkError σ → Prop
  | found (s : σ) : Joins [⟨.isOpen s, true⟩] (.ok s)
  | opened {u : List (BrokerLink σ δ).Exchange} {a : Except LinkError σ} (h : Opens u a) :
      Joins u a
  | renewed (s : σ) {u : List (BrokerLink σ δ).Exchange} {a : Except LinkError σ}
      (h : Opens u a) : Joins (⟨.isOpen s, false⟩ :: u) a

/-- An attempt to subscribe: there is a session, it is limited, and a consumer is started on
it. -/
inductive Attempts (c : Settings) : List (BrokerLink σ δ).Exchange → Except LinkError δ → Prop
  | unjoined {u : List (BrokerLink σ δ).Exchange} {e : LinkError} (h : Joins u (.error e)) :
      Attempts c u (.error e)
  | unlimited {u : List (BrokerLink σ δ).Exchange} {s : σ} (h : Joins u (.ok s))
      (e : LinkError) : Attempts c (u ++ [⟨.ask s (.setPrefetch prefetch), .error e⟩]) (.error e)
  | asked {u : List (BrokerLink σ δ).Exchange} {s : σ} (h : Joins u (.ok s))
      (a : Except LinkError δ) :
      Attempts c (u ++ [⟨.ask s (.setPrefetch prefetch), .ok ()⟩,
        ⟨.ask s (.consume c.queue c.consumerTag), a⟩]) a

/-- The topology is made sure of on a session, if there is one. -/
inductive Provisions (c : Settings) (s : σ) :
    List (BrokerLink σ δ).Exchange → Except RelayError Unit → Prop
  | unset (h : c.topology = none) : Provisions c s [] (.ok ())
  | ensured {t : Topology} (h : c.topology = some t) {u : List (Channel.calls δ).Exchange}
      {r : Topology.Report} (hu : t.ensure.Yields u (.ok r)) :
      Provisions c s (u.map (atSession s)) (.ok ())
  | failed {t : Topology} (h : c.topology = some t) {u : List (Channel.calls δ).Exchange}
      {object : String} {cause : LinkError}
      (hu : t.ensure.Yields u (.error (.provisioning object cause))) :
      Provisions c s (u.map (atSession s)) (.error (.provisioning object cause))

/-- The source is connected, provisioned, and the backend established, as far as nothing of
it fails. -/
inductive Starts (c : Settings) : List (calls σ δ).Exchange → Except RelayError Unit → Prop
  | unconnected {o : List (BrokerLink σ δ).Exchange} {e : LinkError} (ho : Opens o (.error e)) :
      Starts c (o.map atSource) (.error (.connection e))
  | unprovisioned {o p : List (BrokerLink σ δ).Exchange} {s : σ} {e : RelayError}
      (ho : Opens o (.ok s)) (hp : Provisions c s p (.error e)) :
      Starts c (o.map atSource ++ p.map atSource) (.error e)
  | unestablished {o p : List (BrokerLink σ δ).Exchange} {s : σ} (ho : Opens o (.ok s))
      (hp : Provisions c s p (.ok ())) (e : LinkError) :
      Starts c (o.map atSource ++ p.map atSource ++ [⟨.establish, .error e⟩])
        (.error (.backend e))
  | started {o p : List (BrokerLink σ δ).Exchange} {s : σ} (ho : Opens o (.ok s))
      (hp : Provisions c s p (.ok ())) :
      Starts c (o.map atSource ++ p.map atSource ++ [⟨.establish, .ok ()⟩]) (.ok ())

/-- A relay that has started makes its first attempt to subscribe. -/
inductive Begins (c : Settings) : List (calls σ δ).Exchange → Except RelayError Unit → Prop
  | unstarted {t : List (calls σ δ).Exchange} {e : RelayError} (h : Starts c t (.error e)) :
      Begins c t (.error e)
  | unsubscribed {t : List (calls σ δ).Exchange} {u : List (BrokerLink σ δ).Exchange}
      {e : LinkError} (h : Starts c t (.ok ())) (hu : Attempts c u (.error e)) :
      Begins c (t ++ u.map atSource) (.error (.connection e))
  | subscribed {t : List (calls σ δ).Exchange} {u : List (BrokerLink σ δ).Exchange} {d : δ}
      (h : Starts c t (.ok ())) (hu : Attempts c u (.ok d)) :
      Begins c (t ++ u.map atSource) (.ok ())

/-! ### Programs over smaller interfaces -/

theorem yields_onSource {p : Program (BrokerLink σ δ) α} {t : List (calls σ δ).Exchange} {a : α}
    (h : (onSource p).Yields t a) : ∃ u, t = u.map atSource ∧ p.Yields u a :=
  h.of_through fun _ _ _ => yields_perform.1

theorem yields_onSession {p : Program (Channel.calls δ) α} {t : List (BrokerLink σ δ).Exchange}
    {a : α} (h : (onSession s p).Yields t a) :
    ∃ u, t = u.map (atSession s) ∧ p.Yields u a :=
  h.of_through fun _ _ _ => yields_perform.1

/-! ### The link -/

section Link

variable {t : List (BrokerLink σ δ).Exchange}

theorem discards_of_yields (h : l.discard.Yields t ()) : Discards t := by
  unfold Link.discard at h
  cases hs : l.session with
  | none =>
      rw [hs] at h
      obtain ⟨rfl, -⟩ := yields_pure.1 h
      exact .nothing
  | some s =>
      rw [hs] at h
      obtain ⟨isOpen, rest, rfl, hrest⟩ := h.of_perform_bind
      cases isOpen with
      | false =>
          obtain ⟨rfl, -⟩ := yields_pure.1 hrest
          exact .lapsed s
      | true =>
          obtain ⟨r, rest, rfl, hdone⟩ := hrest.of_perform_bind
          obtain ⟨rfl, -⟩ := yields_pure.1 hdone
          exact .closed s r

/-- The link holds the session that was opened. -/
theorem opens_of_yields {a : Except LinkError σ} (h : l.establish.Yields t (a, l')) :
    Opens t a ∧ ∀ s, a = .ok s → l'.session = some s := by
  obtain ⟨u, v, _, rfl, hu, hrest⟩ := h.of_bind
  obtain ⟨answer, w, rfl, hdone⟩ := hrest.of_perform_bind
  cases answer with
  | error e =>
      obtain ⟨rfl, heq⟩ := yields_pure.1 hdone
      cases heq
      exact ⟨.mk (discards_of_yields hu) _, nofun⟩
  | ok s =>
      obtain ⟨rfl, heq⟩ := yields_pure.1 hdone
      cases heq
      refine ⟨.mk (discards_of_yields hu) _, ?_⟩
      rintro s' ⟨⟩
      rfl

/-- The link holds the session that was found or opened. -/
theorem joins_of_yields {a : Except LinkError σ} (h : l.ensureLive.Yields t (a, l')) :
    Joins t a ∧ ∀ s, a = .ok s → l'.session = some s := by
  unfold Link.ensureLive Link.isLive at h
  split at h
  · cases hs : l.session with
    | none =>
        rw [hs] at h
        obtain ⟨hopens, hheld⟩ := opens_of_yields h
        exact ⟨.opened hopens, hheld⟩
    | some s =>
        rw [hs] at h
        obtain ⟨isOpen, rest, rfl, hrest⟩ := h.of_perform_bind
        cases isOpen with
        | false =>
            obtain ⟨hopens, hheld⟩ := opens_of_yields hrest
            exact ⟨.renewed s hopens, hheld⟩
        | true =>
            obtain ⟨rfl, heq⟩ := yields_pure.1 hrest
            cases heq
            refine ⟨.found s, ?_⟩
            rintro s' ⟨⟩
            exact hs
  · obtain ⟨hopens, hheld⟩ := opens_of_yields h
    exact ⟨.opened hopens, hheld⟩

/-- After an attempt to subscribe that succeeded the link holds a session. -/
theorem attempts_of_yields {a : Except LinkError δ} (h : (subscribe c l).Yields t (a, l')) :
    Attempts c t a ∧ ∀ d, a = .ok d → ∃ s, l'.session = some s := by
  obtain ⟨u, t, ⟨joined, l₁⟩, rfl, hu, hrest⟩ := h.of_bind
  obtain ⟨hjoins, hheld⟩ := joins_of_yields hu
  cases joined with
  | error e =>
      obtain ⟨rfl, heq⟩ := yields_pure.1 hrest
      cases heq
      rw [List.append_nil]
      exact ⟨.unjoined hjoins, nofun⟩
  | ok s =>
      have hsome : ∃ s, l₁.session = some s := ⟨s, hheld s rfl⟩
      obtain ⟨v, w, b, rfl, hv, hdone⟩ := hrest.of_bind
      obtain ⟨rfl, heq⟩ := yields_pure.1 hdone
      cases heq
      rw [List.append_nil]
      refine ⟨?_, fun _ _ => hsome⟩
      obtain ⟨answer, x, rfl, hconsume⟩ := hv.of_perform_bind
      cases answer with
      | error e =>
          obtain ⟨rfl, rfl⟩ := yields_pure.1 hconsume
          exact .unlimited hjoins e
      | ok _ =>
          rw [yields_perform.1 hconsume]
          exact .asked hjoins _

end Link

/-! ### Provisioning -/

section Provisioning

variable {t : Topology} {u : List (Channel.calls δ).Exchange} {e : RelayError}

/-- Making an object sure fails with the name of the object. -/
theorem provisioning_of_ensureObject {name : String}
    {declare : Declaration → Program (Channel.calls δ) (Except LinkError Unit)}
    (h : (t.ensureObject name declare).Yields u (.error e)) :
    ∃ cause, e = .provisioning name cause := by
  obtain ⟨_, _, found, rfl, -, hrest⟩ := h.of_bind
  cases found with
  | ok _ => cases (yields_pure.1 hrest).2
  | error cause =>
      dsimp only at hrest
      split at hrest
      · obtain ⟨_, _, reopened, -, -, hdeclare⟩ := hrest.of_bind
        cases reopened with
        | error cause =>
            cases (yields_pure.1 hdeclare).2
            exact ⟨cause, rfl⟩
        | ok _ =>
            obtain ⟨_, _, created, -, -, hdone⟩ := hdeclare.of_bind
            cases created with
            | error cause =>
                cases (yields_pure.1 hdone).2
                exact ⟨cause, rfl⟩
            | ok _ => cases (yields_pure.1 hdone).2
      · cases (yields_pure.1 hrest).2
        exact ⟨cause, rfl⟩

theorem provisioning_of_bindAll {keys : List String}
    (h : (t.bindAll keys).Yields u (.error e)) :
    ∃ object cause, e = .provisioning object cause := by
  induction keys generalizing u with
  | nil => cases (yields_pure.1 h).2
  | cons key keys ih =>
      obtain ⟨_, _, bound, -, -, hrest⟩ := h.of_bind
      cases bound with
      | error cause =>
          cases (yields_pure.1 hrest).2
          exact ⟨_, cause, rfl⟩
      | ok _ => exact ih hrest

/-- Whatever fails of a topology, the error says that it could not be provisioned. -/
theorem provisioning_of_ensure (h : t.ensure.Yields u (.error e)) :
    ∃ object cause, e = .provisioning object cause := by
  obtain ⟨_, _, exchange, -, hexchange, hrest⟩ := h.of_bind
  cases exchange with
  | error e' =>
      cases (yields_pure.1 hrest).2
      exact ⟨_, provisioning_of_ensureObject hexchange⟩
  | ok _ =>
      obtain ⟨_, _, queue, -, hqueue, hrest⟩ := hrest.of_bind
      cases queue with
      | error e' =>
          cases (yields_pure.1 hrest).2
          exact ⟨_, provisioning_of_ensureObject hqueue⟩
      | ok _ =>
          obtain ⟨_, _, bound, -, hbound, hdone⟩ := hrest.of_bind
          cases bound with
          | error e' =>
              cases (yields_pure.1 hdone).2
              exact provisioning_of_bindAll hbound
          | ok _ => cases (yields_pure.1 hdone).2

end Provisioning

theorem provisions_of_yields {t : List (calls σ δ).Exchange} {a : Except RelayError Unit}
    (h : (provision c s).Yields t a) : ∃ u, t = u.map atSource ∧ Provisions c s u a := by
  unfold provision at h
  cases hc : c.topology with
  | none =>
      rw [hc] at h
      obtain ⟨rfl, rfl⟩ := yields_pure.1 h
      exact ⟨[], rfl, .unset hc⟩
  | some topology =>
      rw [hc] at h
      obtain ⟨v, w, r, rfl, hensure, hdone⟩ := h.of_bind
      obtain ⟨rfl, rfl⟩ := yields_pure.1 hdone
      obtain ⟨x, rfl, hx⟩ := yields_onSource hensure
      obtain ⟨u, rfl, hu⟩ := yields_onSession hx
      refine ⟨_, List.append_nil _, ?_⟩
      cases r with
      | ok report => exact .ensured hc hu
      | error e =>
          obtain ⟨object, cause, rfl⟩ := provisioning_of_ensure hu
          exact .failed hc hu

/-! ### The start -/

section Start

variable {r r' : State σ δ} {t : List (calls σ δ).Exchange} {a : Except RelayError Unit}

theorem starts_of_yields (h : (start c r).Yields t (a, r')) : Starts c t a := by
  obtain ⟨t₁, t₂, ⟨opened, l⟩, rfl, hopen, hprovision⟩ := h.of_bind
  obtain ⟨o, rfl, ho⟩ := yields_onSource hopen
  obtain ⟨hopens, -⟩ := opens_of_yields ho
  cases opened with
  | error e =>
      obtain ⟨rfl, heq⟩ := yields_pure.1 hprovision
      cases heq
      rw [List.append_nil]
      exact .unconnected hopens
  | ok s =>
      obtain ⟨t₃, t₄, provided, rfl, hprovided, hestablish⟩ := hprovision.of_bind
      obtain ⟨p, rfl, hp⟩ := provisions_of_yields hprovided
      rw [← List.append_assoc]
      cases provided with
      | error e =>
          obtain ⟨rfl, heq⟩ := yields_pure.1 hestablish
          cases heq
          rw [List.append_nil]
          exact .unprovisioned hopens hp
      | ok _ =>
          obtain ⟨established, t₅, rfl, hdone⟩ := hestablish.of_perform_bind
          cases established with
          | error e =>
              obtain ⟨rfl, heq⟩ := yields_pure.1 hdone
              cases heq
              exact .unestablished hopens hp e
          | ok _ =>
              obtain ⟨rfl, heq⟩ := yields_pure.1 hdone
              cases heq
              exact .started hopens hp

/-- A relay that has begun holds a session. -/
theorem begins_of_yields (h : (begin c r).Yields t (a, r')) :
    Begins c t a ∧ ∀ u, a = .ok u → ∃ s, r'.source.session = some s := by
  obtain ⟨t₁, t₂, ⟨started, r₁⟩, rfl, hstart, hsubscribe⟩ := h.of_bind
  have hstarts := starts_of_yields hstart
  cases started with
  | error e =>
      obtain ⟨rfl, heq⟩ := yields_pure.1 hsubscribe
      cases heq
      rw [List.append_nil]
      exact ⟨.unstarted hstarts, nofun⟩
  | ok _ =>
      obtain ⟨t₃, t₄, ⟨subscribed, l⟩, rfl, hsubscribed, hdone⟩ := hsubscribe.of_bind
      obtain ⟨u, rfl, hu⟩ := yields_onSource hsubscribed
      obtain ⟨hattempts, hheld⟩ := attempts_of_yields hu
      cases subscribed with
      | error e =>
          obtain ⟨rfl, heq⟩ := yields_pure.1 hdone
          cases heq
          rw [List.append_nil]
          exact ⟨.unsubscribed hstarts hattempts, nofun⟩
      | ok d =>
          obtain ⟨rfl, heq⟩ := yields_pure.1 hdone
          cases heq
          rw [List.append_nil]
          exact ⟨.subscribed hstarts hattempts, fun _ _ => hheld d rfl⟩

end Start

end QueueRelay.Relay

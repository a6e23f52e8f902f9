/-
A relay keeps to the steps of its standing.

The program is followed part by part.  Each part gets one lemma, which says where it
begins and where it leaves the relay, by cases on its result; the parts are then put
together along the binds of the program.

Between two rounds the standing and what the relay keeps have to agree: `Fits` says how.
While there is a stream, it is the stream that was opened on the session the link still
holds.  When there is none, the link is not active, so that no call is made on the old
session before it is replaced.  Every branch of a round restores this, which is why a
disposition always finds the session that its message came from.
-/
import QueueRelay.Proofs.Relay.Standing

namespace QueueRelay.Relay

open Program

variable {σ δ α M : Type}

/-! ### Programs over smaller interfaces -/

theorem keeps_onSource {rule : M → (calls σ δ).Exchange → M → Prop} {post : α → M → Prop}
    {p : Program (BrokerLink σ δ) α} {m : M} :
    (onSource p).Keeps rule post m ↔
      p.Keeps (fun m e m' => rule m ⟨.source e.call, e.answer⟩ m') post m :=
  keeps_through fun _ _ _ => keeps_perform

theorem keeps_onSession {rule : M → (BrokerLink σ δ).Exchange → M → Prop}
    {post : α → M → Prop} {s : σ} {p : Program (Channel.calls δ) α} {m : M} :
    (onSession s p).Keeps rule post m ↔
      p.Keeps (fun m e m' => rule m ⟨.ask s e.call, e.answer⟩ m') post m :=
  keeps_through fun _ _ _ => keeps_perform

namespace Standing

/-- The steps on the link to the source. -/
def LinkStep (c : Settings) (x : Standing σ δ) (e : (BrokerLink σ δ).Exchange)
    (y : Standing σ δ) : Prop :=
  Step c x ⟨.source e.call, e.answer⟩ y

/-- A link that holds this session can be established anew. -/
inductive Renewable : Standing σ δ → Option σ → Prop
  | apart : Renewable .apart none
  | attached {x : Standing σ δ} {s : σ} (h : x.Attached s) : Renewable x (some s)

/-- A link that holds this session can be given up. -/
inductive Releasable : Standing σ δ → Option σ → Prop
  | apart : Releasable .apart none
  | held {x : Standing σ δ} {s : σ} (h : x.Closable s) : Releasable x (some s)

theorem Releasable.resting {x : Standing σ δ} {session : Option σ}
    (h : x.Releasable session) : x.Resting := by
  cases h with
  | apart => exact .apart
  | held h => cases h <;> constructor

/-- What a session that was just had leaves of the link and of the standing. -/
inductive Had : Except LinkError σ → Link σ → Standing σ δ → Prop
  | ok {s : σ} {l : Link σ} (hs : l.session = some s) (hp : l.phase.isActive = true) :
      Had (.ok s) l (.joined s)
  | error {l : Link σ} (e : LinkError) (hs : l.session = none)
      (hp : l.phase.isActive = false) : Had (.error e) l .apart

/-- A link that can be made live: it is active just if its session is new. -/
inductive Revivable : Standing σ δ → Link σ → Prop
  | joined {s : σ} {l : Link σ} (hs : l.session = some s) (hp : l.phase.isActive = true) :
      Revivable (.joined s) l
  | apart {l : Link σ} (hs : l.session = none) (hp : l.phase.isActive = false) :
      Revivable .apart l
  | spoiled {s : σ} {l : Link σ} (hs : l.session = some s) (hp : l.phase.isActive = false) :
      Revivable (.spoiled s) l

end Standing

open Standing

variable {c : Settings} {s : σ} {x : Standing σ δ}

/-! ### The link -/

/-- What keeps to the steps on the link keeps to the steps of the relay. -/
theorem keeps_link {p : Program (BrokerLink σ δ) α} {post : α → Standing σ δ → Prop}
    (h : p.Keeps (LinkStep c) post x) : (onSource p).Keeps (Step c) post x :=
  keeps_onSource.2 h

theorem step_isOpen_of_attached (h : x.Attached s) :
    ∃ y : Standing σ δ, LinkStep c x ⟨.isOpen s, true⟩ y ∧ y.Closable s := by
  cases h with
  | joined => exact ⟨_, .foundOpen s, .joined s⟩
  | spoiled => exact ⟨_, .foundSpoiled s, .spoiled s⟩
  | lapsed => exact ⟨_, .foundAgain s, .spoiled s⟩

theorem keeps_discard {l : Link σ} (h : x.Renewable l.session) :
    (l.discard).Keeps (LinkStep c) (fun _ y => y.Vacant) x := by
  unfold Link.discard
  cases hs : l.session with
  | none =>
      rw [hs] at h
      cases h
      exact .apart
  | some s =>
      rw [hs] at h
      cases h with
      | attached h =>
          refine keeps_perform_bind ?_
          intro answer
          cases answer with
          | false => exact ⟨.lapsed s, .foundClosed h, .lapsed s⟩
          | true =>
              obtain ⟨y, hstep, hy⟩ := step_isOpen_of_attached (c := c) h
              refine ⟨y, hstep, keeps_perform_bind ?_⟩
              intro r
              exact ⟨.apart, .closed hy r, .apart⟩

/-- The old session is gone before the new one is opened. -/
theorem keeps_establish {l : Link σ} (h : x.Renewable l.session) :
    (l.establish).Keeps (LinkStep c) (fun r y => Had r.1 r.2 y) x := by
  refine (keeps_discard h).bind ?_
  intro _ y hy
  refine keeps_perform_bind ?_
  intro answer
  cases answer with
  | ok s => exact ⟨.joined s, .connected hy s, .ok rfl rfl⟩
  | error e => exact ⟨.apart, .refused hy e, .error e rfl (Phase.isActive_failed _)⟩

/-- A new session is looked at and used, any other is replaced without a look. -/
theorem keeps_ensureLive {l : Link σ} (h : x.Revivable l) :
    (l.ensureLive).Keeps (LinkStep c) (fun r y => Had r.1 r.2 y) x := by
  unfold Link.ensureLive Link.isLive
  cases h with
  | @joined s _ hs hp =>
      rw [if_pos hp, hs]
      refine keeps_perform_bind ?_
      intro answer
      cases answer with
      | true => exact ⟨.joined s, .foundOpen s, .ok hs hp⟩
      | false =>
          refine ⟨.lapsed s, .foundClosed (.joined s), keeps_establish ?_⟩
          rw [hs]
          exact .attached (.lapsed s)
  | apart hs hp =>
      rw [if_neg (by simp [hp])]
      refine keeps_establish ?_
      rw [hs]
      exact .apart
  | @spoiled s _ hs hp =>
      rw [if_neg (by simp [hp])]
      refine keeps_establish ?_
      rw [hs]
      exact .attached (.spoiled s)

/-- Giving a link up leaves it without a session. -/
theorem keeps_release {l : Link σ} (h : x.Releasable l.session) :
    (l.release).Keeps (LinkStep c) (fun l y => y = .apart ∧ l.session = none) x := by
  unfold Link.release
  cases hs : l.session with
  | none =>
      rw [hs] at h
      cases h
      exact ⟨rfl, rfl⟩
  | some s =>
      rw [hs] at h
      cases h with
      | held h =>
          refine keeps_perform_bind ?_
          intro r
          exact ⟨.apart, .closed h r, rfl, rfl⟩

/-! ### Subscribing -/

namespace Standing

/-- What an attempt to subscribe leaves of the link and of the standing. -/
inductive Subscribed : Except LinkError δ → Link σ → Standing σ δ → Prop
  | ok {s : σ} {d : δ} {l : Link σ} (hs : l.session = some s) :
      Subscribed (.ok d) l (.consuming s d)
  | apart {e : LinkError} {l : Link σ} (hs : l.session = none) : Subscribed (.error e) l .apart
  | spoiled {s : σ} {e : LinkError} {l : Link σ} (hs : l.session = some s) :
      Subscribed (.error e) l (.spoiled s)

end Standing

theorem keeps_consumeOn {l : Link σ} (hs : l.session = some s) :
    (consumeOn (δ := δ) c s).Keeps (LinkStep c) (fun r y => Subscribed r l y) (.joined s) := by
  refine keeps_perform_bind ?_
  intro answer
  cases answer with
  | error e => exact ⟨.spoiled s, .unlimited s e, .spoiled hs⟩
  | ok u =>
      refine ⟨.limited s, .limited s u, keeps_perform.2 ?_⟩
      intro answer
      cases answer with
      | error e => exact ⟨.spoiled s, .unsubscribed s e, .spoiled hs⟩
      | ok d => exact ⟨.consuming s d, .subscribed s d, .ok hs⟩

theorem keeps_subscribe {l : Link σ} (h : x.Revivable l) :
    (subscribe c l).Keeps (LinkStep c) (fun r y => Subscribed r.1 r.2 y) x := by
  refine (keeps_ensureLive h).bind ?_
  intro r y hy
  obtain ⟨r, l⟩ := r
  cases hy with
  | error e hs hp => exact .apart hs
  | ok hs hp => exact keeps_bind.2 (keeps_consumeOn hs)

/-! ### Starting and ending -/

theorem only_ensureObject {t : Topology} {name : String}
    {declare : Declaration → Program (Channel.calls δ) (Except LinkError Unit)}
    (h : ∀ how, (declare how).Only Prepares) : (t.ensureObject name declare).Only Prepares := by
  refine (h .passive).bind fun r => ?_
  cases r with
  | ok u => trivial
  | error e =>
      dsimp only
      split
      · refine Only.bind (only_perform trivial) fun r => ?_
        cases r with
        | error e => trivial
        | ok u =>
            refine (h _).bind fun r => ?_
            cases r <;> trivial
      · trivial

theorem only_bindAll (t : Topology) (keys : List String) :
    (t.bindAll (δ := δ) keys).Only Prepares := by
  induction keys with
  | nil => trivial
  | cons key keys ih =>
      refine Only.bind (only_perform trivial) fun r => ?_
      cases r with
      | error e => trivial
      | ok u => exact ih

/-- A topology is made sure of by declarations, bindings and fresh channels alone. -/
theorem only_ensure (t : Topology) : (t.ensure (δ := δ)).Only Prepares := by
  refine (only_ensureObject fun how => only_perform trivial).bind fun r => ?_
  cases r with
  | error e => trivial
  | ok created =>
      refine (only_ensureObject fun how => only_perform trivial).bind fun r => ?_
      cases r with
      | error e => trivial
      | ok created =>
          refine (only_bindAll t _).bind fun r => ?_
          cases r <;> trivial

theorem keeps_provision :
    (provision (δ := δ) c s).Keeps (Step c) (fun _ y => y = .joined s) (.joined s) := by
  unfold provision
  cases c.topology with
  | none => rfl
  | some t =>
      refine keeps_bind.2 (keeps_onSource.2 (keeps_onSession.2 ?_))
      exact (only_ensure t).keeps fun k r hk => .prepared s k hk r

namespace Standing

/-- What the start of a relay leaves of its link and of the standing. -/
inductive Started : Except RelayError Unit → State σ δ → Standing σ δ → Prop
  | ok {s : σ} {r : State σ δ} (hs : r.source.session = some s)
      (hp : r.source.phase.isActive = true) : Started (.ok ()) r (.joined s)
  | error {e : RelayError} {r : State σ δ} {x : Standing σ δ}
      (h : x.Releasable r.source.session) : Started (.error e) r x

/-- What the relay keeps between two rounds agrees with its standing. -/
inductive Fits : Standing σ δ → State σ δ → Prop
  | consuming {s : σ} {d : δ} {r : State σ δ} (hs : r.source.session = some s)
      (ht : r.stream = some d) : Fits (.consuming s d) r
  | apart {r : State σ δ} (hs : r.source.session = none) (ht : r.stream = none)
      (hp : r.source.phase.isActive = false) : Fits .apart r
  | spoiled {s : σ} {r : State σ δ} (hs : r.source.session = some s) (ht : r.stream = none)
      (hp : r.source.phase.isActive = false) : Fits (.spoiled s) r

theorem Fits.resting {x : Standing σ δ} {r : State σ δ} (h : x.Fits r) : x.Resting := by
  cases h <;> constructor

theorem Fits.releasable {x : Standing σ δ} {r : State σ δ} (h : x.Fits r) :
    x.Releasable r.source.session := by
  cases h with
  | @consuming s d _ hs ht =>
      rw [hs]
      exact .held (.consuming s d)
  | apart hs ht hp =>
      rw [hs]
      exact .apart
  | @spoiled s _ hs ht hp =>
      rw [hs]
      exact .held (.spoiled s)

/-- Counters and streaks play no part in it. -/
theorem Fits.congr {x : Standing σ δ} {r r' : State σ δ} (h : x.Fits r)
    (hs : r'.source = r.source) (ht : r'.stream = r.stream) : x.Fits r' := by
  cases h with
  | consuming hs' ht' =>
      rw [← hs] at hs'
      rw [← ht] at ht'
      exact .consuming hs' ht'
  | apart hs' ht' hp =>
      rw [← hs] at hs' hp
      rw [← ht] at ht'
      exact .apart hs' ht' hp
  | spoiled hs' ht' hp =>
      rw [← hs] at hs' hp
      rw [← ht] at ht'
      exact .spoiled hs' ht' hp

end Standing

theorem keeps_start {r : State σ δ} (h : x.Renewable r.source.session) :
    (start c r).Keeps (Step c) (fun a y => Started a.1 a.2 y) x := by
  refine (keeps_link (keeps_establish h)).bind ?_
  intro a y hy
  obtain ⟨a, l⟩ := a
  cases hy with
  | error e hs hp =>
      refine .error ?_
      show Releasable _ l.session
      rw [hs]
      exact .apart
  | @ok s _ hs hp =>
      have hheld : (joined (δ := δ) s).Releasable l.session := by
        rw [hs]
        exact .held (.joined s)
      refine keeps_provision.bind ?_
      intro a y hy
      subst hy
      cases a with
      | error e => exact .error hheld
      | ok u =>
          refine keeps_perform_bind ?_
          intro answer
          refine ⟨.joined s, .established s answer, ?_⟩
          cases answer with
          | error e => exact .error hheld
          | ok u => exact .ok hs hp

/-- A relay that has begun has the stream it asked for; one that has not can be closed. -/
theorem keeps_begin {r : State σ δ} (h : x.Renewable r.source.session) :
    (begin c r).Keeps (Step c) (fun a y => match a.1 with
      | .ok _ => y.Fits a.2
      | .error _ => y.Releasable a.2.source.session) x := by
  refine (keeps_start h).bind ?_
  intro a y hy
  obtain ⟨a, r⟩ := a
  cases hy with
  | error h => exact h
  | @ok s _ hs hp =>
      refine (keeps_link (keeps_subscribe (.joined hs hp))).bind ?_
      intro a y hy
      obtain ⟨a, l⟩ := a
      cases hy with
      | ok hs => exact .consuming hs rfl
      | apart hs =>
          show Releasable _ l.session
          rw [hs]
          exact .apart
      | @spoiled s _ _ hs =>
          show Releasable _ l.session
          rw [hs]
          exact .held (.spoiled s)

theorem keeps_close {r : State σ δ} (h : x.Releasable r.source.session) :
    (close r).Keeps (Step c) (fun r y => y = .apart ∧ r.source.session = none) x := by
  refine keeps_perform_bind ?_
  intro u
  refine ⟨x, .backendClosed h.resting u, ?_⟩
  refine (keeps_link (keeps_release h)).bind ?_
  intro l y hy
  exact hy

/-! ### One message -/

section Message

variable {d : δ} {m : Message} {o : Outcome} {r : State σ δ}

theorem keeps_forward :
    (forward m r).Keeps (Step c) (fun a y => ∃ h, y = .judged s d m h ∧
      a.1.isDelivered = h.isDelivered ∧ a.2.source = r.source ∧ a.2.stream = r.stream)
      (.holding s d m) := by
  refine keeps_perform_bind ?_
  intro h
  refine ⟨.judged s d m h, .handed s d m h, ?_⟩
  cases h with
  | outcome o => exact ⟨_, rfl, rfl, rfl, rfl⟩
  | panicked detail => exact ⟨_, rfl, rfl, rfl, rfl⟩

theorem keeps_settle {h : Handed} (ho : o.isDelivered = h.isDelivered) :
    (settle s m.tag o).Keeps (LinkStep c) (fun r y => match r with
      | .ok _ => y = .consuming s d
      | .error _ => y = .spoiled s) (.judged s d m h) := by
  unfold settle
  cases hd : o.isDelivered with
  | true =>
      rw [hd] at ho
      rw [if_pos rfl]
      refine keeps_perform.2 ?_
      intro answer
      cases answer with
      | ok u => exact ⟨.consuming s d, .acked s d m h ho.symm u, rfl⟩
      | error e => exact ⟨.spoiled s, .notAcked s d m h ho.symm e, rfl⟩
  | false =>
      rw [hd] at ho
      rw [if_neg Bool.false_ne_true]
      refine keeps_perform.2 ?_
      intro answer
      cases answer with
      | ok u => exact ⟨.consuming s d, .nacked s d m h ho.symm u, rfl⟩
      | error e => exact ⟨.spoiled s, .notNacked s d m h ho.symm e, rfl⟩

/-- A message is disposed of on the session it came from. -/
theorem keeps_dispose {h : Handed} (ho : o.isDelivered = h.isDelivered)
    (hs : r.source.session = some s) (ht : r.stream = some d) :
    (dispose m o r).Keeps (Step c) (fun r y => y.Fits r) (.judged s d m h) := by
  unfold dispose
  rw [hs]
  refine (keeps_link (keeps_settle (d := d) ho)).bind ?_
  intro a y hy
  cases a with
  | ok u =>
      subst hy
      show Fits _ (if o.isDelivered then r.acked else r.requeued)
      split <;> exact .consuming hs ht
  | error e =>
      subst hy
      exact .spoiled hs rfl (Phase.isActive_failed _)

/-- What a round leaves of the relay agrees with its standing. -/
def RoundFits : Round σ δ → Standing σ δ → Prop
  | .go r, x | .stop r, x | .overflow r, x => x.Fits r

theorem keeps_recover (h : x.Fits r) :
    (recover c o r).Keeps (Step c) RoundFits x := by
  unfold recover
  split
  · dsimp only
    split
    · exact h.congr rfl rfl
    · refine keeps_perform_bind ?_
      intro p
      refine ⟨x, .rested h.resting _ p, ?_⟩
      cases p with
      | stop => exact h.congr rfl rfl
      | elapsed => exact h.congr rfl rfl
  · exact h.congr rfl rfl

theorem keeps_handle (hs : r.source.session = some s) (ht : r.stream = some d) :
    (handle c m r).Keeps (Step c) RoundFits (.holding s d m) := by
  refine keeps_forward.bind ?_
  intro a y hy
  obtain ⟨h, rfl, ho, hsource, hstream⟩ := hy
  refine (keeps_dispose ho (hsource ▸ hs) (hstream ▸ ht)).bind ?_
  intro r y hy
  exact keeps_recover hy

/-! ### Rounds -/

theorem keeps_deliver (hs : r.source.session = some s) (ht : r.stream = some d) :
    (deliver c d r).Keeps (Step c) RoundFits (.consuming s d) := by
  refine keeps_perform_bind ?_
  intro answer
  cases answer with
  | stop => exact ⟨.consuming s d, .stopped s d, .consuming hs ht⟩
  | message m => exact ⟨.holding s d m, .took s d m, keeps_handle hs ht⟩
  | failed e => exact ⟨.spoiled s, .lost s d e, .spoiled hs rfl (Phase.isActive_failed _)⟩
  | ended => exact ⟨.spoiled s, .ended s d, .spoiled hs rfl (Phase.isActive_failed _)⟩

end Message

theorem keeps_resubscribe {r : State σ δ} (hr : x.Revivable r.source) (ht : r.stream = none)
    (hf : x.Fits r) :
    (resubscribe c r).Keeps (Step c) RoundFits x := by
  unfold resubscribe
  split
  · exact hf
  · refine keeps_perform_bind ?_
    intro p
    refine ⟨x, .rested hf.resting _ p, ?_⟩
    cases p with
    | stop => exact hf
    | elapsed =>
        refine (keeps_link (keeps_subscribe hr)).bind ?_
        intro a y hy
        obtain ⟨a, l⟩ := a
        cases hy with
        | ok hs => exact .consuming hs rfl
        | apart hs => exact .apart hs ht (Phase.isActive_failed _)
        | spoiled hs => exact .spoiled hs ht (Phase.isActive_failed _)

theorem keeps_round {r : State σ δ} (h : x.Fits r) :
    (round c r).Keeps (Step c) RoundFits x := by
  unfold round
  cases h with
  | consuming hs ht =>
      rw [ht]
      exact keeps_deliver hs ht
  | apart hs ht hp =>
      rw [ht]
      exact keeps_resubscribe (.apart hs hp) ht (.apart hs ht hp)
  | spoiled hs ht hp =>
      rw [ht]
      exact keeps_resubscribe (.spoiled hs hp) ht (.spoiled hs ht hp)

/-- Where a relay stands when its run is over. -/
def Ended (a : Option Finish × State σ δ) (x : Standing σ δ) : Prop :=
  match a.1 with
  | some .stopped | some (.refused _) => x = .apart ∧ a.2.source.session = none
  | some .overflowed | none => x.Fits a.2

theorem keeps_rounds {r : State σ δ} (h : x.Fits r) (n : Nat) :
    (rounds c n r).Keeps (Step c) Ended x := by
  induction n generalizing r x with
  | zero => exact h
  | succ n ih =>
      refine (keeps_round h).bind ?_
      intro a y hy
      cases a with
      | go r => exact ih hy
      | stop r =>
          refine (keeps_close hy.releasable).bind ?_
          intro r y hy
          exact hy
      | overflow r => exact hy

/-- **A relay keeps to the steps of its standing**, from any session it may begin with. -/
theorem keeps_run {r : State σ δ} (h : x.Renewable r.source.session) (n : Nat) :
    (run c n r).Keeps (Step c) Ended x := by
  refine (keeps_begin h).bind ?_
  intro a y hy
  obtain ⟨a, r⟩ := a
  cases a with
  | error e =>
      refine (keeps_close hy).bind ?_
      intro r y hy
      exact hy
  | ok u => exact keeps_rounds hy n

end QueueRelay.Relay

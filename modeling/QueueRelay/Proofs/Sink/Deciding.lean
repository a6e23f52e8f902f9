/-
What sending a message comes to, read off the broker and the sink.

When nothing fails on the way and nobody else acts meanwhile, two things decide how a message
ends that is sent to a broker: whether the link is live, and what state the broker is in.  A
link that is not live is established first, which a refusal that is due prevents and which
changes nothing else that matters.  After that the end of the message is the one that the
broker held in store for it from the beginning.

Nothing but the state that the sink and its broker can come to is assumed.  What is used of it
is that nothing is ever out on the connections of the link, so that to close one of them, or a
channel on it, leaves every queue as it is.
-/
import QueueRelay.Proofs.Broker.Fate
import QueueRelay.Proofs.Link.Apart
import QueueRelay.Proofs.Sink.Attempts

namespace QueueRelay

open Program Broker

/-! ### Sending, written out -/

namespace Sink

variable {I : Interface} {S : Type}

/-- What sending through a sink does with its two operations. -/
theorem sendThrough_eq (establish : S → Program I (Except LinkError Unit × S))
    (transmit : Message → S → Program I (Except LinkError Unit × S)) (m : Message) (s : S) :
    sendThrough establish transmit m s = (do
      let first ← transmit m s
      match first.1 with
      | .ok _ => return (.delivered, first.2)
      | .error e =>
        if e.isConnection then
          let opened ← establish first.2
          match opened.1 with
          | .ok _ => do
            let second ← transmit m opened.2
            return (outcomeOf second.1, second.2)
          | .error e => return (.connectivityFailure e.message, opened.2)
        else return (.ofError e, first.2)) := by
  unfold sendThrough
  refine congrArg (transmit m s >>= ·) (funext fun first => ?_)
  obtain ⟨r, s'⟩ := first
  cases r with
  | ok u => rfl
  | error e =>
      cases he : e.isConnection with
      | false =>
          simp only [done_bind, he, Bool.false_eq_true, if_false]
          rfl
      | true =>
          simp only [done_bind, he, if_true]
          refine congrArg (establish s' >>= ·) (funext fun opened => ?_)
          obtain ⟨r', s''⟩ := opened
          cases r' with
          | error e' => rfl
          | ok u =>
              refine congrArg (transmit m s'' >>= ·) (funext fun second => ?_)
              obtain ⟨r'', s₃⟩ := second
              cases r'' <;> rfl

end Sink

/-- The outcome for a message, by what becomes of it. -/
def Broker.Fate.EndsIn : Fate → Outcome → Prop
  | .astray, o | .homeless, o => ∃ reason, o = .unroutable reason
  | .nacked, o => ∃ reason, o = .unknownFailure reason
  | .taken, o => o = .delivered

namespace Link

variable {α β : Type} {w w' w'' : Source} {held : Option Nat} {l : Link Nat}

/-! ### Running undisturbed -/

/-- `Ran p w a w'` holds when `p` comes from `w` to the result `a` and to `w'`, if nothing
fails on the way and nobody else acts. -/
def Ran (p : Program (BrokerLink Nat Broker.Stream) α) (w : Source) (a : α) (w' : Source) :
    Prop :=
  p.runIn reply w = some (a, w')

theorem ran_pure (a : α) (w : Source) : Ran (pure a) w a w := rfl

theorem ran_perform {c : (BrokerLink Nat Broker.Stream).Call}
    {a : (BrokerLink Nat Broker.Stream).Answer c} (h : reply c w = some (a, w')) :
    Ran (perform c) w a w' :=
  Option.bind_eq_some_iff.2 ⟨(a, w'), h, rfl⟩

theorem Ran.bind {p : Program (BrokerLink Nat Broker.Stream) α}
    {f : α → Program (BrokerLink Nat Broker.Stream) β} {a : α} {b : β} (h : Ran p w a w')
    (hf : Ran (f a) w' b w'') : Ran (p >>= f) w b w'' := by
  unfold Ran
  rw [runIn_bind]
  exact Option.bind_eq_some_iff.2 ⟨(a, w'), h, hf⟩

/-- What every step keeps is kept, too, when nobody else acts. -/
theorem Ran.clear {p : Program (BrokerLink Nat Broker.Stream) α} {a : α}
    {post : α → Option Nat → Prop} (h : Ran p w a w') (hp : p.Keeps Tenure post held)
    (hw : Source.Clear held w) : ∃ held', post a held' ∧ Source.Clear held' w' := by
  induction p generalizing held w with
  | done b =>
      cases h
      exact ⟨held, hp, hw⟩
  | call c next ih =>
      obtain ⟨⟨r, u⟩, hc, hnext⟩ := Option.bind_eq_some_iff.1 h
      obtain ⟨held', hstep, hrest⟩ := hp r
      exact ih r hnext hrest
        (invariant_clear.ends held [] c r held' w u hstep hw (answers_reply hc))

/-! ### Sending through a sink -/

section Through

variable {S : Type}
  {establish : S → Program (BrokerLink Nat Broker.Stream) (Except LinkError Unit × S)}
  {transmit : Message → S → Program (BrokerLink Nat Broker.Stream) (Except LinkError Unit × S)}
  {m : Message} {s s' s'' s₃ : S} {w₃ : Source} {r : Except LinkError Unit} {e e' : LinkError}

/-- One attempt is the last, unless it finds the link gone. -/
theorem ran_sendThrough (h : Ran (transmit m s) w (r, s') w')
    (hr : ∀ e, r = .error e → e.isConnection = false) :
    Ran (Sink.sendThrough establish transmit m s) w (Sink.outcomeOf r, s') w' := by
  rw [Sink.sendThrough_eq]
  refine h.bind ?_
  cases r with
  | ok u => exact ran_pure _ w'
  | error e =>
      dsimp only
      rw [if_neg (ne_true_of_eq_false (hr e rfl))]
      exact ran_pure _ w'

theorem ran_sendThrough_cut (h : Ran (transmit m s) w (.error e, s') w')
    (he : e.isConnection = true) (h' : Ran (establish s') w' (.error e', s'') w'') :
    Ran (Sink.sendThrough establish transmit m s) w (.connectivityFailure e'.message, s'') w'' := by
  rw [Sink.sendThrough_eq]
  refine h.bind ?_
  dsimp only
  rw [if_pos he]
  exact h'.bind (ran_pure _ w'')

theorem ran_sendThrough_again (h : Ran (transmit m s) w (.error e, s') w')
    (he : e.isConnection = true) (h' : Ran (establish s') w' (.ok (), s'') w'')
    (h'' : Ran (transmit m s'') w'' (r, s₃) w₃) :
    Ran (Sink.sendThrough establish transmit m s) w (Sink.outcomeOf r, s₃) w₃ := by
  rw [Sink.sendThrough_eq]
  refine h.bind ?_
  dsimp only
  rw [if_pos he]
  exact h'.bind (h''.bind (ran_pure _ w₃))

end Through

/-! ### Looking after the link -/

/-- Whether a link is live, as its broker knows. -/
def live (l : Link Nat) (w : Source) : Bool :=
  l.phase.isActive && match l.session with
    | some i => w.sessions[i]?.any w.broker.isOpen
    | none => false

theorem live_iff : l.live w = true ↔ l.phase = .connected ∧
    ∃ i s, l.session = some i ∧ w.sessions[i]? = some s ∧ w.broker.check s = .ok () := by
  unfold live
  rw [Bool.and_eq_true, Phase.isActive_iff]
  refine and_congr_right fun _ => ?_
  cases l.session with
  | none => simp
  | some i => simp [Option.any_eq_true, isOpen_iff_check]

/-- The session that is held is there. -/
theorem exists_session (h : Source.Clear held w) {i : Nat} (hi : held = some i) :
    ∃ s, w.sessions[i]? = some s :=
  ⟨_, List.getElem?_eq_getElem (h.handle i hi)⟩

/-- What a channel has out belongs to none of the sessions. -/
theorem not_loaned (h : Source.Clear held w) {s : Session} (hs : s ∈ w.sessions) :
    ∀ x ∈ w.broker.loans, x.channel ≠ s.channel := by
  intro x hx heq
  obtain ⟨lane, hl, hne⟩ := h.foreign x hx
  obtain ⟨lane', hl', hconn⟩ := h.owned s hs
  rw [heq, hl'] at hl
  cases hl
  exact hne s hs hconn

theorem ran_isLive (h : Source.Clear held w) (hl : l.Holds held) :
    Ran l.isLive w (l.live w) w := by
  unfold isLive live
  cases l.phase.isActive with
  | false => exact ran_pure false w
  | true =>
      cases hs : l.session with
      | none => exact ran_pure false w
      | some i =>
          obtain ⟨s, hs⟩ := exists_session h (hl.symm.trans hs)
          refine ran_perform ?_
          simp [reply, hs]

theorem ran_discard (h : Source.Clear held w) (hl : l.Holds held) :
    ∃ w', Ran l.discard w () w' ∧ Source.Clear none w' ∧ Calm w.broker w'.broker := by
  unfold discard
  cases hi : l.session with
  | none => exact ⟨w, ran_pure () w, h.drop, .refl _⟩
  | some i =>
      obtain ⟨s, hs⟩ := exists_session h (hl.symm.trans hi)
      have hlook : Ran (isOpen (C := Channel.calls Broker.Stream) i) w (w.broker.isOpen s) w :=
        ran_perform (by simp [reply, hs])
      cases ho : w.broker.isOpen s with
      | false =>
          rw [ho] at hlook
          exact ⟨w, hlook.bind (ran_pure () w), h.drop, .refl _⟩
      | true =>
          rw [ho] at hlook
          have hclose : Ran (close (C := Channel.calls Broker.Stream) i) w (.ok ())
              { w with broker := w.broker.closeSession s } :=
            ran_perform (by simp [reply, hs])
          refine ⟨_, hlook.bind (hclose.bind (ran_pure () _)), (h.closed s).drop, ?_⟩
          refine calm_closeSession h.sound fun x hx lane hl => ?_
          obtain ⟨lane', hl', hne⟩ := h.foreign x hx
          rw [hl] at hl'
          cases hl'
          exact hne s (List.mem_of_getElem? hs)

/-- What establishing a link comes to. -/
inductive Establishes (l : Link Nat) (w : Source) :
    Except LinkError Nat → Link Nat → Source → Prop
  | refused {e : LinkError} {w' : Source} (hdue : 0 < w.broker.refusalsDue)
      (hs : Still w.broker w'.broker)
      (hc : w'.broker.connectionsOpened = w.broker.connectionsOpened) :
      Establishes l w (.error e) (l.refused e) w'
  | opened {i : Nat} {w' : Source} (hdue : w.broker.refusalsDue = 0)
      (hs : Still w.broker w'.broker)
      (hc : w'.broker.connectionsOpened = w.broker.connectionsOpened + 1)
      (hclear : Source.Clear (some i) w') (hlive : (l.opened i).live w' = true) :
      Establishes l w (.ok i) (l.opened i) w'

theorem ran_establish (h : Source.Clear held w) (hl : l.Holds held) :
    ∃ r l' w', Ran l.establish w (r, l') w' ∧ Establishes l w r l' w' := by
  obtain ⟨u, hdiscard, hu, hcalm⟩ := ran_discard h hl
  rcases connect_cases u.broker with ⟨hdue, e, b, hb, hs, hc⟩ | ⟨hdue, s, b, hb, hs, hc, hcheck⟩
  · have hconnect : Ran (connect (C := Channel.calls Broker.Stream)) u (.error e)
        { u with broker := b } :=
      ran_perform (by simp [reply, hb])
    refine ⟨_, _, _, hdiscard.bind (hconnect.bind (ran_pure _ _)), .refused ?_ ?_ ?_⟩
    · rwa [hcalm.refusalsDue] at hdue
    · exact hcalm.toStill.trans hs
    · exact hc.trans hcalm.connectionsOpened
  · have hconnect : Ran (connect (C := Channel.calls Broker.Stream)) u (.ok u.sessions.length)
        { broker := b, sessions := u.sessions ++ [s] } :=
      ran_perform (by simp [reply, hb])
    refine ⟨_, _, _, hdiscard.bind (hconnect.bind (ran_pure _ _)),
      .opened ?_ ?_ ?_ (hu.opened hb) (live_iff.2 ⟨rfl, _, s, rfl, ?_, hcheck⟩)⟩
    · rwa [hcalm.refusalsDue] at hdue
    · exact hcalm.toStill.trans hs
    · exact hc.trans (congrArg (· + 1) hcalm.connectionsOpened)
    · simp

end Link

namespace BrokerSink

open Link

variable {s s' : BrokerSink Nat} {w w' : Source} {held : Option Nat} {m : Message}

/-! ### Transmitting -/

/-- What transmitting a message over a live link comes to. -/
structure Transmits (s : BrokerSink Nat) (m : Message) (w : Source) (r : Except LinkError Unit)
    (s' : BrokerSink Nat) (w' : Source) : Prop where
  final : ∀ e, r = .error e → e.isConnection = false
  outcome : (w.broker.fate (s.place.aim m).1 (s.place.aim m).2).EndsIn (Sink.outcomeOf r)
  effect : (w.broker.fate (s.place.aim m).1 (s.place.aim m).2).Effect (s.place.aim m).1
    (s.place.aim m).2 m.payload w.broker w'.broker
  connectionsOpened : w'.broker.connectionsOpened = w.broker.connectionsOpened
  phase : s'.link.phase = .connected ↔ s'.link.live w' = true

theorem ran_overLiveLink {act : Nat → Program (BrokerLink Nat Broker.Stream)
      (Except LinkError Unit × BrokerSink Nat)} {a : Except LinkError Unit × BrokerSink Nat}
    {i : Nat} (h : Source.Clear held w) (hs : s.link.Holds held) (hlive : s.link.live w = true)
    (hi : s.link.session = some i) (hact : Ran (act i) w a w') :
    Ran (s.overLiveLink act) w a w' := by
  refine (ran_isLive h hs).bind ?_
  rw [if_pos hlive, hi]
  exact hact

theorem ran_overLiveLink_closed {act : Nat → Program (BrokerLink Nat Broker.Stream)
      (Except LinkError Unit × BrokerSink Nat)} (h : Source.Clear held w)
    (hs : s.link.Holds held) (hlive : s.link.live w = false) :
    Ran (s.overLiveLink act) w (.error .closed, s) w := by
  refine (ran_isLive h hs).bind ?_
  rw [if_neg (ne_true_of_eq_false hlive)]
  exact ran_pure _ w

/-- A sink after a failure that does not say by itself that the link is gone. -/
def failedAt (s : BrokerSink Nat) (e : LinkError) (w : Source) : BrokerSink Nat :=
  (if !s.link.live w then s.degraded e else s).rejected e

theorem ran_failedWith (h : Source.Clear held w) (hs : s.link.Holds held) {e : LinkError}
    (he : e.isConnection = false) : Ran (s.failedWith e) w (s.failedAt e w) w := by
  unfold failedWith
  rw [if_neg (ne_true_of_eq_false he), ← bind_pure_comp]
  exact ((ran_isLive h hs).bind (ran_pure (!s.link.live w) w)).bind (ran_pure (s.failedAt e w) w)

/-- A sink that takes a failure into account is connected just if its link is live. -/
theorem connected_iff_live_failedAt (e : LinkError) (hp : s.link.phase = .connected) :
    (s.failedAt e w).link.phase = .connected ↔ (s.failedAt e w).link.live w = true := by
  unfold failedAt
  cases hlive : s.link.live w with
  | true => exact iff_of_true hp hlive
  | false =>
      have hdegraded : (s.link.degraded e.message).phase = .degraded := by
        simp [Link.degraded, hp, Phase.failed]
      refine iff_of_false (fun h => ?_) fun h => ?_
      · exact Phase.noConfusion (hdegraded.symm.trans h)
      · exact Phase.noConfusion ((live_iff.1 h).1.symm.trans hdegraded)

/-- What the broker's word means for a message, by what becomes of it. -/
theorem verdict_of_word {f : Fate} {word : Except LinkError PublishStatus} (h : f.Word word) :
    f = .taken ∧ s.verdict m word = .ok () ∨
      f ≠ .taken ∧ ∃ e, s.verdict m word = .error e ∧ e.isConnection = false ∧
        f.EndsIn (.ofError e) := by
  cases f with
  | astray =>
      obtain ⟨reason, rfl⟩ := h
      exact .inr ⟨nofun, _, rfl, rfl, _, rfl⟩
  | nacked =>
      cases h
      exact .inr ⟨nofun, _, rfl, rfl, _, rfl⟩
  | homeless =>
      obtain ⟨reason, rfl⟩ := h
      exact .inr ⟨nofun, _, rfl, rfl, _, rfl⟩
  | taken =>
      cases h
      exact .inl ⟨rfl, rfl⟩

/-- A message that is sent over a live link comes to the end that the broker has in store. -/
theorem ran_transmit (h : Source.Clear held w) (hs : s.link.Holds held)
    (hlive : s.link.live w = true) (m : Message) :
    ∃ r s' w', Ran (transmit m s) w (r, s') w' ∧ Transmits s m w r s' w' := by
  obtain ⟨hp, i, session, hi, hsession, hcheck⟩ := live_iff.1 hlive
  let call : Channel.Call := .publish (s.place.aim m).1 (s.place.aim m).2 m.payload {}
  let w' : Source := { broker := (w.broker.answer session call).2.2
                       sessions := w.sessions.set i session }
  have hpublished : Published w.broker session (s.place.aim m).1 (s.place.aim m).2 m.payload
      (w.broker.answer session call).1 w'.broker :=
    publish_fate h.sound hcheck (not_loaned h (List.mem_of_getElem? hsession)) _ _ _
  have hask : Ran (Link.ask (C := Channel.calls Broker.Stream) i call) w
      (w.broker.answer session call).1 w' :=
    ran_perform (by simp [reply, hsession, answer, call, w'])
  have hrest {a : Except LinkError Unit × BrokerSink Nat}
      (hword : Ran (match s.verdict m (w.broker.answer session call).1 with
        | .ok _ => return (.ok (), s.accepted)
        | .error e => return (.error e, ← s.failedWith e)) w' a w') :
      Ran (transmit m s) w a w' :=
    ran_overLiveLink h hs hlive hi (hask.bind hword)
  rcases verdict_of_word (s := s) (m := m) hpublished.word with ⟨hf, hv⟩ | ⟨hf, e, hv, he, hend⟩
  · have hopen := hpublished.isOpen
    rw [hf] at hopen
    have hi' : w'.sessions[i]? = some session :=
      List.getElem?_set_self (List.getElem?_eq_some_iff.1 hsession).1
    refine ⟨.ok (), s.accepted, w', hrest ?_, ?_⟩
    · rw [hv]
      exact ran_pure _ w'
    · exact
        { final := nofun
          outcome := by rw [hf]; rfl
          effect := hpublished.effect
          connectionsOpened := hpublished.connectionsOpened
          phase := iff_of_true hp
            (live_iff.2 ⟨hp, i, session, hi, hi', isOpen_iff_check.1 hopen⟩) }
  · have hclear : Source.Clear held w' := h.asked hsession call
    refine ⟨.error e, s.failedAt e w', w', hrest ?_, ?_⟩
    · rw [hv]
      exact (ran_failedWith hclear hs he).bind (ran_pure _ w')
    · exact
        { final := fun e' heq => by cases heq; exact he
          outcome := hend
          effect := hpublished.effect
          connectionsOpened := hpublished.connectionsOpened
          phase := connected_iff_live_failedAt e hp }

/-! ### Sending -/

/-- What sending a message comes to, by whether the link is live and by what the broker has in
store for the message. -/
structure Decided (b : Broker) (live : Bool) (exchange key : String) (payload : ByteArray)
    (o : Outcome) (b' : Broker) : Prop where
  /-- A link that is not live cannot be established while a refusal is due. -/
  refused : live = false → 0 < b.refusalsDue →
    (∃ reason, o = .connectivityFailure reason) ∧ Untouched b b' ∧
      b'.connectionsOpened = b.connectionsOpened
  decided : live = true ∨ b.refusalsDue = 0 →
    (b.fate exchange key).EndsIn o ∧ (b.fate exchange key).Effect exchange key payload b b' ∧
      b'.connectionsOpened = b.connectionsOpened + if live then 0 else 1

/-- What sending comes to that is decided by the state of the sink and of its broker. -/
theorem ran_send (h : Source.Clear held w) (hs : s.link.Holds held) (m : Message) :
    ∃ o s' w', Ran (send m s) w (o, s') w' ∧
      Decided w.broker (s.link.live w) (s.place.aim m).1 (s.place.aim m).2 m.payload o
        w'.broker ∧
      (s'.link.phase = .connected ↔ s'.link.live w' = true) := by
  cases hlive : s.link.live w with
  | true =>
      obtain ⟨r, s', w', hrun, ht⟩ := ran_transmit h hs hlive m
      refine ⟨_, s', w', ran_sendThrough hrun ht.final, ⟨nofun, fun _ => ?_⟩, ht.phase⟩
      exact ⟨ht.outcome, ht.effect, ht.connectionsOpened⟩
  | false =>
      have hfirst : Ran (transmit m s) w (.error .closed, s) w :=
        ran_overLiveLink_closed h hs hlive
      obtain ⟨r, l, u, hrun, hestablishes⟩ := ran_establish h hs
      have hsecond : Ran (Sink.establish s) w (r.map fun _ => (), { s with link := l }) u :=
        hrun.bind (ran_pure _ u)
      cases hestablishes with
      | @refused e u hdue hstill hconn =>
          refine ⟨_, _, u, ran_sendThrough_cut hfirst rfl hsecond, ⟨fun _ _ => ?_, ?_⟩, ?_⟩
          · exact ⟨⟨_, rfl⟩, hstill.toUntouched, hconn⟩
          · rintro (hfalse | hzero)
            · cases hfalse
            · omega
          · refine iff_of_false ?_ ?_
            · show s.link.phase.failed ≠ .connected
              cases s.link.phase <;> nofun
            · simp [live, refused]
      | @opened i u hdue hstill hconn hclear hopened =>
          obtain ⟨r, s', w', hlast, ht⟩ :=
            ran_transmit (s := { s with link := s.link.opened i }) hclear rfl hopened m
          refine ⟨_, s', w', ran_sendThrough_again hfirst rfl hsecond hlast,
            ⟨fun _ hpos => ?_, fun _ => ⟨?_, ?_, ?_⟩⟩, ht.phase⟩
          · omega
          · exact fate_congr hstill ▸ ht.outcome
          · have heffect := ht.effect.of_still hstill
            rwa [fate_congr hstill] at heffect
          · exact ht.connectionsOpened.trans hconn

/-- **What sending a message comes to can be read off the sink and its broker.**

Whatever was done with the sink, and whatever others did to the broker on connections of their
own: if the link is not live and a refusal is due, the outcome is a connectivity failure.
Otherwise just one connection is opened if the link is not live, and none if it is, and what
the broker has in store for the message decides both the outcome and where copies of it
arrive.  Afterwards the sink reports itself connected just if its link is live. -/
theorem send_decided (name endpoint : String) (place : BrokerPlace)
    (deeds : List (Deed Broker.Stream)) {t : List (BrokerLink Nat Broker.Stream).Exchange}
    (h : amongOthers.Reached (course doing deeds (ofPlace name endpoint place)) { broker := {} } t
      (.ready (.done s)) w) (m : Message) :
    ∃ live o s' w' live', Ran s.isConnected w live w ∧ Ran (send m s) w (o, s') w' ∧
      Ran s'.isConnected w' live' w' ∧
      Decided w.broker live (s.place.aim m).1 (s.place.aim m).2 m.payload o w'.broker ∧
      (s'.status.phase = .connected ↔ live' = true) := by
  obtain ⟨held, -, hs, hclear⟩ :=
    h.keeps (holds_course name endpoint place deeds) invariant_clear Source.clear_new
  obtain ⟨o, s', w', hrun, hdecided, hphase⟩ := ran_send hclear hs m
  obtain ⟨held', hs', hclear'⟩ := hrun.clear (s.holds_send m) (hs ▸ hclear)
  exact ⟨_, o, s', w', _, ran_isLive hclear hs, hrun, ran_isLive hclear' hs', hdecided, hphase⟩

/-- A sink that was never connected delivers a message to a queue that was declared meanwhile,
over a connection that it opens for it. -/
theorem send_decided_to_new_queue :
    let s : BrokerSink Nat := ofPlace "sink" "amqp://localhost" (.queue "jobs")
    let w : Source := { broker := Simulation.applyToBroker (.declareQueue "jobs") {} }
    let m : Message := { payload := ⟨#[104, 105]⟩, tag := ⟨1⟩ }
    amongOthers.Reached (course doing [] s) { broker := {} } [] (.ready (.done s)) w ∧
      ∃ s' w', Ran (send m s) w (.delivered, s') w' ∧ w'.broker.connectionsOpened = 1 ∧
        ∃ copy : Copy, copy.payload = m.payload ∧ w'.broker.ready "jobs" = [copy] := by
  intro s w m
  have hreached : amongOthers.Reached (course doing [] s) { broker := {} } []
      (.ready (.done s)) w :=
    .moved .start ⟨_, .operated (.declareQueue "jobs"), rfl⟩
  obtain ⟨live, o, s', w', live', hlive, hrun, -, hdecided, -⟩ :=
    send_decided "sink" "amqp://localhost" (.queue "jobs") [] hreached m
  cases hlive
  have hfate : w.broker.fate "" "jobs" = .taken := by decide
  obtain ⟨hend, heffect, hopened⟩ := hdecided.decided (.inr rfl)
  rw [show s.place.aim m = ("", "jobs") from rfl, hfate] at hend heffect
  cases hend
  obtain ⟨copy, hpayload, -, hready⟩ := heffect.arrived "jobs" (by decide)
  exact ⟨hreached, s', w', hrun, hopened, copy, hpayload, hready⟩

end BrokerSink

end QueueRelay

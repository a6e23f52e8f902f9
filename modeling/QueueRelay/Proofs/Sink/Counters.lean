/-
What the counters of a sink count.

A ledger is kept of what was exchanged over a link: how many sessions were opened, and how
many messages the destination accepted and how many it did not.  It is made from the
exchanges alone.  Whatever is done with a sink, its counters agree with the ledger, and so do
the outcomes of what was sent through it: a delivery is a message accepted, and sending
accepts a message at most once, however often it tries.

What sets the sinks apart is how they transmit and what the word of their destination means.
So much is asked of `transmit` alone (`Scores`), and the rest follows for all of them.
-/
import QueueRelay.Proofs.Link.Phases
import QueueRelay.Proofs.Sink.Send
import QueueRelay.Sink.Build

namespace QueueRelay.Sink

open Program

variable {P σ : Type} {C : Interface}

/-! ### What was exchanged over a link -/

/-- A session was opened. -/
def opens (e : (Link.calls C σ).Exchange) : Bool :=
  match e with
  | ⟨.connect, .ok _⟩ => true
  | _ => false

/-- The word of the destination on a message, as `said` reads it off a call on a session:
whether it accepted the message, if the call hands one over. -/
def word (said : C.Exchange → Option Bool) (e : (Link.calls C σ).Exchange) : Option Bool :=
  match e with
  | ⟨.ask _ c, a⟩ => said ⟨c, a⟩
  | _ => none

/-- What was exchanged over a link, in numbers. -/
structure Ledger where
  opened : Nat := 0
  accepted : Nat := 0
  refused : Nat := 0

variable {said : C.Exchange → Option Bool} {b : Ledger} {s : Sink P σ}

/-- The numbers after one more exchange. -/
def Ledger.tally (said : C.Exchange → Option Bool) (b : Ledger)
    (e : (Link.calls C σ).Exchange) : Ledger where
  opened := b.opened + if opens e then 1 else 0
  accepted := b.accepted + if word said e = some true then 1 else 0
  refused := b.refused + if word said e = some false then 1 else 0

/-- The numbers of some exchanges. -/
def ledgerOf (said : C.Exchange → Option Bool) (t : List (Link.calls C σ).Exchange) : Ledger where
  opened := t.countP opens
  accepted := t.countP fun e => word said e = some true
  refused := t.countP fun e => word said e = some false

theorem ledgerOf_snoc (t : List (Link.calls C σ).Exchange) (e : (Link.calls C σ).Exchange) :
    ledgerOf said (t ++ [e]) = (ledgerOf said t).tally said e := by
  simp [ledgerOf, Ledger.tally, List.countP_append, List.countP_singleton]

/-- The ledger is kept. -/
def Notes (said : C.Exchange → Option Bool) (b : Ledger) (e : (Link.calls C σ).Exchange)
    (b' : Ledger) : Prop := b' = b.tally said e

theorem ledger_of_path {t : List (Link.calls C σ).Exchange}
    (h : Path (Notes said) {} t b) : b = ledgerOf said t := by
  refine h.preserves (P := fun b t => b = ledgerOf said t) ?_ [] rfl
  intro b e b' t he hb
  rw [ledgerOf_snoc, ← hb]
  exact he

theorem tally_idle {c : (Link.calls C σ).Call} (hc : Link.Idle c)
    (a : (Link.calls C σ).Answer c) : b.tally said ⟨c, a⟩ = b := by
  cases c with
  | isOpen | close => rfl
  | connect | ask => exact hc.elim

theorem keeps_idle {α : Type} {p : Program (Link.calls C σ) α} (hp : p.Only Link.Idle) :
    p.Keeps (Notes said) (fun _ b' => b' = b) b :=
  hp.keeps fun _ a hc => (tally_idle hc a).symm

/-- An exchange in which the destination gives its word on a message. -/
theorem tally_word {session : σ} {c : C.Call} {a : C.Answer c} {taken : Bool}
    (h : said ⟨c, a⟩ = some taken) :
    b.tally said (⟨.ask session c, a⟩ : (Link.calls C σ).Exchange) =
      if taken then { b with accepted := b.accepted + 1 }
      else { b with refused := b.refused + 1 } := by
  have hword : word said (⟨.ask session c, a⟩ : (Link.calls C σ).Exchange) = some taken := h
  cases taken <;> simp [Ledger.tally, hword, opens]

/-! ### Counters that agree with the ledger -/

/-- What a sink counted is what the ledger says. -/
structure Agrees (b : Ledger) (s : Sink P σ) : Prop where
  sent : s.sent = b.accepted
  failed : s.failed = b.refused
  connects : s.link.connects = b.opened
  reconnects : s.link.reconnects = b.opened - 1

theorem Agrees.degraded (h : Agrees b s) (e : LinkError) : Agrees b (s.degraded e) :=
  ⟨h.sent, h.failed, h.connects, h.reconnects⟩

theorem Agrees.accepted (h : Agrees b s) :
    Agrees { b with accepted := b.accepted + 1 } s.accepted :=
  ⟨congrArg (· + 1) h.sent, h.failed, h.connects, h.reconnects⟩

theorem Agrees.rejected (h : Agrees b s) (e : LinkError) :
    Agrees { b with refused := b.refused + 1 } (s.rejected e) :=
  ⟨h.sent, congrArg (· + 1) h.failed, h.connects, h.reconnects⟩

theorem Agrees.rejected_of (h : Agrees b s) (gone : Bool) (e : LinkError) :
    Agrees { b with refused := b.refused + 1 } ((if gone then s.degraded e else s).rejected e) := by
  cases gone with
  | false => exact h.rejected e
  | true => exact (h.degraded e).rejected e

theorem keeps_establish (h : Agrees b s) :
    (s.establish (C := C)).Keeps (Notes said)
      (fun r b' => Agrees b' r.2 ∧ b'.accepted = b.accepted) b := by
  refine keeps_bind.2 (keeps_bind.2 ((keeps_idle s.link.idle_discard).weaken fun _ b' hb => ?_))
  subst hb
  refine keeps_perform_bind fun answer => ⟨_, rfl, ?_⟩
  cases answer with
  | error e => exact ⟨⟨h.sent, h.failed, h.connects, h.reconnects⟩, rfl⟩
  | ok session =>
      have hreconnects := Link.reconnects_opened h.connects h.reconnects session
      exact ⟨⟨h.sent, h.failed, congrArg (· + 1) h.connects, hreconnects⟩, rfl⟩

theorem keeps_close (h : Agrees b s) :
    (s.close (C := C)).Keeps (Notes said)
      (fun s' b' => Agrees b' s' ∧ b'.accepted = b.accepted) b := by
  have hreleased : Agrees b { s with link := s.link.released } :=
    ⟨h.sent, h.failed, h.connects, h.reconnects⟩
  refine keeps_bind.2 ?_
  unfold Link.release
  split
  · exact keeps_perform_bind fun _ => ⟨b, rfl, hreleased, rfl⟩
  · exact ⟨hreleased, rfl⟩

/-! ### Transmitting -/

/-- A way to hand over a message once. -/
abbrev Transmission (C : Interface) (P σ : Type) : Type :=
  Message → Sink P σ → Program (Link.calls C σ) (Except LinkError Unit × Sink P σ)

/-- Transmitting keeps the counters in agreement, and works just if the message is accepted. -/
def Scores (said : C.Exchange → Option Bool) (transmit : Transmission C P σ) : Prop :=
  ∀ m s b, Agrees b s → (transmit m s).Keeps (Notes said)
    (fun r b' => Agrees b' r.2 ∧ b'.accepted = b.accepted + if r.1.isOk then 1 else 0) b

/-- Nothing is asked over a link that is not live. -/
theorem keeps_overLiveLink
    {act : σ → Program (Link.calls C σ) (Except LinkError Unit × Sink P σ)}
    {post : Except LinkError Unit × Sink P σ → Ledger → Prop}
    (hact : ∀ session, (act session).Keeps (Notes said) post b)
    (hclosed : post (.error .closed, s) b) :
    (s.overLiveLink act).Keeps (Notes said) post b := by
  refine keeps_bind.2 ((keeps_idle s.link.idle_isLive).weaken fun live b' hb => ?_)
  subst hb
  split
  · split
    · exact hact _
    · exact hclosed
  · exact hclosed

/-! ### Sending, and all that is done with a sink -/

variable {transmit : Transmission C P σ}

/-- Sending accepts the message just if it delivers it. -/
theorem keeps_sendThrough (ht : Scores said transmit) (m : Message) (h : Agrees b s) :
    (sendThrough establish transmit m s).Keeps (Notes said)
      (fun r b' => Agrees b' r.2 ∧ b'.accepted = b.accepted + if r.1.isDelivered then 1 else 0)
      b := by
  -- beside the ledger it is noted whether an attempt was accepted
  let fits (s : Sink P σ) (done : Bool) (b' : Ledger) : Prop :=
    Agrees b' s ∧ b'.accepted = b.accepted + if done then 1 else 0
  unfold sendThrough
  refine (keeps_runIn_beside (S := Sink P σ) fits (attempted_deterministic m)
    (fun c s done b' hfits hc => ?_) (Sink.keeps_send m) ⟨h, rfl⟩).weaken fun r b' hr => ?_
  · obtain ⟨hagrees, hdone⟩ := hfits
    obtain ⟨done', hstep⟩ := hc (.ok ())
    cases hstep with
    | accepted =>
        refine (ht m s b' hagrees).weaken fun r b'' hr => ?_
        obtain ⟨answer, s'⟩ := r
        cases answer with
        | ok u => exact ⟨true, .accepted u, hr.1, hr.2.trans (congrArg (· + 1) hdone)⟩
        | error e => exact ⟨false, .failed e, hr.1, hr.2.trans hdone⟩
    | established =>
        refine (keeps_establish hagrees).weaken fun r b'' hr => ?_
        exact ⟨false, .established r.1, hr.1, hr.2.trans hdone⟩
  · obtain ⟨done, rfl, hagrees, hdone⟩ := hr
    exact ⟨hagrees, hdone⟩

/-- What the owner of a sink can do with it. -/
inductive Deed where
  | establish
  | transmit (m : Message)
  | send (m : Message)
  | close

/-- Transmits a message without the second attempt that sending would make. -/
def Deed.isTransmit : Deed → Bool
  | .transmit _ => true
  | _ => false

/-- Does something with a sink that transmits and sends in its own way, and keeps the outcomes
of what was sent. -/
def doing (transmit : Transmission C P σ)
    (send : Message → Sink P σ → Program (Link.calls C σ) (Outcome × Sink P σ)) :
    Deed → Sink P σ × List Outcome → Program (Link.calls C σ) (Sink P σ × List Outcome)
  | .establish, (s, outcomes) => (fun r => (r.2, outcomes)) <$> s.establish
  | .transmit m, (s, outcomes) => (fun r => (r.2, outcomes)) <$> transmit m s
  | .send m, (s, outcomes) => (fun r => (r.2, outcomes ++ [r.1])) <$> send m s
  | .close, (s, outcomes) => (fun s => (s, outcomes)) <$> s.close

/-- How many of the outcomes are deliveries. -/
def deliveries (outcomes : List Outcome) : Nat := outcomes.countP Outcome.isDelivered

theorem deliveries_snoc (outcomes : List Outcome) (o : Outcome) :
    deliveries (outcomes ++ [o]) = deliveries outcomes + if o.isDelivered then 1 else 0 := by
  simp [deliveries, List.countP_append, List.countP_singleton]

/-- The counters agree, and the deliveries are messages that were accepted; they are all of
them if `alone` says that nothing was transmitted but by sending. -/
def Tallies (alone : Bool) (r : Sink P σ × List Outcome) (b : Ledger) : Prop :=
  Agrees b r.1 ∧ deliveries r.2 ≤ b.accepted ∧ (alone → deliveries r.2 = b.accepted)

theorem tallies_doing (ht : Scores said transmit) {alone : Bool} {d : Deed}
    (hd : alone → d.isTransmit = false) {r : Sink P σ × List Outcome} (h : Tallies alone r b) :
    (doing transmit (sendThrough establish transmit) d r).Keeps (Notes said) (Tallies alone) b := by
  obtain ⟨s, outcomes⟩ := r
  obtain ⟨hagrees, hle, heq⟩ := h
  -- what accepts nothing and sends nothing
  have hsame : ∀ (s' : Sink P σ) (b' : Ledger), Agrees b' s' ∧ b'.accepted = b.accepted →
      Tallies alone (s', outcomes) b' := fun s' b' h' =>
    ⟨h'.1, h'.2 ▸ hle, fun ha => h'.2 ▸ heq ha⟩
  cases d with
  | establish => exact keeps_map.2 ((keeps_establish hagrees).weaken fun r b' => hsame r.2 b')
  | close => exact keeps_map.2 ((keeps_close hagrees).weaken hsame)
  | transmit m =>
      refine keeps_map.2 ((ht m s b hagrees).weaken fun r b' hr => ?_)
      refine ⟨hr.1, ?_, fun ha => Bool.noConfusion (hd ha)⟩
      rw [hr.2]
      exact Nat.le_add_right_of_le hle
  | send m =>
      refine keeps_map.2 ((keeps_sendThrough ht m hagrees).weaken fun r b' hr => ?_)
      refine ⟨hr.1, ?_, fun ha => ?_⟩
      · rw [deliveries_snoc, hr.2]
        exact Nat.add_le_add_right hle _
      · rw [deliveries_snoc, hr.2, heq ha]

/-- What the counters of a sink and the outcomes of what was sent have to do with what was
exchanged over its link. -/
structure Counted (said : C.Exchange → Option Bool) (deeds : List Deed)
    (t : List (Link.calls C σ).Exchange) (s : Sink P σ) (outcomes : List Outcome) : Prop where
  sent : s.status.sent = t.countP fun e => word said e = some true
  failed : s.status.failed = t.countP fun e => word said e = some false
  reconnects : s.status.reconnects = t.countP opens - 1
  delivered_le : deliveries outcomes ≤ s.status.sent
  /-- If nothing was transmitted but by sending, all that was accepted was delivered. -/
  delivered : (∀ d ∈ deeds, d.isTransmit = false) → deliveries outcomes = s.status.sent
  /-- It says it is connected only in the phase of that name. -/
  connected : ∀ u, (s.isConnected (C := C)).Yields u true → s.status.phase = .connected

theorem counted_course (ht : Scores said transmit) (hs : Agrees {} s) {deeds : List Deed}
    {t : List (Link.calls C σ).Exchange} {s' : Sink P σ} {outcomes : List Outcome}
    (h : (course (doing transmit (sendThrough establish transmit)) deeds (s, [])).Yields t
      (s', outcomes)) : Counted said deeds t s' outcomes := by
  -- one look at the run for each of the two cases
  have hrun : ∀ alone : Bool, (alone → ∀ d ∈ deeds, d.isTransmit = false) →
      Tallies alone (s', outcomes) (ledgerOf said t) := by
    intro alone halone
    have hcourse : (course (doing transmit (sendThrough establish transmit)) deeds (s, [])).Keeps
        (Notes said) (Tallies alone) {} :=
      keeps_course_of_mem (fun d hd r b => tallies_doing ht fun ha => halone ha d hd)
        ⟨hs, Nat.le_refl _, fun _ => rfl⟩
    obtain ⟨b, hpath, hend⟩ := hcourse.leads h.leads
    rw [← ledger_of_path hpath]
    exact hend
  obtain ⟨hagrees, hle, -⟩ := hrun false (by simp)
  refine ⟨hagrees.sent, hagrees.failed, hagrees.reconnects, ?_, fun hsends => ?_,
    fun u hu => (Link.session_of_live hu).1⟩
  · exact le_of_le_of_eq hle hagrees.sent.symm
  · exact ((hrun true fun _ => hsends).2.2 rfl).trans hagrees.sent.symm

end QueueRelay.Sink

namespace QueueRelay.BrokerSink

open Program Sink

variable {σ δ : Type} {b : Ledger} {s : BrokerSink σ}

/-- A broker accepts a message that it is asked to publish if it confirms it. -/
def said (e : (Channel.calls δ).Exchange) : Option Bool :=
  match e with
  | ⟨.publish _ _ _ _, .ok .confirmed⟩ => some true
  | ⟨.publish _ _ _ _, _⟩ => some false
  | _ => none

/-- The broker's word is taken for what it is. -/
theorem said_publish (s : BrokerSink σ) (m : Message) (exchange key : String) (payload : ByteArray)
    (options : PublishOptions) (word : Except LinkError PublishStatus) :
    said (δ := δ) ⟨.publish exchange key payload options, word⟩ =
      some (s.verdict m word).isOk := by
  cases word with
  | ok status => cases status <;> rfl
  | error e => cases e <;> rfl

theorem agrees_failedWith (e : LinkError) (h : Agrees b s) :
    (s.failedWith (δ := δ) e).Keeps (Notes said)
      (fun s' b' => Agrees b' s' ∧ b'.accepted = b.accepted)
      { b with refused := b.refused + 1 } := by
  unfold failedWith
  split
  · exact ⟨h.rejected_of true e, rfl⟩
  · refine keeps_bind.2 (keeps_map.2 ((keeps_idle s.link.idle_isLive).weaken fun live b' hb => ?_))
    subst hb
    exact ⟨h.rejected_of (!live) e, rfl⟩

theorem scores : Scores said (transmit (σ := σ) (δ := δ)) := by
  intro m s b h
  refine keeps_overLiveLink (fun session => ?_) ⟨h, rfl⟩
  refine keeps_perform_bind fun word => ⟨_, (tally_word (said_publish s m _ _ _ _ word)).symm, ?_⟩
  cases verdict s m word with
  | ok u => exact ⟨h.accepted, rfl⟩
  | error e => exact keeps_map.2 (agrees_failedWith e h)

end QueueRelay.BrokerSink

namespace QueueRelay.CloudSink

open Program Sink

variable {σ : Type} {b : Ledger} {s : CloudSink σ}

/-- The services accept a message that they take without an error. -/
def said (e : Cloud.calls.Exchange) : Option Bool := some e.answer.isOk

theorem scores : Scores said (transmit (σ := σ)) := by
  intro m s b h
  unfold transmit
  cases m.text? with
  | none => exact ⟨h, rfl⟩
  | some body =>
      refine keeps_overLiveLink (fun session => ?_) ⟨h, rfl⟩
      refine keeps_perform_bind fun answer => ⟨_, (tally_word rfl).symm, ?_⟩
      cases answer with
      | ok u => exact ⟨h.accepted, rfl⟩
      | error e => exact ⟨h.rejected_of e.isConnection e, rfl⟩

end QueueRelay.CloudSink

namespace QueueRelay.BusSink

open Program Sink

variable {σ : Type} {b : Ledger} {s : BusSink σ}

/-- A bus accepts a message that it takes without an error. -/
def said (e : Bus.calls.Exchange) : Option Bool := some e.answer.isOk

theorem scores : Scores said (transmit (σ := σ)) := by
  intro m s b h
  refine keeps_overLiveLink (fun session => ?_) ⟨h, rfl⟩
  refine keeps_perform_bind fun answer => ⟨_, (tally_word rfl).symm, ?_⟩
  cases answer with
  | ok u => exact ⟨h.accepted, rfl⟩
  | error e =>
      unfold settle
      dsimp only
      split
      · exact ⟨(h.rejected e).degraded e, rfl⟩
      · exact ⟨h.rejected e, rfl⟩

end QueueRelay.BusSink

namespace QueueRelay.Sink

open Program

/-- **The counters of a sink count what was exchanged over its link.**

Whatever is done with a sink of one of the three kinds, in whatever order and however it is
answered, it counts what its destination accepted and what it did not, and the sessions that
were opened after the first.  What was delivered was accepted, and everything that was
accepted was delivered unless it was transmitted otherwise than by sending. -/
theorem counters_count {σ δ : Type} (name endpoint : String) (deeds : List Deed)
    (outcomes : List Outcome) :
    (∀ place t s, (course (doing BrokerSink.transmit BrokerSink.send) deeds
        (BrokerSink.ofPlace (σ := σ) name endpoint place, [])).Yields t (s, outcomes) →
      Counted (BrokerSink.said (δ := δ)) deeds t s outcomes) ∧
    (∀ route t s, (course (doing CloudSink.transmit CloudSink.send) deeds
        (CloudSink.ofRoute (σ := σ) name endpoint route, [])).Yields t (s, outcomes) →
      Counted CloudSink.said deeds t s outcomes) ∧
    ∀ place t s, (course (doing BusSink.transmit BusSink.send) deeds
        (BusSink.ofPlace (σ := σ) name endpoint place, [])).Yields t (s, outcomes) →
      Counted BusSink.said deeds t s outcomes :=
  ⟨fun _ _ _ => counted_course BrokerSink.scores ⟨rfl, rfl, rfl, rfl⟩,
    fun _ _ _ => counted_course CloudSink.scores ⟨rfl, rfl, rfl, rfl⟩,
    fun _ _ _ => counted_course BusSink.scores ⟨rfl, rfl, rfl, rfl⟩⟩

/-- A message is delivered to a broker on a second session, after the first was lost; a sink for
a cloud queue is closed and opened again; a bus refuses a message and takes it when it is sent. -/
theorem counters_count_over_two_sessions :
    let m : Message := { payload := ⟨#[104, 105]⟩, tag := ⟨1⟩ }
    let toBroker : List (BrokerLink Nat Unit).Exchange :=
      [⟨.connect, .ok 0⟩, ⟨.isOpen 0, true⟩,
        ⟨.ask 0 (.publish "" "jobs" m.payload {}), .error (.connectionLost "gone")⟩,
        ⟨.isOpen 0, false⟩, ⟨.connect, .ok 1⟩, ⟨.isOpen 1, true⟩,
        ⟨.ask 1 (.publish "" "jobs" m.payload {}), .ok .confirmed⟩]
    let toCloud : List (Link.calls Cloud.calls Nat).Exchange :=
      [⟨.connect, .ok 0⟩, ⟨.close 0, .error (.io "gone")⟩, ⟨.connect, .ok 1⟩]
    let toBus : List (Link.calls Bus.calls Nat).Exchange :=
      [⟨.connect, .ok 0⟩,
        ⟨.isOpen 0, true⟩, ⟨.ask 0 ⟨m.payload⟩, .error (.rejected "busy")⟩,
        ⟨.isOpen 0, true⟩, ⟨.ask 0 ⟨m.payload⟩, .ok ()⟩]
    (∃ s, (course (doing BrokerSink.transmit BrokerSink.send) [.establish, .send m]
        (BrokerSink.ofPlace "k" "d" (.queue "jobs"), [])).Yields toBroker (s, [.delivered]) ∧
      Counted BrokerSink.said [.establish, .send m] toBroker s [.delivered]) ∧
    (∃ s, (course (doing CloudSink.transmit CloudSink.send) [.establish, .close, .establish]
        (CloudSink.ofRoute "k" "d" ⟨.queue "jobs", "o"⟩, [])).Yields toCloud (s, []) ∧
      Counted CloudSink.said [.establish, .close, .establish] toCloud s []) ∧
    ∃ s, (course (doing BusSink.transmit BusSink.send) [.establish, .transmit m, .send m]
        (BusSink.ofPlace "k" "d" (.queue "jobs"), [])).Yields toBus (s, [.delivered]) ∧
      Counted BusSink.said [.establish, .transmit m, .send m] toBus s [.delivered] := by
  intro m toBroker toCloud toBus
  refine ⟨?_, ?_, ?_⟩
  · have hrun : ∃ s, (course (doing BrokerSink.transmit BrokerSink.send) [.establish, .send m]
        (BrokerSink.ofPlace "k" "d" (.queue "jobs"), [])).Yields toBroker (s, [.delivered]) :=
      ⟨_, .call _ (.call _ (.call _ (.call _ (.call _ (.call _ (.call _ (.done _)))))))⟩
    obtain ⟨s, hs⟩ := hrun
    exact ⟨s, hs, (counters_count (σ := Nat) (δ := Unit) "k" "d" _ _).1 _ _ s hs⟩
  · have hrun : ∃ s, (course (doing CloudSink.transmit CloudSink.send)
        [.establish, .close, .establish]
        (CloudSink.ofRoute "k" "d" ⟨.queue "jobs", "o"⟩, [])).Yields toCloud (s, []) :=
      ⟨_, .call _ (.call _ (.call _ (.done _)))⟩
    obtain ⟨s, hs⟩ := hrun
    exact ⟨s, hs, (counters_count (σ := Nat) (δ := Unit) "k" "d" _ _).2.1 _ _ s hs⟩
  · have hrun : ∃ s, (course (doing BusSink.transmit BusSink.send)
        [.establish, .transmit m, .send m]
        (BusSink.ofPlace "k" "d" (.queue "jobs"), [])).Yields toBus (s, [.delivered]) :=
      ⟨_, .call _ (.call _ (.call _ (.call _ (.call _ (.done _)))))⟩
    obtain ⟨s, hs⟩ := hrun
    exact ⟨s, hs, (counters_count (σ := Nat) (δ := Unit) "k" "d" _ _).2.2 _ _ s hs⟩

end QueueRelay.Sink

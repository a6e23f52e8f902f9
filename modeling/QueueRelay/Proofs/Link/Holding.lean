/-
What a link leaves behind at its broker.

Of the sessions that a link was given only the one that it holds can report itself open.  One
that it let go of was closed, or did not report itself open, and what has ended at a broker
has ended for good.

A session is a connection and a channel, though, and it does not report itself open when only
its channel is gone.  A link that lets go of it for that reason leaves a connection behind.
So the connections of a link that are live are the one it holds and those of sessions that
were found closed; there can be more than one, and releasing the link does not end them.
-/
import QueueRelay.Proofs.Broker.Endings
import QueueRelay.Proofs.Link.Tenure
import QueueRelay.Proofs.Program.Yielding
import QueueRelay.Proofs.Relay.Source

namespace QueueRelay

open Program

theorem Source.Outside.onward {queue : String} {b b' : Broker} {mine : Nat → Prop}
    (h : Source.Outside queue b mine b') : b.Onward b' := by
  cases h with
  | published => exact .enqueueAll _ _ _ _
  | operated c => exact .applyToBroker c b
  | connected => exact .connect b
  | asked s _ k => exact .answer b s k
  | took t => exact .take b t
  | closed s => exact .closeConnection b _ _

namespace Link

/-- A link on a broker to which others do anything that leaves its channels alone. -/
def atBroker : Setting (BrokerLink Nat Broker.Stream) where
  State := Source
  moves u v := ∃ queue b, Source.Outside queue u.broker u.Mine b ∧ v = { u with broker := b }
  begins u _ v := v = u
  ends u c a v := u.Answers c a v

variable {held : Option Nat} {t u : List (BrokerLink Nat Broker.Stream).Exchange}
  {w w' : Source} {b b' : Broker} {i : Nat} {s : Broker.Session}

/-! ### What is kept -/

/-- The link was told that the session does not report itself open. -/
def Told (t : List (BrokerLink Nat Broker.Stream).Exchange) (i : Nat) : Prop :=
  ⟨.isOpen i, false⟩ ∈ t

/-- What has become of a session that is not held. -/
structure LetGo (t : List (BrokerLink Nat Broker.Stream).Exchange) (b : Broker) (i : Nat)
    (s : Broker.Session) : Prop where
  ended : b.Ended s
  told : s.connection ∈ b.connections → Told t i

theorem LetGo.onward (h : LetGo t b i s) (hb : b.Onward b')
    (u : List (BrokerLink Nat Broker.Stream).Exchange) : LetGo (t ++ u) b' i s where
  ended := hb.ended h.ended
  told := by
    intro hc
    have hbefore := (hb.connections _ hc).resolve_right fun hc =>
      Nat.not_lt.2 h.ended.connection hc.1
    exact List.mem_append_left _ (h.told hbefore)

/-- The sessions that a link was given, one of which may be held. -/
structure Held (held : Option Nat) (t : List (BrokerLink Nat Broker.Stream).Exchange)
    (w : Source) : Prop where
  given : ∀ s ∈ w.sessions, w.broker.Given s
  letGo : ∀ (i : Nat) s, w.sessions[i]? = some s → held ≠ some i → LetGo t w.broker i s

theorem held_new (b : Broker) : Held none [] { broker := b } where
  given := nofun
  letGo := nofun

/-- What goes on at the broker changes nothing about what is held. -/
theorem Held.onward (h : Held held t w) (hb : w.broker.Onward b')
    (u : List (BrokerLink Nat Broker.Stream).Exchange) :
    Held held (t ++ u) { w with broker := b' } where
  given := fun s hs => hb.given (h.given s hs)
  letGo := fun i s hs hi => (h.letGo i s hs hi).onward hb u

/-- The session that was held is let go of. -/
theorem Held.drop (h : Held (some i) t w)
    (hi : ∀ s, w.sessions[i]? = some s → LetGo t w.broker i s) : Held none t w where
  given := h.given
  letGo := by
    intro j s hs _
    by_cases hij : i = j
    · subst hij
      exact hi s hs
    · exact h.letGo j s hs fun heq => hij (Option.some.inj heq)

/-- A new session is held. -/
theorem Held.opened (h : Held none t w) (hc : w.broker.connect = (.ok s, b'))
    (u : List (BrokerLink Nat Broker.Stream).Exchange) :
    Held (some w.sessions.length) (t ++ u) { broker := b', sessions := w.sessions ++ [s] } := by
  have hb : w.broker.Onward b' := by
    have hconnect := Broker.Onward.connect w.broker
    rwa [hc] at hconnect
  have hold := h.onward hb u
  refine ⟨fun r hr => ?_, fun j r hr hj => ?_⟩
  · rcases List.mem_append.1 hr with hr | hr
    · exact hold.given r hr
    · rw [List.mem_singleton.1 hr]
      exact Broker.given_connect hc
  · rcases Nat.lt_trichotomy j w.sessions.length with hlt | heq | hgt
    · rw [List.getElem?_append_left hlt] at hr
      exact hold.letGo j r hr nofun
    · exact absurd (congrArg some heq.symm) hj
    · rw [List.getElem?_eq_none (by simpa using Nat.succ_le_of_lt hgt)] at hr
      cases hr

/-- A call on the session that is held may put another channel in its place. -/
theorem Held.asked (h : Held (some i) t w) (hs : w.sessions[i]? = some s) (k : Channel.Call)
    (u : List (BrokerLink Nat Broker.Stream).Exchange) :
    Held (some i) (t ++ u) { broker := (w.broker.answer s k).2.2
                             sessions := w.sessions.set i (w.broker.answer s k).2.1 } := by
  have hold := h.onward (Broker.Onward.answer w.broker s k) u
  refine ⟨fun r hr => ?_, fun j r hr hj => ?_⟩
  · rcases List.mem_or_eq_of_mem_set hr with hr | rfl
    · exact hold.given r hr
    · exact Broker.given_answer (h.given s (List.mem_of_getElem? hs)) k
  · have hij : i ≠ j := fun heq => hj (congrArg some heq)
    rw [List.getElem?_set_ne hij] at hr
    exact hold.letGo j r hr hj

/-- A session that was closed has ended, and its connection with it. -/
theorem letGo_closed (h : b.Given s) (t : List (BrokerLink Nat Broker.Stream).Exchange) :
    LetGo t (b.closeSession s) i s where
  ended :=
    { toGiven := (Broker.Onward.closeConnection b _ _).given h
      isOpen := by
        rw [← Bool.not_eq_true, Broker.isOpen_iff]
        exact fun ho => b.not_connected_closeSession s ho.1 }
  told := fun hc => absurd hc (b.not_connected_closeSession s)

/-- **Every step keeps to it**, whatever others do. -/
theorem invariant_held : atBroker.Invariant Tenure fun held t _ w => Held held t w where
  moves := by
    rintro held t c u v h ⟨queue, b, ho, rfl⟩
    simpa using h.onward ho.onward []
  begins := by
    rintro held t c u v - h rfl
    exact h
  ends := by
    rintro held t c a held' u v hr h he
    cases hr with
    | opened n =>
        rcases he with ⟨e, ha, -⟩ | ⟨e, b, -, ha, -⟩ | ⟨s, b, hc, ha, rfl⟩
        · cases ha
        · cases ha
        · cases ha
          exact h.opened hc _
    | refused e =>
        rcases he with ⟨e, -, rfl⟩ | ⟨e, b, hc, -, rfl⟩ | ⟨s, b, -, ha, -⟩
        · exact h.onward (.refl _) _
        · have hconnect := Broker.Onward.connect u.broker
          rw [hc] at hconnect
          exact h.onward hconnect _
        · cases ha
    | looked i isOpen =>
        obtain ⟨s, -, -, rfl⟩ := he
        exact h.onward (.refl _) _
    | lapsed i =>
        obtain ⟨s, hs, ho, rfl⟩ := he
        refine (h.onward (.refl _) _).drop fun r hr => ?_
        cases hs.symm.trans hr
        exact ⟨⟨h.given s (List.mem_of_getElem? hs), ho.symm⟩,
          fun _ => List.mem_append_right _ (List.mem_singleton_self _)⟩
    | closed i r =>
        obtain ⟨s, hs, rfl⟩ := he
        refine (h.onward (.closeConnection _ _ _) _).drop fun r hr => ?_
        cases hs.symm.trans hr
        exact letGo_closed (h.given s (List.mem_of_getElem? hs)) _
    | shut i r =>
        obtain ⟨s, -, rfl⟩ := he
        exact h.onward (.closeConnection _ _ _) _
    | asked i k a =>
        rcases he with ⟨e, -, rfl⟩ | ⟨s, hs, -, rfl⟩
        · exact h.onward (.refl _) _
        · exact h.asked hs k _

/-! ### What is seen of it -/

/-- Of the sessions of a link the one that is held is the only one that may report itself
open, and of their connections the only one that may be live, unless the link was told that
the session does not report itself open: then its channel is gone. -/
structure OneOpen (held : Option Nat) (t : List (BrokerLink Nat Broker.Stream).Exchange)
    (w : Source) : Prop where
  isOpen : ∀ (i : Nat) s, w.sessions[i]? = some s → w.broker.isOpen s = true → held = some i
  live : ∀ (i : Nat) s, w.sessions[i]? = some s → s.connection ∈ w.broker.connections →
    held = some i ∨ Told t i ∧
      ∀ lane, w.broker.channels.get? s.channel = some lane → lane.isOpen = false

theorem Held.oneOpen (h : Held held t w) : OneOpen held t w where
  isOpen := by
    intro i s hs ho
    by_contra hi
    rw [(h.letGo i s hs hi).ended.isOpen] at ho
    cases ho
  live := by
    intro i s hs hc
    refine or_iff_not_imp_left.2 fun hi => ?_
    have hgone := h.letGo i s hs hi
    refine ⟨hgone.told hc, fun lane hl => ?_⟩
    rw [← Bool.not_eq_true]
    intro ho
    have hopen : w.broker.isOpen s = true := Broker.isOpen_iff.2 ⟨hc, lane, hl, ho⟩
    rw [hgone.ended.isOpen] at hopen
    cases hopen

/-- Wherever the program comes to, at most one session is open, and with its result the
sessions that are open are `session` of it. -/
def KeepsOne {α : Type} (b : Broker) (p : Program (BrokerLink Nat Broker.Stream) α)
    (session : α → Option Nat) : Prop :=
  ∀ t k w, atBroker.Reached p { broker := b } t k w →
    ∃ held, OneOpen held t w ∧ ∀ a, k = .ready (.done a) → session a = held

theorem keepsOne_of_keeps {α : Type} {p : Program (BrokerLink Nat Broker.Stream) α}
    {session : α → Option Nat} (b : Broker)
    (hp : p.Keeps Tenure (fun a held => session a = held) none) : KeepsOne b p session := by
  intro t k w h
  obtain ⟨held, -, hrest, hheld⟩ := h.keeps hp invariant_held (held_new b)
  refine ⟨held, hheld.oneOpen, ?_⟩
  rintro a rfl
  exact hrest

/-- **Of the sessions of a link at most one is open.** -/
theorem keeps_one_session (b : Broker) :
    (∀ deeds : List (Deed (Channel.calls Broker.Stream)),
      KeepsOne b (course doing deeds ({} : Link Nat)) Link.session ∧
        KeepsOne b (course doing (deeds ++ [.release]) ({} : Link Nat)) fun _ => none) ∧
    ∀ (name endpoint : String) (place : BrokerPlace)
      (deeds : List (BrokerSink.Deed Broker.Stream)),
      KeepsOne b (course BrokerSink.doing deeds (.ofPlace name endpoint place))
          (fun s => s.link.session) ∧
        KeepsOne b (course BrokerSink.doing (deeds ++ [.close]) (.ofPlace name endpoint place))
          fun _ => none := by
  constructor
  · intro deeds
    exact ⟨keepsOne_of_keeps b (holds_course deeds),
      keepsOne_of_keeps b ((holds_course_release deeds).weaken fun _ _ h => h.symm)⟩
  · intro name endpoint place deeds
    exact ⟨keepsOne_of_keeps b (BrokerSink.holds_course name endpoint place deeds),
      keepsOne_of_keeps b
        ((BrokerSink.holds_course_close name endpoint place deeds).weaken fun _ _ h => h.symm)⟩

/-! ### Alone -/

/-- The answer to a call when nothing fails on the way, and the source afterwards. -/
def reply : (c : (BrokerLink Nat Broker.Stream).Call) →
    StateT Source Option ((BrokerLink Nat Broker.Stream).Answer c)
  | .connect => fun w =>
    match w.broker.connect with
    | (.ok s, b) => some (.ok w.sessions.length, { broker := b, sessions := w.sessions ++ [s] })
    | (.error e, b) => some (.error e, { w with broker := b })
  | .isOpen i => fun w => w.sessions[i]?.map fun s => (w.broker.isOpen s, w)
  | .close i => fun w =>
    w.sessions[i]?.map fun s => (.ok (), { w with broker := w.broker.closeSession s })
  | .ask i k => fun w => w.sessions[i]?.map fun s =>
    let (a, s, b) := w.broker.answer s k
    (a, { broker := b, sessions := w.sessions.set i s })

theorem answers_reply {c : (BrokerLink Nat Broker.Stream).Call}
    {a : (BrokerLink Nat Broker.Stream).Answer c} (h : reply c w = some (a, w')) :
    w.Answers c a w' := by
  cases c with
  | connect =>
      unfold reply at h
      dsimp only at h
      split at h
      · rename_i s b hb
        cases h
        exact .inr (.inr ⟨s, b, hb, rfl, rfl⟩)
      · rename_i e b hb
        cases h
        exact .inr (.inl ⟨e, b, hb, rfl, rfl⟩)
  | isOpen i =>
      obtain ⟨s, hs, heq⟩ := Option.map_eq_some_iff.1 h
      cases heq
      exact ⟨s, hs, rfl, rfl⟩
  | close i =>
      obtain ⟨s, hs, heq⟩ := Option.map_eq_some_iff.1 h
      cases heq
      exact ⟨s, hs, rfl⟩
  | ask i k =>
      obtain ⟨s, hs, heq⟩ := Option.map_eq_some_iff.1 h
      cases heq
      exact .inr ⟨s, hs, rfl, rfl⟩

/-- What a program comes to when nothing fails and nobody else acts, it can come to. -/
theorem reached_of_run {α : Type} {p q : Program (BrokerLink Nat Broker.Stream) α} {a : α}
    {v : Source} (h : atBroker.Reached p v t (.ready q) w)
    (hr : q.runIn reply w = some (a, w')) :
    ∃ u, atBroker.Reached p v u (.ready (.done a)) w' := by
  induction q generalizing t w with
  | done b =>
      cases hr
      exact ⟨t, h⟩
  | call c next ih =>
      obtain ⟨⟨r, m⟩, hc, hnext⟩ := Option.bind_eq_some_iff.1 hr
      exact ih r (.answered (.asked h rfl) r (answers_reply hc)) hnext

/-- A sink whose messages no queue takes, because their exchange does not exist. -/
def homeless : BrokerSink Nat := .ofPlace "sink" "amqp://localhost" (.exchange "absent" none)

/-- The sink is established and sends two messages. -/
def sendTwice : List (BrokerSink.Deed Broker.Stream) :=
  [.establish, .send { payload := ⟨#[1]⟩ }, .send { payload := ⟨#[2]⟩ }]

/-- How many of the connections of a link are live. -/
def liveCount (w : Source) : Nat :=
  w.sessions.countP fun s => w.broker.connections.contains s.connection

/-- What is left after things were done with the sink, when nothing fails. -/
def leftBy (deeds : List (BrokerSink.Deed Broker.Stream)) : Option (Option Nat × Nat) :=
  ((course BrokerSink.doing deeds homeless).runIn reply { broker := {} }).map fun r =>
    (r.1.link.session, liveCount r.2)

theorem reached_of_leftBy {deeds : List (BrokerSink.Deed Broker.Stream)} {n : Nat}
    (h : leftBy deeds = some (held, n)) :
    ∃ t s w, atBroker.Reached (course BrokerSink.doing deeds homeless) { broker := {} } t
      (.ready (.done s)) w ∧ s.link.session = held ∧ liveCount w = n := by
  obtain ⟨⟨s, w⟩, hrun, heq⟩ := Option.map_eq_some_iff.1 h
  obtain ⟨hs, hn⟩ := Prod.mk.inj heq
  obtain ⟨t, ht⟩ := reached_of_run .start hrun
  exact ⟨t, s, w, ht, hs, hn⟩

/-- The session opened for the second message is open, and the connection of the first one
is live beside it. -/
theorem keeps_one_session_of_two : ∃ t s w,
    atBroker.Reached (course BrokerSink.doing sendTwice homeless) { broker := {} } t
      (.ready (.done s)) w ∧ liveCount w = 2 ∧ OneOpen (some 1) t w := by
  have hleft : leftBy sendTwice = some (some 1, 2) := by decide +kernel
  obtain ⟨t, s, w, h, hs, hn⟩ := reached_of_leftBy hleft
  obtain ⟨held, hone, hheld⟩ :=
    ((keeps_one_session {}).2 "sink" "amqp://localhost" (.exchange "absent" none)
      sendTwice).1 t _ w h
  have hone' : held = some 1 := (hheld s rfl).symm.trans hs
  subst hone'
  exact ⟨t, s, w, h, hn, hone⟩

/-- There can be two live connections, and one is left when the sink was closed. -/
theorem connections_left_behind :
    (¬ ∀ deeds t k w, atBroker.Reached (course BrokerSink.doing deeds homeless)
        { broker := {} } t k w → liveCount w ≤ 1) ∧
      ¬ ∀ deeds t s w, atBroker.Reached (course BrokerSink.doing (deeds ++ [.close]) homeless)
        { broker := {} } t (.ready (.done s)) w → liveCount w = 0 := by
  constructor
  · intro h
    have hleft : leftBy sendTwice = some (some 1, 2) := by decide +kernel
    obtain ⟨t, s, w, hreached, -, hn⟩ := reached_of_leftBy hleft
    have hle := h sendTwice t _ w hreached
    rw [hn] at hle
    exact absurd hle (by decide)
  · intro h
    have hleft : leftBy (sendTwice ++ [.close]) = some (none, 1) := by decide +kernel
    obtain ⟨t, s, w, hreached, -, hn⟩ := reached_of_leftBy hleft
    have heq := h sendTwice t s w hreached
    rw [hn] at heq
    cases heq

end Link

end QueueRelay

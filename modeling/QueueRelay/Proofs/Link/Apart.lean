/-
What is out on the connections of a link.

The owner of a link may consume through it, but here nobody does: a link that has no stream is
never given a delivery, and others who keep to connections of their own are given theirs on
channels of those.  So whatever is out at the broker is out on the channel of a connection that
is not the link's, at every moment of everything that can be done with the link, and to close
one of its sessions gives no copy back to any queue.

For this the connections have to be told apart by their numbers.  A new connection has a number
that no connection has had, and no delivery is out on a channel of a connection that is not
there yet.
-/
import QueueRelay.Proofs.Link.Holding
import QueueRelay.Proofs.Relay.Custody

namespace QueueRelay

open Program Broker

namespace Source

variable {w : Source} {b b' : Broker} {k : Nat} {held : Option Nat}

/-- A channel of a connection that is not the connection of any of the sessions. -/
def Foreign (w : Source) (channel : Nat) : Prop :=
  ∃ lane, w.broker.channels.get? channel = some lane ∧
    ∀ s ∈ w.sessions, lane.connection ≠ s.connection

/-- What others do to the broker, on channels of connections of their own. -/
inductive Beside (w : Source) : Broker → Prop
  | published (exchange key : String) (payload : ByteArray) :
      Beside w (w.broker.publishOutside exchange key payload).2
  | operated (c : Simulation.BrokerCall) : Beside w (Simulation.applyToBroker c w.broker)
  | connected : Beside w w.broker.connect.2
  | asked (s : Session) (hs : w.Foreign s.channel) (k : Channel.Call) :
      Beside w (w.broker.answer s k).2.2
  | took (t : Stream) (ht : w.Foreign t.session.channel) : Beside w (w.broker.take t).2
  | closed (s : Session) : Beside w (w.broker.closeSession s)

theorem Beside.onward (h : w.Beside b) : w.broker.Onward b := by
  cases h with
  | published => exact .enqueueAll _ _ _ _
  | operated c => exact .applyToBroker c _
  | connected => exact .connect _
  | asked s _ k => exact .answer _ s k
  | took t => exact .take _ t
  | closed s => exact .closeConnection _ _ _

/-- What others do is not noticed on the connections of the link. -/
theorem Beside.unnoticed (hb : w.broker.Sound) (h : w.Beside b) :
    ∃ queue, Unnoticed queue (fun k => ¬ w.Foreign k) w.broker b := by
  cases h with
  | published exchange key payload => exact ⟨"", follows_publishOutside hb exchange key payload⟩
  | operated c => exact ⟨"", follows_applyToBroker hb c⟩
  | connected => exact ⟨"", follows_connect hb⟩
  | asked s hs k =>
      obtain ⟨queue, -, hrest⟩ := exists_queue_at_rest w.broker ""
      exact ⟨queue, follows_answer hb s k fun _ l hl _ => hrest l hl⟩
  | took t ht =>
      obtain ⟨queue, hne, hrest⟩ := exists_queue_at_rest w.broker t.queue
      exact ⟨queue, follows_take_elsewhere hb hne.symm (not_not.2 ht) fun l hl _ => hrest l hl⟩
  | closed s => exact ⟨"", follows_closeSession hb s⟩

/-! ### What is kept -/

/-- Nothing is out on the connections of the link, and the session that is held is there. -/
structure Clear (held : Option Nat) (w : Source) : Prop where
  sound : w.broker.Sound
  numbered : ∀ c ∈ w.broker.connections, c ≤ w.broker.lastId
  owned : ∀ s ∈ w.sessions, w.broker.Owns s
  foreign : ∀ x ∈ w.broker.loans, w.Foreign x.channel
  handle : ∀ i, held = some i → i < w.sessions.length

theorem clear_new : Clear none { broker := {} } where
  sound := placed_new.sound
  numbered := nofun
  owned := nofun
  foreign := nofun
  handle := nofun

theorem Clear.drop (h : Clear held w) : Clear none w := { h with handle := nofun }

theorem numbered_onward (h : ∀ c ∈ b.connections, c ≤ b.lastId) (ho : b.Onward b') :
    ∀ c ∈ b'.connections, c ≤ b'.lastId := by
  intro c hc
  rcases ho.connections c hc with hc | ⟨-, hc⟩
  · exact Nat.le_trans (h c hc) ho.lastId
  · exact hc

/-- The broker changes, and the sessions at most in their channels. -/
theorem Clear.change (h : Clear held w) {queue : String}
    (hf : Unnoticed queue (fun k => ¬ w.Foreign k) w.broker b) (ho : w.broker.Onward b)
    {sessions : List Session} (hlength : sessions.length = w.sessions.length)
    (howned : ∀ s ∈ sessions, b.Owns s ∧ ∃ r ∈ w.sessions, s.connection = r.connection) :
    Clear held { broker := b, sessions := sessions } where
  sound := hf.sound
  numbered := numbered_onward h.numbered ho
  owned := fun s hs => (howned s hs).1
  foreign := by
    intro x hx
    have hbefore : w.Foreign x.channel := by
      rcases hf.loans x hx with hx | ⟨-, hx⟩
      · exact h.foreign x hx
      · exact not_not.1 hx
    obtain ⟨lane, hl, hne⟩ := hbefore
    obtain ⟨lane', hl', hconn⟩ := hf.lanes _ lane hl
    refine ⟨lane', hl', fun s hs => ?_⟩
    obtain ⟨-, r, hr, heq⟩ := howned s hs
    rw [hconn, heq]
    exact hne r hr
  handle := fun i hi => hlength ▸ h.handle i hi

theorem Clear.goOn (h : Clear held w) {queue : String}
    (hf : Unnoticed queue (fun k => ¬ w.Foreign k) w.broker b) (ho : w.broker.Onward b) :
    Clear held { w with broker := b } :=
  h.change hf ho rfl fun s hs => ⟨hf.owns (h.owned s hs), s, hs, rfl⟩

/-- Something is only out on a connection whose number was given. -/
theorem Clear.connection_le (h : Clear held w) {x : Loan} (hx : x ∈ w.broker.loans) {lane : Lane}
    (hl : w.broker.channels.get? x.channel = some lane) : lane.connection ≤ w.broker.lastId := by
  obtain ⟨lane', hl', hd⟩ := exists_lane_of_mem_loans h.sound hx
  cases hl.symm.trans hl'
  cases ho : lane.isOpen with
  | true => exact h.numbered _ (h.sound.anchored _ lane hl ho)
  | false =>
      rw [h.sound.emptied _ lane hl ho] at hd
      cases hd

/-- A new connection has a number that was not given before. -/
theorem lastId_lt_of_connect {b b' : Broker} {s : Session} (h : b.connect = (.ok s, b')) :
    b.lastId < s.connection := by
  unfold Broker.connect at h
  split at h
  · cases h
  · cases h
    exact Nat.lt_succ_self _

/-- A new session is on a connection on which nothing is out. -/
theorem Clear.opened (h : Clear held w) {s : Session} (hc : w.broker.connect = (.ok s, b)) :
    Clear (some w.sessions.length) { broker := b, sessions := w.sessions ++ [s] } := by
  have hf : Unnoticed "" (fun _ => True) w.broker w.broker.connect.2 := follows_connect h.sound
  have ho := Onward.connect w.broker
  rw [hc] at hf ho
  refine ⟨hf.sound, numbered_onward h.numbered ho, fun r hr => ?_, fun x hx => ?_, fun i hi => ?_⟩
  · rcases List.mem_append.1 hr with hr | hr
    · exact hf.owns (h.owned r hr)
    · rw [List.mem_singleton.1 hr]
      exact (connect_ok h.sound hc).1
  · have hx : x ∈ w.broker.loans := (hf.loans x hx).resolve_right fun hx => hx.2 trivial
    obtain ⟨lane, hl, hne⟩ := h.foreign x hx
    obtain ⟨lane', hl', hconn⟩ := hf.lanes _ lane hl
    refine ⟨lane', hl', fun r hr => hconn ▸ ?_⟩
    rcases List.mem_append.1 hr with hr | hr
    · exact hne r hr
    · rw [List.mem_singleton.1 hr]
      exact Nat.ne_of_lt (Nat.lt_of_le_of_lt (h.connection_le hx hl) (lastId_lt_of_connect hc))
  · cases hi
    simp

theorem connection_answer (b : Broker) (s : Session) (k : Channel.Call) :
    (b.answer s k).2.1.connection = s.connection := by
  cases k with
  | reopen =>
      show (b.reopen s).2.1.connection = s.connection
      unfold reopen
      split <;> rfl
  | _ => rfl

theorem owns_answer (h : b.Sound) {s : Session} (hs : b.Owns s) (k : Channel.Call) :
    (b.answer s k).2.2.Owns (b.answer s k).2.1 := by
  obtain ⟨queue, -, hrest⟩ := exists_queue_at_rest b ""
  have hf : Unnoticed queue (fun _ => True) b (b.answer s k).2.2 :=
    follows_answer h s k fun _ l hl _ => hrest l hl
  cases k with
  | reopen =>
      show (b.reopen s).2.2.Owns (b.reopen s).2.1
      unfold reopen
      split
      · exact owns_openChannel _
      · exact hs
  | _ => exact hf.owns hs

/-- A call on a session may put another channel of its connection in its place. -/
theorem Clear.asked (h : Clear held w) {i : Nat} {s : Session} (hs : w.sessions[i]? = some s)
    (k : Channel.Call) :
    Clear held { broker := (w.broker.answer s k).2.2
                 sessions := w.sessions.set i (w.broker.answer s k).2.1 } := by
  obtain ⟨queue, -, hrest⟩ := exists_queue_at_rest w.broker ""
  have hf : Unnoticed queue (fun k => ¬ w.Foreign k) w.broker (w.broker.answer s k).2.2 :=
    follows_answer h.sound s k fun _ l hl _ => hrest l hl
  have hm := List.mem_of_getElem? hs
  refine h.change hf (.answer _ s k) (List.length_set ..) fun r hr => ?_
  rcases List.mem_or_eq_of_mem_set hr with hr | rfl
  · exact ⟨hf.owns (h.owned r hr), r, hr, rfl⟩
  · exact ⟨owns_answer h.sound (h.owned s hm) k, s, hm, connection_answer _ s k⟩

theorem Clear.closed (h : Clear held w) (s : Session) :
    Clear held { w with broker := w.broker.closeSession s } :=
  have hf : Unnoticed "" (fun k => ¬ w.Foreign k) w.broker (w.broker.closeSession s) :=
    follows_closeSession h.sound s
  h.goOn hf (.closeConnection _ _ _)

end Source

namespace Link

open Source

variable {w w' : Source} {held : Option Nat}

/-- A link on a broker to which others do anything on connections of their own. -/
def amongOthers : Setting (BrokerLink Nat Broker.Stream) :=
  { atBroker with moves := fun u v => ∃ b, u.Beside b ∧ v = { u with broker := b } }

/-- **Nothing is ever out on the connections of a link.** -/
theorem invariant_clear : amongOthers.Invariant Tenure fun held _ _ w => Clear held w where
  moves := by
    rintro held t c u v h ⟨b, hb, rfl⟩
    obtain ⟨queue, hf⟩ := hb.unnoticed h.sound
    exact h.goOn hf hb.onward
  begins := by
    rintro held t c u v - h rfl
    exact h
  ends := by
    rintro held t c a held' u v hr h he
    cases hr with
    | opened n =>
        rcases he with ⟨e, ha, -⟩ | ⟨e, b, -, ha, -⟩ | ⟨s, b, hc, ha, rfl⟩
        · cases ha
        · cases ha
        · cases ha
          exact h.opened hc
    | refused e =>
        rcases he with ⟨e, -, rfl⟩ | ⟨e, b, hc, -, rfl⟩ | ⟨s, b, -, ha, -⟩
        · exact h
        · have hf : Unnoticed "" (fun k => ¬ u.Foreign k) u.broker u.broker.connect.2 :=
            follows_connect h.sound
          have ho := Onward.connect u.broker
          rw [hc] at hf ho
          exact h.goOn hf ho
        · cases ha
    | looked i isOpen =>
        obtain ⟨s, -, -, rfl⟩ := he
        exact h
    | lapsed i =>
        obtain ⟨s, -, -, rfl⟩ := he
        exact h.drop
    | closed i r =>
        obtain ⟨s, -, rfl⟩ := he
        exact (h.closed s).drop
    | shut i r =>
        obtain ⟨s, -, rfl⟩ := he
        exact h.closed s
    | asked i k a =>
        rcases he with ⟨e, -, rfl⟩ | ⟨s, hs, -, rfl⟩
        · exact h
        · exact h.asked hs k

end Link

end QueueRelay

/-
What a relay has out, read off its standing.

A relay consumes with one message in hand at a time, and the broker has to agree: nothing of
the queue is out while the relay holds no message, and while it holds one, what is out is
that message, on the relay's session.  Between a failure and the closing of the old session
something may still be out there, but nowhere else.  `Tallies` says this for each standing.

Every step keeps it.  Two of them carry the weight.  A session is only left behind when it
was closed, or when it was found not to be open, and in both cases the broker has taken back
what was out on it.  And a delivery is only asked for where nothing is out, so that it
becomes the only one.
-/
import QueueRelay.Proofs.Relay.Source

namespace QueueRelay

open Broker Relay

variable {queue : String} {base : Broker} {w w' : Source} {x y : Standing Nat Stream}

/-- The loan is neither from the queue nor on the session. -/
structure Broker.Loan.Foreign (queue : String) (s : Broker.Session) (l : Loan) : Prop where
  ofQueue : l.delivery.queue ≠ queue
  channel : l.channel ≠ s.channel

namespace Relay.Standing

/-- What the relay itself may have out on its session. -/
def Lends (queue : String) (s : Broker.Session) : Standing Nat Stream → Loan → Prop
  | holding _ _ m, l | judged _ _ m _, l => l.Of s queue m
  | spoiled _, l => l.channel = s.channel
  | _, _ => False

/-- What may be out on the broker of the source. -/
def Tallies (queue : String) (w : Source) (x : Standing Nat Stream) : Prop :=
  match x.session? with
  | none => ∀ l ∈ w.broker.loans, l.delivery.queue ≠ queue
  | some h => ∃ s, w.sessions[h]? = some s ∧ (∀ t, x.stream? = some t → t = ⟨s, queue⟩) ∧
    ∀ l ∈ w.broker.loans, l.Foreign queue s ∨ x.Lends queue s l

theorem channel_of_lends {s : Broker.Session} {l : Loan} (h : x.Lends queue s l) :
    l.channel = s.channel := by
  cases x with
  | holding | judged => exact h.channel
  | spoiled => exact h
  | apart | joined | limited | consuming | lapsed => exact h.elim

end Relay.Standing

namespace Source

/-- The source is in order while the relay stands at `x`; `base` is its broker as it was at
some time before. -/
structure Ordered (queue : String) (base : Broker) (w : Source) (x : Standing Nat Stream) :
    Prop where
  sound : w.broker.Sound
  /-- The relay's sessions are the broker's own. -/
  owned : ∀ s ∈ w.sessions, w.broker.Owns s
  /-- The copies of the queue are accounted for, if they were. -/
  balanced : base.Balanced queue → w.broker.Balanced queue
  tallies : x.Tallies queue w

/-- The effect of an exchange of the relay on its source. -/
def Turns (w : Source) (e : (calls Nat Stream).Exchange) (w' : Source) : Prop :=
  match e with
  | ⟨.source k, a⟩ => w.Answers k a w'
  | ⟨.next t, a⟩ => w.Brings t a w'
  | ⟨.establish, _⟩ | ⟨.send _, _⟩ | ⟨.closeBackend, _⟩ | ⟨.pause _, _⟩ => w' = w

/-! ### Changes of the broker -/

/-- The source stays in order when its broker goes on, if what is out fits the new
standing. -/
theorem Ordered.follow {out : Loan → Prop} {gone : List Copy} (h : w.Ordered queue base x)
    (hf : Follows queue out gone w.broker w'.broker)
    (hs : ∀ s ∈ w'.sessions, s ∈ w.sessions ∨ w'.broker.Owns s) (ht : y.Tallies queue w') :
    w'.Ordered queue base y where
  sound := hf.sound
  owned := by
    intro s hm
    rcases hs s hm with hm | howns
    · exact hf.owns (h.owned s hm)
    · exact howns
  balanced := fun hb => hf.balanced (h.balanced hb)
  tallies := ht

/-- A source that is in order is so from now on. -/
theorem Ordered.rebase (h : w.Ordered queue base x) : w.Ordered queue w.broker x :=
  { h with balanced := id }

/-- What others do leaves the relay with what it had. -/
theorem tallies_unnoticed (h : x.Tallies queue w) {b : Broker}
    (hl : ∀ l ∈ b.loans, l ∈ w.broker.loans ∨ (l.delivery.queue ≠ queue ∧ ¬ w.Mine l.channel)) :
    x.Tallies queue { w with broker := b } := by
  unfold Standing.Tallies at h ⊢
  split at h
  · intro l hm
    rcases hl l hm with hm | ⟨hq, -⟩
    · exact h l hm
    · exact hq
  · obtain ⟨s, hs, ht, h⟩ := h
    refine ⟨s, hs, ht, ?_⟩
    intro l hm
    rcases hl l hm with hm | ⟨hq, hmine⟩
    · exact h l hm
    · refine .inl ⟨hq, ?_⟩
      intro hc
      exact hmine ⟨s, List.mem_of_getElem? hs, hc.symm⟩

theorem Ordered.unnoticed (h : w.Ordered queue base x) {b : Broker}
    (hf : Unnoticed queue w.Mine w.broker b) : Ordered queue base { w with broker := b } x :=
  h.follow hf (fun _ hm => .inl hm) (tallies_unnoticed h.tallies hf.loans)

/-- Nothing of the queue is out on a session of somebody else. -/
theorem elsewhere_of_not_mine (h : x.Tallies queue w) {s : Broker.Session}
    (hs : ¬ w.Mine s.channel) : w.broker.Elsewhere queue s := by
  intro l hm hc
  unfold Standing.Tallies at h
  split at h
  · exact h l hm
  · obtain ⟨s', hs', -, h⟩ := h
    rcases h l hm with hfor | hlends
    · exact hfor.ofQueue
    · have hchannel : s'.channel = s.channel :=
        (Standing.channel_of_lends hlends).symm.trans hc
      exact absurd ⟨s', List.mem_of_getElem? hs', hchannel⟩ hs

/-- What others do is not noticed by those who have everything of the queue that is out. -/
theorem Outside.unnoticed {b b' : Broker} {mine : Nat → Prop} (h : b.Sound)
    (helse : ∀ s : Broker.Session, ¬ mine s.channel → b.Elsewhere queue s)
    (ho : Outside queue b mine b') : Unnoticed queue mine b b' := by
  cases ho with
  | published exchange key payload => exact follows_publishOutside h exchange key payload
  | operated c => exact follows_applyToBroker h c
  | connected => exact follows_connect h
  | asked s hs k => exact follows_answer h s k fun _ => helse s hs
  | took t hq ht => exact follows_take_elsewhere h hq ht (helse t.session ht)
  | closed s => exact follows_closeSession h s

/-- What others do is not noticed by the relay. -/
theorem unnoticed_outside (h : w.Ordered queue base x) {b : Broker}
    (ho : Outside queue w.broker w.Mine b) : Unnoticed queue w.Mine w.broker b :=
  ho.unnoticed h.sound fun _ hs => elsewhere_of_not_mine h.tallies hs

theorem Ordered.outside (h : w.Ordered queue base x) {b : Broker}
    (ho : Outside queue w.broker w.Mine b) : Ordered queue base { w with broker := b } x :=
  h.unnoticed (unnoticed_outside h ho)

theorem Ordered.ackedFrom_outside (h : w.Ordered queue base x) {b : Broker}
    (ho : Outside queue w.broker w.Mine b) : b.ackedFrom queue = w.broker.ackedFrom queue :=
  (unnoticed_outside h ho).acked.trans (List.append_nil _)

/-! ### Steps on the link -/

theorem queue_ne_of_vacant (h : x.Vacant) (ht : x.Tallies queue w) :
    ∀ l ∈ w.broker.loans, l.delivery.queue ≠ queue := by
  cases h with
  | apart => exact ht
  | lapsed j =>
      obtain ⟨s, -, -, ht⟩ := ht
      intro l hm
      rcases ht l hm with hfor | hlends
      · exact hfor.ofQueue
      · exact hlends.elim

/-- While nothing is lent, all that is out is foreign to the relay. -/
theorem foreign_of_not_mem {s : Broker.Session} {P : Loan → Prop}
    (hP : ∀ l, P l → l.channel = s.channel)
    (ht : ∀ l ∈ w.broker.loans, l.Foreign queue s ∨ P l)
    (hl : ∀ l ∈ w.broker.loans, l.channel ≠ s.channel) :
    ∀ l ∈ w.broker.loans, l.Foreign queue s := by
  intro l hm
  rcases ht l hm with hfor | hp
  · exact hfor
  · exact absurd (hP l hp) (hl l hm)

/-- What is out on the session in use is lent to the relay. -/
theorem tallies_session {j : Nat} (hx : x.session? = some j) (ht : x.Tallies queue w) :
    ∃ s, w.sessions[j]? = some s ∧
      ∀ l ∈ w.broker.loans, l.Foreign queue s ∨ l.channel = s.channel := by
  unfold Standing.Tallies at ht
  rw [hx] at ht
  obtain ⟨s, hs, -, ht⟩ := ht
  exact ⟨s, hs, fun l hm => (ht l hm).imp id Standing.channel_of_lends⟩

/-- A new session is in place, with nothing out. -/
theorem ordered_connected (h : w.Ordered queue base x) (hx : x.Vacant) {s : Broker.Session}
    {b : Broker} (hb : w.broker.connect = (.ok s, b)) :
    Ordered queue base { broker := b, sessions := w.sessions ++ [s] } (.joined w.sessions.length) ∧
      b.ackedFrom queue = w.broker.ackedFrom queue := by
  have hf : Unnoticed queue (fun _ => True) w.broker b := by
    have hconnect : Unnoticed queue (fun _ => True) w.broker w.broker.connect.2 :=
      follows_connect h.sound
    rwa [hb] at hconnect
  obtain ⟨howns, hfree⟩ := connect_ok h.sound hb
  refine ⟨h.follow hf ?_ ?_, hf.acked.trans (List.append_nil _)⟩
  · intro s' hm
    rcases List.mem_append.1 hm with hm | hm
    · exact .inl hm
    · rw [List.mem_singleton.1 hm]
      exact .inr howns
  · refine ⟨s, by simp, nofun, ?_⟩
    intro l hm
    refine .inl ⟨?_, hfree l hm⟩
    rcases hf.loans l hm with hm | ⟨-, hnot⟩
    · exact queue_ne_of_vacant hx h.tallies l hm
    · exact absurd trivial hnot

theorem ordered_refused (h : w.Ordered queue base x) (hx : x.Vacant) {e : LinkError}
    {b : Broker} (hb : w.broker.connect = (.error e, b)) :
    Ordered queue base { w with broker := b } .apart ∧
      b.ackedFrom queue = w.broker.ackedFrom queue := by
  have hf : Unnoticed queue w.Mine w.broker b := by
    have hconnect : Unnoticed queue w.Mine w.broker w.broker.connect.2 :=
      follows_connect h.sound
    rwa [hb] at hconnect
  refine ⟨h.follow hf (fun _ hm => .inl hm) ?_, hf.acked.trans (List.append_nil _)⟩
  intro l hm
  rcases hf.loans l hm with hm | ⟨hq, -⟩
  · exact queue_ne_of_vacant hx h.tallies l hm
  · exact hq

/-- A session that is not open has nothing out. -/
theorem ordered_lapsed (h : w.Ordered queue base x) {j : Nat} (hx : x.Attached j)
    {s : Broker.Session} (hs : w.sessions[j]? = some s) (ho : w.broker.isOpen s = false) :
    w.Ordered queue base (.lapsed j) := by
  obtain ⟨s', hs', ht⟩ := tallies_session hx.session h.tallies
  cases hs.symm.trans hs'
  have hfree := not_mem_loans_of_not_isOpen h.sound (h.owned s (List.mem_of_getElem? hs)) ho
  have hfor : ∀ l ∈ w.broker.loans, l.Foreign queue s :=
    foreign_of_not_mem (fun _ => id) ht hfree
  exact { h with tallies := ⟨s, hs, nofun, fun l hm => .inl (hfor l hm)⟩ }

/-- A session that was closed has nothing out. -/
theorem ordered_closed (h : w.Ordered queue base x) {j : Nat} (hx : x.Closable j)
    {s : Broker.Session} (hs : w.sessions[j]? = some s) :
    Ordered queue base { w with broker := w.broker.closeSession s } .apart ∧
      (w.broker.closeSession s).ackedFrom queue = w.broker.ackedFrom queue := by
  obtain ⟨s', hs', ht⟩ := tallies_session hx.session h.tallies
  cases hs.symm.trans hs'
  have hf : Unnoticed queue (fun _ => True) w.broker (w.broker.closeSession s) :=
    follows_closeSession h.sound s
  have hfree := not_mem_loans_closeSession h.sound (h.owned s (List.mem_of_getElem? hs))
  refine ⟨h.follow hf (fun _ hm => .inl hm) ?_, hf.acked.trans (List.append_nil _)⟩
  intro l hm
  rcases hf.loans l hm with hmem | ⟨-, hnot⟩
  · rcases ht l hmem with hfor | hchannel
    · exact hfor.ofQueue
    · exact absurd hchannel (hfree l hm)
  · exact absurd trivial hnot

end Source

end QueueRelay

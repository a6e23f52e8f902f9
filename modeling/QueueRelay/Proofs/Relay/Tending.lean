/-
What a relay has out when it is not alone.

A relay that shares its queue knows nothing about the copies that others have.  What it has
out itself can still be read off its standing, channel by channel: on the channel of its
session there is what `Standing.Lends` says and nothing more.  `Tended` keeps that, and what
else a step needs.

The others need to know as little about the relay.  A step changes what is out on its own
channels only; a channel that it gets is one that nobody had; and what went for good is the
delivery that it acknowledges.  `Stirs` is what a step looks like to them.
-/
import QueueRelay.Proofs.Broker.Deliveries
import QueueRelay.Proofs.Relay.Order

namespace QueueRelay

open Broker Relay

variable {queue : String} {c : Settings} {w w' : Source} {x y : Standing Nat Stream}
  {e : (calls Nat Stream).Exchange} {settled : List Event}

namespace Relay.Standing

/-- What may be out on the channel of the relay's session. -/
def Tends (queue : String) (w : Source) (x : Standing Nat Stream) : Prop :=
  ∀ j, x.session? = some j → ∃ s, w.sessions[j]? = some s ∧
    (∀ t, x.stream? = some t → t = ⟨s, queue⟩) ∧
    ∀ l ∈ w.broker.loans, l.channel = s.channel → x.Lends queue s l

/-- The exchange acknowledges the message in hand, which the backend took charge of, and the
broker wrote down that the delivery which brought it is acknowledged. -/
inductive StrikesOff (queue : String) :
    Standing Nat Stream → (calls Nat Stream).Exchange → Event → Prop
  | acked (j : Nat) (s : Broker.Session) (m : Message) (a : Handed) (d : Delivery) (u : Unit)
      (ha : a.isDelivered = true) (hq : d.queue = queue) (hd : d.copy.Is m) :
      StrikesOff queue (.judged j ⟨s, queue⟩ m a) ⟨.source (.ask j (.ack m.tag)), .ok u⟩
        (.acked s.channel m.tag.value d)

end Relay.Standing

namespace Source

/-- The broker is in order, and so is what the relay has out there. -/
structure Tended (queue : String) (w : Source) (x : Standing Nat Stream) : Prop where
  placed : w.broker.Placed
  /-- The relay's sessions are the broker's own. -/
  owned : ∀ s ∈ w.sessions, w.broker.Owns s
  tends : x.Tends queue w

/-- What a step of one relay looks like to those with whom it shares its broker. -/
structure Stirs (settled : List Event) (w w' : Source) : Prop where
  shifts : Shifts settled w.broker w'.broker
  lanes : ∀ s, w.broker.Owns s → w'.broker.Owns s
  /-- What goes out goes to the relay. -/
  loans : ∀ l ∈ w'.broker.loans, l ∈ w.broker.loans ∨ w'.Mine l.channel
  /-- What is out with the relay stays with it. -/
  kept : ∀ l ∈ w'.broker.loans, w.Mine l.channel → w'.Mine l.channel
  /-- A channel that the relay gets was nobody's. -/
  new : ∀ s ∈ w'.sessions, s ∈ w.sessions ∨ w.broker.lastId < s.channel

/-! ### Steps that the broker does not see -/

theorem Stirs.refl (h : w.broker.Placed) : Stirs [] w w where
  shifts := .refl h
  lanes := fun _ hs => hs
  loans := fun _ hl => .inl hl
  kept := fun _ _ hm => hm
  new := fun _ hs => .inl hs

/-- A standing with the same session and stream, under which at least as much may be out. -/
theorem Tended.weaken (h : w.Tended queue x) (hy : y.session? = x.session?)
    (ht : ∀ t, y.stream? = some t → x.stream? = some t)
    (hl : ∀ s l, x.Lends queue s l → l.channel = s.channel → y.Lends queue s l) :
    w.Tended queue y where
  placed := h.placed
  owned := h.owned
  tends := by
    intro j hj
    obtain ⟨s, hs, hstream, htends⟩ := h.tends j (hy.symm.trans hj)
    refine ⟨s, hs, fun t htt => hstream t (ht t htt), ?_⟩
    intro l hm hc
    exact hl s l (htends l hm hc) hc

/-- A session may be taken for spoiled at any time. -/
theorem Tended.spoiled {j : Nat} (h : w.Tended queue x) (hx : x.session? = some j) :
    w.Tended queue (.spoiled j) :=
  h.weaken hx.symm nofun fun _ _ _ hc => hc

/-- A session that is not open has nothing out. -/
theorem Tended.lapsed {j : Nat} (h : w.Tended queue x) {s : Broker.Session}
    (hs : w.sessions[j]? = some s) (ho : w.broker.isOpen s = false) :
    w.Tended queue (.lapsed j) where
  placed := h.placed
  owned := h.owned
  tends := by
    intro i hi
    cases hi
    refine ⟨s, hs, nofun, ?_⟩
    intro l hm hc
    have howns := h.owned s (List.mem_of_getElem? hs)
    exact absurd hc (not_mem_loans_of_not_isOpen h.placed.sound howns ho l hm)

/-! ### Steps on the broker -/

/-- What a relay has out is as it was when its broker goes on without it. -/
theorem Tended.goOn (h : w.Tended queue x) {b : Broker} (hp : b.Placed)
    (howns : ∀ s, w.broker.Owns s → b.Owns s)
    (hl : ∀ l ∈ b.loans, w.Mine l.channel → l ∈ w.broker.loans) :
    Tended queue { w with broker := b } x where
  placed := hp
  owned := fun s hs => howns s (h.owned s hs)
  tends := by
    intro j hj
    obtain ⟨s, hs, hstream, htends⟩ := h.tends j hj
    refine ⟨s, hs, hstream, ?_⟩
    intro l hm hc
    exact htends l (hl l hm ⟨s, List.mem_of_getElem? hs, hc.symm⟩) hc

/-- A step by which the relay's sessions stay as they are. -/
theorem stirs_of_follows {out : Loan → Prop} {gone : List Copy} {b : Broker}
    (hs : Shifts settled w.broker b) (hf : Follows queue out gone w.broker b)
    (hout : ∀ l, out l → w.Mine l.channel) : Stirs settled w { w with broker := b } where
  shifts := hs
  lanes := fun _ ho => hf.owns ho
  loans := fun l hl => (hf.loans l hl).imp id (hout l)
  kept := fun _ _ hm => hm
  new := fun _ hm => .inl hm

/-- What a step on the broker leaves of a relay whose sessions stay as they are. -/
theorem tended_of_stirs {b : Broker} (h : w.Tended queue x)
    (hs : Stirs settled w { w with broker := b }) (ht : y.Tends queue { w with broker := b }) :
    Tended queue { w with broker := b } y where
  placed := hs.shifts.placed
  owned := fun s hm => hs.lanes s (h.owned s hm)
  tends := ht

/-- A change under which nothing goes out. -/
abbrev Silent (queue : String) (b b' : Broker) : Prop := Unnoticed queue (fun _ => True) b b'

theorem loans_of_silent {b b' : Broker} (h : Silent queue b b') : ∀ l ∈ b'.loans, l ∈ b.loans := by
  intro l hl
  rcases h.loans l hl with hl | ⟨-, hnot⟩
  · exact hl
  · exact absurd trivial hnot

theorem stirs_of_silent {b : Broker} (hs : Shifts settled w.broker b)
    (hf : Silent queue w.broker b) : Stirs settled w { w with broker := b } :=
  stirs_of_follows hs hf fun _ hl => absurd trivial hl.2

theorem tends_apart : (Standing.apart : Standing Nat Stream).Tends queue w := nofun

/-- A new session is in place, with nothing out. -/
theorem tended_connected (h : w.Tended queue x) {s : Broker.Session} {b : Broker}
    (hb : w.broker.connect = (.ok s, b)) :
    Stirs [] w { broker := b, sessions := w.sessions ++ [s] } ∧
      Tended queue { broker := b, sessions := w.sessions ++ [s] } (.joined w.sessions.length) := by
  have hshifts : Shifts [] w.broker b := by
    have hconnect := shifts_connect h.placed
    rwa [hb] at hconnect
  have hf : Silent queue w.broker b := by
    have hconnect : Silent queue w.broker w.broker.connect.2 := follows_connect h.placed.sound
    rwa [hb] at hconnect
  obtain ⟨howns, hfree⟩ := connect_ok h.placed.sound hb
  constructor
  · exact
      { shifts := hshifts
        lanes := fun _ ho => hf.owns ho
        loans := fun l hl => .inl (loans_of_silent hf l hl)
        kept := by
          rintro l - ⟨s', hs', hc⟩
          exact ⟨s', List.mem_append_left _ hs', hc⟩
        new := by
          intro s' hs'
          rcases List.mem_append.1 hs' with hs' | hs'
          · exact .inl hs'
          · rw [List.mem_singleton.1 hs']
            exact .inr (lt_channel_of_connect hb) }
  · refine ⟨hshifts.placed, ?_, ?_⟩
    · intro s' hs'
      rcases List.mem_append.1 hs' with hs' | hs'
      · exact hf.owns (h.owned s' hs')
      · rw [List.mem_singleton.1 hs']
        exact howns
    · intro j hj
      cases hj
      exact ⟨s, by simp, nofun, fun l hl hc => absurd hc (hfree l hl)⟩

theorem tended_refused (h : w.Tended queue x) {err : LinkError} {b : Broker}
    (hb : w.broker.connect = (.error err, b)) :
    Stirs [] w { w with broker := b } ∧ Tended queue { w with broker := b } .apart := by
  have hshifts : Shifts [] w.broker b := by
    have hconnect := shifts_connect h.placed
    rwa [hb] at hconnect
  have hf : Silent queue w.broker b := by
    have hconnect : Silent queue w.broker w.broker.connect.2 := follows_connect h.placed.sound
    rwa [hb] at hconnect
  have hstirs := stirs_of_silent hshifts hf
  exact ⟨hstirs, tended_of_stirs h hstirs tends_apart⟩

theorem tended_closed (h : w.Tended queue x) (s : Broker.Session) :
    Stirs [] w { w with broker := w.broker.closeSession s } ∧
      Tended queue { w with broker := w.broker.closeSession s } .apart := by
  have hf : Silent queue w.broker (w.broker.closeSession s) :=
    follows_closeSession h.placed.sound s
  have hstirs := stirs_of_silent (shifts_closeSession h.placed s) hf
  exact ⟨hstirs, tended_of_stirs h hstirs tends_apart⟩

/-- Nothing but a disposition settles anything. -/
theorem settledBy_eq_nil {b : Broker} {s : Broker.Session} {k : Channel.Call}
    {a : (Channel.calls Stream).Answer k} (hk : ¬ Settles k) : b.settledBy s k a = [] := by
  cases k with
  | ack | nack => exact absurd trivial hk
  | _ => rfl

/-- A session that is not the one replaced stays. -/
theorem mem_set_of_ne {sessions : List Broker.Session} {j : Nat} {s s' s'' : Broker.Session}
    (hs : sessions[j]? = some s) (hs' : s' ∈ sessions) (hne : s' ≠ s) :
    s' ∈ sessions.set j s'' := by
  obtain ⟨i, hi⟩ := List.mem_iff_getElem?.1 hs'
  have hij : j ≠ i := by
    rintro rfl
    exact hne (Option.some.inj (hi.symm.trans hs))
  refine List.mem_iff_getElem?.2 ⟨i, ?_⟩
  rw [List.getElem?_set_ne hij]
  exact hi

/-- A call that disposes of nothing, on a session with nothing out. -/
theorem tended_asked (h : w.Tended queue x) {j : Nat} (hx : x.session? = some j)
    (hl : ∀ s l, ¬ x.Lends queue s l) {k : Channel.Call} (hk : ¬ Settles k) {s : Broker.Session}
    (hs : w.sessions[j]? = some s) (hy : y.session? = some j)
    (ht : ∀ t, y.stream? = some t → t = ⟨(w.broker.answer s k).2.1, queue⟩) :
    let w' : Source :=
      { broker := (w.broker.answer s k).2.2
        sessions := w.sessions.set j (w.broker.answer s k).2.1 }
    Stirs [] w w' ∧ w'.Tended queue y := by
  intro w'
  have hmem := List.mem_of_getElem? hs
  have hfree : ∀ l ∈ w.broker.loans, l.channel ≠ s.channel := by
    intro l hm hc
    obtain ⟨s', hs', -, htends⟩ := h.tends j hx
    cases hs.symm.trans hs'
    exact hl s l (htends l hm hc)
  have hfreed := freed_answer h.placed.sound (h.owned s hmem) hfree hk
  have hf : Silent queue w.broker w'.broker :=
    follows_answer h.placed.sound s k fun hks => absurd hks hk
  have hshifts : Shifts [] w.broker w'.broker := by
    have hanswer := shifts_answer h.placed s k
    rwa [settledBy_eq_nil hk] at hanswer
  constructor
  · exact
      { shifts := hshifts
        lanes := fun _ ho => hf.owns ho
        loans := fun l hm => .inl (hfreed.loans l hm)
        kept := by
          rintro l hm ⟨s', hs', hc⟩
          -- nothing is out on the channel that the session may have left
          have hne : s' ≠ s := by
            rintro rfl
            exact hfree l (hfreed.loans l hm) hc.symm
          exact ⟨s', mem_set_of_ne hs hs' hne, hc⟩
        new := by
          intro s' hs'
          rcases mem_set hs' with hs' | rfl
          · exact .inl hs'
          · rcases hfreed.channel with hsame | hnew
            · rw [hsame]
              exact .inl hmem
            · exact .inr hnew }
  · refine ⟨hshifts.placed, ?_, ?_⟩
    · intro s' hs'
      rcases mem_set hs' with hs' | rfl
      · exact hf.owns (h.owned s' hs')
      · exact hfreed.owns
    · intro i hi
      cases hy.symm.trans hi
      exact ⟨_, getElem?_set_of_some hs, ht, fun l hm hc => absurd hc (hfreed.free l hm)⟩

/-! ### Taking and disposing -/

section Judged

variable {j : Nat} {t : Stream} {m : Message} {a : Handed}

theorem tended_took (h : w.Tended queue (.consuming j t)) (he : w.Brings t (.message m) w') :
    Stirs [] w w' ∧ w'.Tended queue (.holding j t m) := by
  obtain ⟨s, hs, hstream, htends⟩ := h.tends j rfl
  obtain rfl := hstream t rfl
  obtain ⟨b, hb, rfl⟩ := he
  have hmem := List.mem_of_getElem? hs
  obtain ⟨l₀, hof, hperm⟩ := (taking_take h.placed hb).lent
  have hshifts : Shifts [] w.broker b := by
    have htake := shifts_take h.placed ⟨s, queue⟩
    rwa [hb] at htake
  have hlanes : ∀ s', w.broker.Owns s' → b.Owns s' := by
    intro s' hs'
    have howns := owns_take ⟨s, queue⟩ hs'
    rwa [hb] at howns
  have hstirs : Stirs [] w { w with broker := b } :=
    { shifts := hshifts
      lanes := hlanes
      loans := by
        intro l hl
        rcases List.mem_cons.1 (hperm.mem_iff.1 hl) with rfl | hl
        · exact .inr ⟨s, hmem, hof.channel.symm⟩
        · exact .inl hl
      kept := fun _ _ hm => hm
      new := fun _ hm => .inl hm }
  refine ⟨hstirs, tended_of_stirs h hstirs ?_⟩
  intro i hi
  cases hi
  refine ⟨s, hs, hstream, ?_⟩
  intro l hl hc
  rcases List.mem_cons.1 (hperm.mem_iff.1 hl) with rfl | hl
  · exact hof
  · exact (htends l hl hc).elim

/-- What is out on the session is the delivery of the message in hand. -/
theorem of_of_judged (h : w.Tended queue (.judged j t m a)) :
    ∃ s, w.sessions[j]? = some s ∧ t = ⟨s, queue⟩ ∧
      ∀ l ∈ w.broker.loans, l.channel = s.channel → l.Of s queue m := by
  obtain ⟨s, hs, hstream, htends⟩ := h.tends j rfl
  exact ⟨s, hs, hstream t rfl, htends⟩

/-- A relay whose message is disposed of has nothing out. -/
theorem tends_consuming {s : Broker.Session} {b : Broker} (hs : w.sessions[j]? = some s)
    (hfree : ∀ l ∈ b.loans, l.channel ≠ s.channel) :
    (Standing.consuming j ⟨s, queue⟩).Tends queue { w with broker := b } := by
  intro i hi
  cases hi
  exact ⟨s, hs, fun t ht => (Option.some.inj ht).symm, fun l hl hc => absurd hc (hfree l hl)⟩

theorem tended_acked (h : w.Tended queue (.judged j t m a)) (ha : a.isDelivered = true) {u : Unit}
    (he : w.Answers (.ask j (.ack m.tag)) (.ok u) w') :
    ∃ ev, Stirs [ev] w w' ∧ w'.Tended queue (.consuming j t) ∧
      Standing.StrikesOff queue (.judged j t m a) ⟨.source (.ask j (.ack m.tag)), .ok u⟩ ev := by
  obtain ⟨s, hs, rfl, hof⟩ := of_of_judged h
  rcases he with ⟨e, he, -⟩ | ⟨s', hs', hok, hw'⟩
  · cases he
  · cases hs.symm.trans hs'
    have hack : w.broker.ack s m.tag = (.ok u, (w.broker.ack s m.tag).2) :=
      Prod.ext hok.symm rfl
    obtain ⟨d, hloan, hshifts⟩ := shifts_acked h.placed hack
    obtain ⟨copy, -, hf, hfree⟩ := follows_ack h.placed.sound hof hack
    obtain rfl := source_of_settles (.ack m.tag) trivial hs hw'
    have hstirs := stirs_of_follows hshifts hf fun _ => False.elim
    have hd := hof _ hloan rfl
    exact ⟨_, hstirs, tended_of_stirs h hstirs (tends_consuming hs hfree),
      .acked j s m a d u ha hd.ofQueue hd.message⟩

theorem tended_nacked (h : w.Tended queue (.judged j t m a)) {u : Unit}
    (he : w.Answers (.ask j (.nack m.tag true)) (.ok u) w') :
    Stirs [] w w' ∧ w'.Tended queue (.consuming j t) := by
  obtain ⟨s, hs, rfl, hof⟩ := of_of_judged h
  rcases he with ⟨e, he, -⟩ | ⟨s', hs', hok, hw'⟩
  · cases he
  · cases hs.symm.trans hs'
    have hnack : w.broker.nack s m.tag true = (.ok u, (w.broker.nack s m.tag true).2) :=
      Prod.ext hok.symm rfl
    obtain ⟨hf, hfree⟩ := follows_nack h.placed.sound hof hnack
    obtain rfl := source_of_settles (.nack m.tag true) trivial hs hw'
    have hstirs := stirs_of_follows (shifts_nack (s := s) h.placed m.tag true) hf
      fun _ => False.elim
    exact ⟨hstirs, tended_of_stirs h hstirs (tends_consuming hs hfree)⟩

/-- A disposition that fails leaves the session spoiled, and settles nothing. -/
theorem tended_notSettled (h : w.Tended queue (.judged j t m a)) {k : Channel.Call}
    (hk : Settles k) {err : LinkError}
    (he : w.Answers (.ask j k) (Simulation.failing err k) w') :
    Stirs [] w w' ∧ w'.Tended queue (.spoiled j) := by
  rcases he with ⟨err, -, rfl⟩ | ⟨s, hs, hanswer, hw'⟩
  · exact ⟨.refl h.placed, h.spoiled rfl⟩
  · have hshifts := shifts_answer h.placed s k
    rw [← hanswer, settledBy_failing] at hshifts
    obtain rfl := source_of_settles k hk hs hw'
    have hf : Silent queue w.broker (w.broker.answer s k).2.2 :=
      unnoticed_failed h.placed.sound hk hanswer.symm
    have hstirs := stirs_of_silent hshifts hf
    refine ⟨hstirs, tended_of_stirs h hstirs ?_⟩
    intro i hi
    cases hi
    exact ⟨s, hs, nofun, fun _ _ hc => hc⟩

end Judged

/-! ### Steps -/

/-- A step of a relay keeps what it has out, and settles nothing. -/
theorem tended_quiet (h : Stirs [] w w' ∧ w'.Tended queue y) :
    ∃ settled, Stirs settled w w' ∧ w'.Tended queue y ∧
      ∀ ev ∈ settled, x.StrikesOff queue e ev :=
  ⟨[], h.1, h.2, nofun⟩

/-- A call that disposes of nothing may also fail on its way. -/
theorem tended_ask {j : Nat} (k : Channel.Call) {answer : (Channel.calls Stream).Answer k}
    (h : w.Tended queue x) (hx : x.session? = some j) (hl : ∀ s l, ¬ x.Lends queue s l)
    (hk : ¬ Settles k) (he : w.Answers (.ask j k) answer w') (hy : y.session? = some j)
    (ht : y.stream? = none) : Stirs [] w w' ∧ w'.Tended queue y := by
  have hnone : ∀ (P : Stream → Prop) t, y.stream? = some t → P t := by
    intro P t htt
    rw [ht] at htt
    cases htt
  rcases he with ⟨err, -, rfl⟩ | ⟨s, hs, -, rfl⟩
  · exact ⟨.refl h.placed, h.weaken (hy.trans hx.symm) (hnone _)
      fun s l hlends => absurd hlends (hl s l)⟩
  · exact tended_asked h hx hl hk hs hy (hnone _)

/-- **A step of a relay leaves everybody with what they had out**, and what it strikes off is
the delivery of the message that it acknowledges. -/
theorem tended_step (h : w.Tended c.queue x) (hstep : x.Step c e y) (he : w.Turns e w') :
    ∃ settled, Stirs settled w w' ∧ w'.Tended c.queue y ∧
      ∀ ev ∈ settled, x.StrikesOff c.queue e ev := by
  cases hstep with
  | connected hx j =>
      rcases he with ⟨err, he, -⟩ | ⟨err, b, -, he, -⟩ | ⟨s, b, hb, he, rfl⟩
      · cases he
      · cases he
      · cases he
        exact tended_quiet (tended_connected h hb)
  | refused hx err =>
      rcases he with ⟨err, he, rfl⟩ | ⟨err, b, hb, he, rfl⟩ | ⟨s, b, -, he, -⟩
      · exact tended_quiet ⟨.refl h.placed, { h with tends := tends_apart }⟩
      · exact tended_quiet (tended_refused h hb)
      · cases he
  | foundOpen j | foundSpoiled j =>
      obtain ⟨s, -, -, rfl⟩ := he
      exact tended_quiet ⟨.refl h.placed, h⟩
  | foundAgain j =>
      obtain ⟨s, -, -, rfl⟩ := he
      exact tended_quiet ⟨.refl h.placed, h.spoiled rfl⟩
  | foundClosed hx =>
      obtain ⟨s, hs, ho, rfl⟩ := he
      exact tended_quiet ⟨.refl h.placed, h.lapsed hs ho.symm⟩
  | closed hx r =>
      obtain ⟨s, hs, rfl⟩ := he
      exact tended_quiet (tended_closed h s)
  | prepared j k hk r =>
      exact tended_quiet
        (tended_ask k h rfl (fun _ _ => id) (not_settles_of_prepares hk) he rfl rfl)
  | limited j u | unlimited j err =>
      exact tended_quiet
        (tended_ask (.setPrefetch prefetch) h rfl (fun _ _ => id) id he rfl rfl)
  | unsubscribed j err =>
      exact tended_quiet
        (tended_ask (.consume c.queue c.consumerTag) h rfl (fun _ _ => id) id he rfl rfl)
  | subscribed j t =>
      rcases he with ⟨err, he, -⟩ | ⟨s, hs, hanswer, rfl⟩
      · cases he
      · have hconsume : w.broker.consume s c.queue = (.ok t, (w.broker.consume s c.queue).2) :=
          Prod.ext hanswer.symm rfl
        have ht := consume_ok hconsume
        refine tended_quiet (tended_asked h rfl (fun _ _ => id) id hs rfl ?_)
        intro t' ht'
        cases ht'
        exact ht
  | stopped j t =>
      obtain rfl := he
      exact tended_quiet ⟨.refl h.placed, h⟩
  | took j t m => exact tended_quiet (tended_took h he)
  | lost j t err =>
      obtain rfl := he
      exact tended_quiet ⟨.refl h.placed, h.spoiled rfl⟩
  | ended j t =>
      obtain ⟨b, hb, rfl⟩ := he
      obtain rfl := take_ended hb
      exact tended_quiet ⟨.refl h.placed, h.spoiled rfl⟩
  | handed j t m a =>
      obtain rfl := he
      exact tended_quiet ⟨.refl h.placed, h.weaken rfl (fun _ => id) fun _ _ hl _ => hl⟩
  | acked j t m a ha u =>
      obtain ⟨ev, hstirs, htended, hev⟩ := tended_acked h ha he
      refine ⟨[ev], hstirs, htended, ?_⟩
      intro ev' hev'
      rw [List.mem_singleton.1 hev']
      exact hev
  | notAcked j t m a ha err =>
      exact tended_quiet (tended_notSettled h (k := .ack m.tag) trivial he)
  | nacked j t m a ha u => exact tended_quiet (tended_nacked h he)
  | notNacked j t m a ha err =>
      exact tended_quiet (tended_notSettled h (k := .nack m.tag true) trivial he)
  | established | rested | backendClosed =>
      obtain rfl := he
      exact tended_quiet ⟨.refl h.placed, h⟩

end Source

end QueueRelay

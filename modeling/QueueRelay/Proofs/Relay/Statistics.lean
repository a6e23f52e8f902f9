/-
What the counters of a relay say about its broker.

A relay counts what it is told, the broker writes down what it does, and the two agree: the
journal has one delivery for each message that came, one acknowledgement and one return for
each disposition that was taken.  A call that fails may have reached the broker, but then the
broker said no to it, and nothing was settled.

The counters also tell how the queue was left.  Each message was delivered for a first time
before it was delivered again, and only the one in front can have been: so what came for the
first time was acknowledged, but for the one message that is left in front with a mark.
-/
import QueueRelay.Proofs.Broker.Line
import QueueRelay.Proofs.Relay.Conservation
import QueueRelay.Proofs.Relay.Counters

namespace QueueRelay

open Broker Program Relay

variable {queue : String} {c : Settings} {base b b' : Broker} {w w' : Source}
  {x y : Standing Nat Stream} {e : (calls Nat Stream).Exchange}
  {t : List (calls Nat Stream).Exchange} {events : List Event}

/-! ### One exchange -/

/-- Two relays have counted as many messages. -/
structure Relay.Stats.Alike (s s' : Stats) : Prop where
  received : s.received = s'.received
  redelivered : s.redelivered = s'.redelivered
  acked : s.acked = s'.acked
  requeued : s.requeued = s'.requeued

/-- What an exchange does to the queue of a relay, along with what it counts. -/
inductive Turned (queue : String) (e : (calls Nat Stream).Exchange) (b b' : Broker) : Prop
  | aside (h : Goes (fun d => d.queue ≠ queue) b b') (hs : ∀ s : Stats, (s.tally e).Alike s)
  | took (copy : Copy) (channel tag : Nat)
      (m : Move b [.delivered channel tag ⟨queue, copy⟩] b') (hnone : b.outstanding queue = [])
      (hs : ∀ s : Stats, s.tally e = { s with
        received := s.received + 1
        redelivered := if copy.redelivered then s.redelivered + 1 else s.redelivered })
  | acked (copy : Copy) (channel tag : Nat) (m : Move b [.acked channel tag ⟨queue, copy⟩] b')
      (hs : ∀ s : Stats, s.tally e = { s with acked := s.acked + 1 })
  | returned (copy : Copy) (channel tag : Nat)
      (m : Move b [.nacked channel tag ⟨queue, copy⟩ true] b')
      (hs : ∀ s : Stats, s.tally e = { s with requeued := s.requeued + 1 })

theorem alike_of_uncounted {k : (calls Nat Stream).Call} (h : Uncounted k)
    (a : (calls Nat Stream).Answer k) (s : Stats) : (s.tally ⟨k, a⟩).Alike s := by
  rw [tally_uncounted h]
  exact ⟨rfl, rfl, rfl, rfl⟩

namespace Source

/-- A call on the link that disposes of nothing is about no delivery. -/
theorem goes_answers {P : Delivery → Prop} {k : (BrokerLink Nat Stream).Call}
    {a : (BrokerLink Nat Stream).Answer k} (h : w.broker.Placed) (hk : Spares k)
    (he : w.Answers k a w') : Goes P w.broker w'.broker := by
  cases k with
  | connect =>
      have hconnect : Goes P w.broker w.broker.connect.2 := goes_connect h
      rcases he with ⟨e, -, rfl⟩ | ⟨e, b, hb, -, rfl⟩ | ⟨s, b, hb, -, rfl⟩
      · exact .refl
      · rwa [hb] at hconnect
      · rwa [hb] at hconnect
  | isOpen j =>
      obtain ⟨s, -, -, rfl⟩ := he
      exact .refl
  | close j =>
      obtain ⟨s, -, rfl⟩ := he
      exact goes_closeSession h s
  | ask j k =>
      rcases he with ⟨e, -, rfl⟩ | ⟨s, -, -, rfl⟩
      · exact .refl
      · refine goes_answer h s k fun hs => ?_
        cases k with
        | ack | nack => exact hk.elim
        | _ => exact hs.elim

theorem spares_of_prepares {k : Channel.Call} (hk : Prepares k) (j : Nat) :
    Spares (σ := Nat) (δ := Stream) (.ask j k) := by
  cases k with
  | ack | nack => exact hk.elim
  | _ => trivial

theorem turned_answers {k : (BrokerLink Nat Stream).Call} {a : (BrokerLink Nat Stream).Answer k}
    (h : w.broker.Placed) (hk : Spares k) (he : w.Answers k a w') :
    Turned queue ⟨.source k, a⟩ w.broker w'.broker :=
  .aside (goes_answers h hk he) (alike_of_uncounted (k := .source k) hk a)

theorem turned_of_eq {k : (calls Nat Stream).Call} {a : (calls Nat Stream).Answer k}
    (hw : w' = w) (hs : ∀ s : Stats, (s.tally ⟨k, a⟩).Alike s) :
    Turned queue ⟨k, a⟩ w.broker w'.broker := by
  subst hw
  exact .aside .refl hs

/-- What comes is taken from the queue, of which nothing was out. -/
theorem turned_took {j : Nat} {d : Stream} {m : Message}
    (h : w.Ordered queue base (.consuming j d)) (he : w.Brings d (.message m) w') :
    Turned queue ⟨.next d, .message m⟩ w.broker w'.broker := by
  obtain ⟨s, -, hstream, hl⟩ := foreign_of_tallies h.tallies rfl fun _ _ => id
  obtain rfl := hstream d rfl
  obtain ⟨b, hb, rfl⟩ := he
  obtain ⟨copy, tag, hm, hmove⟩ := move_of_take hb
  refine .took copy _ tag hmove (copiesFrom_eq_nil fun l hm => (hl l hm).ofQueue) fun s => ?_
  rw [← hm]
  rfl

section Judged

variable {j : Nat} {d : Stream} {m : Message} {a : Handed}

/-- What is out on the relay's session while it holds a message is from its queue. -/
theorem queue_of_judged (h : w.Ordered queue base (.judged j d m a)) {s : Broker.Session}
    (hs : w.sessions[j]? = some s) {tag : Nat} {delivery : Delivery}
    (hm : ⟨s.channel, tag, delivery⟩ ∈ w.broker.loans) : delivery.queue = queue := by
  obtain ⟨s', hs', -, hl⟩ := h.tallies
  cases hs.symm.trans hs'
  exact (of_of_foreign_or hl _ hm rfl).ofQueue

theorem turned_acked (h : w.Ordered queue base (.judged j d m a)) {u : Unit}
    (he : w.Answers (.ask j (.ack m.tag)) (.ok u) w') :
    Turned queue ⟨.source (.ask j (.ack m.tag)), .ok u⟩ w.broker w'.broker := by
  rcases he with ⟨e, he, -⟩ | ⟨s, hs, ha, rfl⟩
  · cases he
  · have hack : w.broker.ack s m.tag = (.ok u, (w.broker.ack s m.tag).2) := Prod.ext ha.symm rfl
    obtain ⟨⟨name, copy⟩, hmem, hmove⟩ := move_of_ack hack
    obtain rfl : name = queue := queue_of_judged h hs hmem
    exact .acked copy _ _ hmove fun _ => rfl

theorem turned_nacked (h : w.Ordered queue base (.judged j d m a)) {u : Unit}
    (he : w.Answers (.ask j (.nack m.tag true)) (.ok u) w') :
    Turned queue ⟨.source (.ask j (.nack m.tag true)), .ok u⟩ w.broker w'.broker := by
  rcases he with ⟨e, he, -⟩ | ⟨s, hs, ha, rfl⟩
  · cases he
  · have hnack : w.broker.nack s m.tag true = (.ok u, (w.broker.nack s m.tag true).2) :=
      Prod.ext ha.symm rfl
    obtain ⟨⟨name, copy⟩, hmem, hmove⟩ := move_of_nack hnack
    obtain rfl : name = queue := queue_of_judged h hs hmem
    exact .returned copy _ _ hmove fun _ => rfl

/-- A disposition that fails, on the way or at the broker, is about no delivery. -/
theorem turned_notSettled {k : Channel.Call} (hk : Settles k) {e : LinkError}
    (he : w.Answers (.ask j k) (Simulation.failing e k) w') :
    Turned queue ⟨.source (.ask j k), Simulation.failing e k⟩ w.broker w'.broker := by
  refine .aside ?_ fun _ => ?_
  · rcases he with ⟨e, -, rfl⟩ | ⟨s, -, ha, rfl⟩
    · exact .refl
    · exact goes_failed hk ha.symm
  · cases k with
    | ack | nack => exact ⟨rfl, rfl, rfl, rfl⟩
    | _ => exact hk.elim

end Judged

/-- **Every step of a relay counts what it does to the queue.** -/
theorem turned_step (h : w.Ordered c.queue base x) (hp : w.broker.Placed) (hstep : x.Step c e y)
    (he : w.Turns e w') : Turned c.queue e w.broker w'.broker := by
  cases hstep with
  | connected | refused | foundOpen | foundSpoiled | foundAgain | foundClosed | closed
  | limited | unlimited | subscribed | unsubscribed => exact turned_answers hp trivial he
  | prepared j k hk r => exact turned_answers hp (spares_of_prepares hk j) he
  | took j d m => exact turned_took h he
  | acked j d m a hd u => exact turned_acked h he
  | nacked j d m a hd u => exact turned_nacked h he
  | notAcked j d m a hd e => exact turned_notSettled (k := .ack m.tag) trivial he
  | notNacked j d m a hd e => exact turned_notSettled (k := .nack m.tag true) trivial he
  | ended j d =>
      obtain ⟨b, hb, hw⟩ := he
      rw [take_ended hb] at hw
      exact turned_of_eq hw fun _ => ⟨rfl, rfl, rfl, rfl⟩
  | handed j d m a =>
      refine turned_of_eq he fun _ => ?_
      cases a <;> exact ⟨rfl, rfl, rfl, rfl⟩
  | stopped | lost | established | rested | backendClosed =>
      exact turned_of_eq he fun _ => ⟨rfl, rfl, rfl, rfl⟩

/-- What others do is about no delivery from the queue. -/
theorem goes_outside (h : w.Ordered queue base x) (hp : w.broker.Placed)
    (ho : Outside queue w.broker w.Mine b) : Goes (fun d => d.queue ≠ queue) w.broker b := by
  cases ho with
  | published exchange key payload => exact goes_route exchange key payload
  | operated c => exact goes_applyToBroker hp c
  | connected => exact goes_connect hp
  | asked s hs k => exact goes_answer hp s k fun _ => elsewhere_of_not_mine h.tallies hs
  | took t hq ht => exact goes_take t fun _ _ _ => hq
  | closed s => exact goes_closeSession hp s

end Source

/-! ### A whole run -/

/-- The counters say how many events of each kind there are. -/
structure Matches (queue : String) (events : List Event) (s : Stats) : Prop where
  received : s.received = events.countP (Event.delivers queue)
  redelivered : s.redelivered = events.countP (Event.redelivers queue)
  acked : s.acked = events.countP (Event.acknowledges queue)
  requeued : s.requeued = events.countP (Event.returns queue)

theorem matches_aside {s s' : Stats} {more : List Event} (h : Matches queue events s)
    (he : ∀ e ∈ more, e.Aside queue) (hs : s'.Alike s) : Matches queue (events ++ more) s' where
  received := by
    rw [List.countP_append, countP_aside he fun _ h => about?_of_handles (.inl h)]
    exact hs.received.trans h.received
  redelivered := by
    rw [List.countP_append,
      countP_aside he fun _ h => about?_of_handles (.inl (delivers_of_redelivers h))]
    exact hs.redelivered.trans h.redelivered
  acked := by
    rw [List.countP_append, countP_aside he fun _ h => about?_of_handles (.inr (.inl h))]
    exact hs.acked.trans h.acked
  requeued := by
    rw [List.countP_append, countP_aside he fun _ h => about?_of_handles (.inr (.inr h))]
    exact hs.requeued.trans h.requeued

/-- The counters of a relay match what its broker has written down since `base`. -/
structure Registered (queue : String) (base : Broker) (t : List (calls Nat Stream).Exchange)
    (b : Broker) : Prop where
  placed : b.Placed
  journal : ∃ events, b.journal = base.journal ++ events ∧ Matches queue events (scoreOf t) ∧
    Marks queue base events b

namespace Registered

theorem goes (h : Registered queue base t b) (hg : Goes (fun d => d.queue ≠ queue) b b')
    {t' : List (calls Nat Stream).Exchange} (hs : (scoreOf t').Alike (scoreOf t)) :
    Registered queue base t' b' := by
  obtain ⟨events, hj, hmatch, hmarks⟩ := h.journal
  obtain ⟨more, hj', haside, hmore⟩ := hg.marks h.placed hmarks.tidy
  refine ⟨hg.placed h.placed, events ++ more, ?_, matches_aside hmatch haside hs,
    hmarks.trans hmore⟩
  rw [hj', hj, List.append_assoc]

/-- One move that is about a copy of the queue. -/
theorem move (h : Registered queue base t b) {event : Event} (m : Move b [event] b')
    (hsingle : Effect queue b [event] b' → (b'.outstanding queue).length ≤ 1)
    (hkept : event.droppedPayload? = none)
    (hs : ∀ events, Matches queue events (scoreOf t) →
      Matches queue (events ++ [event]) (scoreOf (t ++ [e]))) :
    Registered queue base (t ++ [e]) b' := by
  obtain ⟨events, hj, hmatch, hmarks⟩ := h.journal
  have heffect := effect_of_move h.placed m queue
  have hmore := heffect.marks hmarks.tidy (hsingle heffect) fun channel tag d hm => by
    rw [← List.mem_singleton.1 hm] at hkept
    cases hkept
  refine ⟨m.placed h.placed, events ++ [event], ?_, hs events hmatch, hmarks.trans hmore⟩
  rw [m.journal, hj, List.append_assoc]

theorem turned (h : Registered queue base t b) (he : Turned queue e b b') :
    Registered queue base (t ++ [e]) b' := by
  have hone : (b.outstanding queue).length ≤ 1 := by
    obtain ⟨events, -, -, hmarks⟩ := h.journal
    exact hmarks.tidy.single
  cases he with
  | aside hg hs =>
      refine h.goes hg ?_
      rw [scoreOf_snoc]
      exact hs _
  | took copy channel tag m hnone hs =>
      refine h.move m (fun heffect => ?_) rfl fun events hm => ?_
      · cases heffect with
        | wentOut other channel' tag' hout hready heq => rw [hout.length_eq, hnone]; rfl
        | gaveBack back hout hready haside => exact absurd rfl (haside _ List.mem_cons_self _ rfl)
        | arrived copy hnew hout hready haside =>
            exact absurd rfl (haside _ List.mem_cons_self _ rfl)
        | acked copy channel tag hout hready heq => cases heq
        | returned copy channel tag requeue hout hready heq => cases heq
      · rw [scoreOf_snoc, hs]
        cases hc : copy.redelivered <;>
          exact ⟨by simp [Event.delivers, hm.received],
            by simp [Event.redelivers, hc, hm.redelivered],
            by simp [Event.acknowledges, hm.acked], by simp [Event.returns, hm.requeued]⟩
  | acked copy channel tag m hs =>
      refine h.move m (fun heffect => heffect.single hone ?_) rfl fun events hm => ?_
      · exact fun e he => by rw [List.mem_singleton.1 he]; rfl
      · rw [scoreOf_snoc, hs]
        exact ⟨by simp [Event.delivers, hm.received], by simp [Event.redelivers, hm.redelivered],
          by simp [Event.acknowledges, hm.acked], by simp [Event.returns, hm.requeued]⟩
  | returned copy channel tag m hs =>
      refine h.move m (fun heffect => heffect.single hone ?_) rfl fun events hm => ?_
      · exact fun e he => by rw [List.mem_singleton.1 he]; rfl
      · rw [scoreOf_snoc, hs]
        exact ⟨by simp [Event.delivers, hm.received], by simp [Event.redelivers, hm.redelivered],
          by simp [Event.acknowledges, hm.acked], by simp [Event.returns, hm.requeued]⟩

end Registered

namespace Relay

variable {backend : Setting Errand.calls}

/-- What is known of the source and of the counters is kept in every step. -/
theorem registered_invariant (base : Broker) :
    (setting c.queue backend).Invariant (Standing.Step c) fun x t _ u =>
      u.1.Ordered c.queue base x ∧ Registered c.queue base t u.1.broker where
  moves := by
    rintro x t o u v ⟨hord, hreg⟩ hm
    rcases source_of_moves hm with ⟨b, hb, hv⟩ | hv
    · rw [hv]
      exact ⟨hord.outside hb, hreg.goes (Source.goes_outside hord hreg.placed hb)
        ⟨rfl, rfl, rfl, rfl⟩⟩
    · rw [hv]
      exact ⟨hord, hreg⟩
  begins := by
    rintro x t k u v - h hb
    rw [show v.1 = u.1 from hb.1]
    exact h
  ends := by
    rintro x t k a y u v hstep ⟨hord, hreg⟩ he
    have hturns := source_of_ends he
    exact ⟨(Source.ordered_step hord hstep hturns).1,
      hreg.turned (Source.turned_step hord hreg.placed hstep hturns)⟩

/-- **The counters of a relay agree with its broker.**  However a broker came to be as it is,
as long as no copy of the queue was ever delivered: when a fresh relay that alone consumes the
queue was told to stop and returns, whatever its backend did and whatever others did to the
broker meanwhile, its counters are the deliveries, acknowledgements and returns that the
journal has from this queue since the start; what came was acknowledged, given back, or could
not be disposed of; its faults are the panics; and what came for the first time was
acknowledged, but for the one message that is left in front of the queue with a mark. -/
theorem counters_match_journal {deeds : List Deed} {n : Nat} {z : backend.State}
    {t : List (calls Nat Stream).Exchange} {r : State Nat Stream}
    {v : (setting c.queue backend).State} (hnew : (after deeds).Undelivered c.queue)
    (hrun : (setting c.queue backend).Reached (run c n {}) ({ broker := after deeds }, z) t
      (.ready (.done (some .stopped, r))) v) :
    ∃ events, v.1.broker.journal = (after deeds).journal ++ events ∧
      r.stats.received = events.countP (Event.delivers c.queue) ∧
      r.stats.acked = events.countP (Event.acknowledges c.queue) ∧
      r.stats.requeued = events.countP (Event.returns c.queue) ∧
      r.stats.received = r.stats.acked + r.stats.requeued + t.countP failsToDispose ∧
      r.stats.faults = t.countP panics ∧
      r.stats.received =
        r.stats.redelivered + r.stats.acked + markOf (v.1.broker.ready c.queue) := by
  have hplaced := placed_after deeds
  obtain ⟨hnone, htidy, hmark⟩ := tidy_of_undelivered (recalls_after deeds c.queue) hnew
  have hstart : Registered c.queue (after deeds) [] (after deeds) :=
    ⟨hplaced, [], (List.append_nil _).symm, ⟨rfl, rfl, rfl, rfl⟩, .refl htidy⟩
  obtain ⟨x, hpath, hended, hord, hreg⟩ := hrun.keeps (keeps_run_apart rfl n)
    (registered_invariant (after deeds)) ⟨Source.ordered_apart hplaced.sound hnone, hstart⟩
  cases apart_of_ended hended nofun
  obtain ⟨events, hj, hmatch, hmarks⟩ := hreg.journal
  have hcounted : r.stats.counts = scoreOf t := counted_of_leads hrun.leads
  have heven := even_of_path hpath rfl
  have hfaults := faults_scoreOf t
  unfold Standing.Even at heven
  rw [← hcounted] at hmatch heven hfaults
  have hreceived : r.stats.received = _ := hmatch.received
  have hredelivered : r.stats.redelivered = _ := hmatch.redelivered
  have hacked : r.stats.acked = _ := hmatch.acked
  have hline : v.1.broker.line c.queue = v.1.broker.ready c.queue :=
    line_of_nil (copiesFrom_eq_nil hord.tallies)
  have hfirst := hmarks.marks
  rw [hmark, hline] at hfirst
  have hsplit := countP_delivers c.queue events
  exact ⟨events, hj, hreceived, hacked, hmatch.requeued, heven, hfaults, by omega⟩

/-- A message with which the backend panics goes back, and is left in front with a mark. -/
theorem counters_match_journal_after_panic :
    ∃ (t : List (calls Nat Stream).Exchange) (r : State Nat Stream)
      (v : (setting "reports" anyBackend).State),
      (setting "reports" anyBackend).Reached (run { queue := "reports" } 2 {})
        ({ broker := after [.operated (.declareQueue "reports"),
            .published "" "reports" ⟨#[1]⟩] }, ()) t (.ready (.done (some .stopped, r))) v ∧
      r.stats = { received := 1, requeued := 1, faults := 1 } ∧ t.countP failsToDispose = 0 ∧
      t.countP panics = 1 ∧ markOf (v.1.broker.ready "reports") = 1 := by
  let deeds : List Deed :=
    [.operated (.declareQueue "reports"), .published "" "reports" ⟨#[1]⟩]
  let c : Settings := { queue := "reports" }
  let w : Source := { broker := after deeds }
  let m : Message := { payload := ⟨#[1]⟩, tag := ⟨1⟩, routingKey := some "reports" }
  let r : State Nat Stream :=
    { source := (({} : Link Nat).opened 0).released
      stream := some ⟨⟨1, 2⟩, "reports"⟩
      stats := { received := 1, requeued := 1, faults := 1 } }
  have hnew : (after deeds).Undelivered "reports" := by
    rintro copy - ⟨channel, tag, d, hd, -⟩
    have hjournal : (after deeds).journal =
        [.enqueued "reports" { number := 0, payload := ⟨#[1]⟩, key := "reports" }] := rfl
    rw [hjournal] at hd
    cases List.mem_singleton.1 hd
  have h₀ : (setting "reports" anyBackend).Reached (run c 2 {}) (w, ()) [] _ (w, ()) := .start
  have h₁ := reached_source h₀ (.ok 0) (.inr (.inr ⟨_, _, rfl, rfl, rfl⟩))
  have h₂ := reached_establish h₁ (show anyBackend.begins () .establish () from trivial) (.ok ())
    (show anyBackend.ends () .establish (.ok ()) () from trivial)
  have h₃ := reached_source h₂ true ⟨_, rfl, rfl, rfl⟩
  have h₄ := reached_source h₃ (.ok ()) (.inr ⟨_, rfl, rfl, rfl⟩)
  have h₅ := reached_source h₄ (.ok ⟨⟨1, 2⟩, "reports"⟩) (.inr ⟨_, rfl, rfl, rfl⟩)
  have h₆ := reached_next h₅ (.message m) ⟨_, rfl, rfl⟩
  have h₇ := reached_send h₆ (show anyBackend.begins () (.send m) () from trivial)
    (.panicked "boom") (show anyBackend.ends () (.send m) (.panicked "boom") () from trivial)
  have h₈ := reached_source h₇ (.ok ()) (.inr ⟨_, rfl, rfl, rfl⟩)
  have h₉ := reached_next h₈ .stop rfl
  have h₁₀ := reached_closeBackend h₉ (show anyBackend.begins () .close () from trivial) ()
    (show anyBackend.ends () .close () () from trivial)
  have hrun : (setting "reports" anyBackend).Reached (run c 2 {}) (w, ()) _
    (.ready (.done (some .stopped, r))) _ := reached_source h₁₀ (.ok ()) ⟨_, rfl, rfl⟩
  obtain ⟨events, -, -, -, -, hdisposed, hfaults, hmarked⟩ :=
    counters_match_journal (c := c) hnew hrun
  refine ⟨_, _, _, hrun, rfl, ?_, hfaults.symm, ?_⟩
  · exact Nat.add_left_cancel (n := 1) hdisposed.symm
  · exact (Nat.zero_add _).symm.trans hmarked.symm

end Relay

end QueueRelay

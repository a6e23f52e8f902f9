/-
Competing relays never get in each other's way.

Tags are counted per channel and begin at one on each, so relays that share a queue hold
deliveries with equal tags all the time, and a copy that one of them gave back goes to
whoever asks next.  That nothing is confused rests on the channels: no channel belongs to two
relays, all that is out of the queue is out on a channel of one of them, and a relay
acknowledges on its own session only.  The rest is what the broker does by itself.
-/
import QueueRelay.Proofs.Relay.Crew
import QueueRelay.Proofs.Relay.Conservation
import QueueRelay.Proofs.Relay.Disposition

namespace QueueRelay

open Broker Relay

variable {queue : String} {ι : Type} {hands : ι → Hand queue}

/-! ### What is kept -/

namespace Hand.Progress

variable {h : Hand queue} {p p' : h.Progress} {b b' : Broker} {x : Standing Nat Stream}

/-- What is known of a relay that stands at `x` with the broker `b`. -/
structure Stands (p : h.Progress) (b : Broker) (x : Standing Nat Stream) : Prop where
  keeps : p.stage.rest.Keeps (Standing.Step h.settings) Ended x
  recalls : x.Recalls h.settings p.trace
  tended : (p.source b).Tended queue x

theorem Vouches.mono {channel tag : Nat} {d : Delivery} (hv : p.Vouches channel tag d)
    {more : List (calls Nat Stream).Exchange} (ht : p'.trace = p.trace ++ more) :
    p'.Vouches channel tag d := by
  obtain ⟨pre, j, s, m, w, post, htrace, hrest⟩ := hv
  refine ⟨pre, j, s, m, w, post ++ more, ?_, hrest⟩
  rw [ht, htrace]
  simp

end Hand.Progress

namespace Crew

/-- What is known of a crew at every moment. -/
structure Sane (w : Crew hands) : Prop where
  placed : w.broker.Placed
  stands : ∀ i, ∃ x, (w.progress i).Stands w.broker x
  /-- No two relays have the same channel. -/
  distinct : ∀ i j, i ≠ j → ∀ s ∈ (w.progress i).sessions, ∀ s' ∈ (w.progress j).sessions,
    s.channel ≠ s'.channel
  /-- What is out of the queue is out with one of the relays. -/
  held : ∀ l ∈ w.broker.loans, l.delivery.queue = queue → w.Mine l.channel
  /-- What is gone of the queue was acknowledged by one who had delivered it. -/
  vouched : ∀ e ∈ w.broker.settlements, ∀ d, e.gone? = some d → d.queue = queue →
    ∃ channel tag i, e = .acked channel tag d ∧ (w.progress i).Vouches channel tag d

variable {w w' : Crew hands}

theorem sane_first : Sane { broker := {}, progress := fun i => (hands i).first } where
  placed := placed_new
  stands := by
    intro i
    refine ⟨.apart, ?_, trivial, ⟨placed_new, nofun, nofun⟩⟩
    have hkeeps := keeps_run (c := (hands i).settings)
      (renewable_first (hands i).start.source.session) (hands i).rounds
    rw [(hands i).apart] at hkeeps
    exact hkeeps
  distinct := nofun
  held := nofun
  vouched := nofun

/-! ### What others do -/

/-- A relay is where it was when its broker goes on without it. -/
theorem stands_goOn {h : Hand queue} {p : h.Progress} {b b' : Broker}
    (hx : ∃ x, p.Stands b x) (hp : b'.Placed) (howns : ∀ s, b.Owns s → b'.Owns s)
    (hl : ∀ l ∈ b'.loans, p.Mine l.channel → l ∈ b.loans) : ∃ x, p.Stands b' x := by
  obtain ⟨x, hx⟩ := hx
  exact ⟨x, hx.keeps, hx.recalls, hx.tended.goOn hp howns hl⟩

theorem elsewhere_of_held (h : w.Sane) {s : Broker.Session} (hs : ¬ w.Mine s.channel) :
    w.broker.Elsewhere queue s := by
  intro l hl hc hq
  exact hs (hc ▸ h.held l hl hq)

/-- What others do settles nothing of the queue. -/
theorem shifts_outside (h : w.Sane) {b : Broker}
    (ho : Source.Outside queue w.broker w.Mine b) :
    ∃ settled, Shifts settled w.broker b ∧
      ∀ e ∈ settled, ∀ d, e.gone? = some d → d.queue ≠ queue := by
  cases ho with
  | published exchange key payload => exact ⟨[], shifts_route h.placed exchange key payload, nofun⟩
  | operated c => exact ⟨[], shifts_applyToBroker h.placed c, nofun⟩
  | connected => exact ⟨[], shifts_connect h.placed, nofun⟩
  | asked s hs k =>
      refine ⟨_, shifts_answer h.placed s k, ?_⟩
      intro e he d hd
      obtain ⟨tag, d', hloan, hd'⟩ := mem_settledBy he
      cases hd.symm.trans hd'
      exact elsewhere_of_held h hs _ hloan rfl
  | took t hq ht => exact ⟨[], shifts_take h.placed t, nofun⟩
  | closed s => exact ⟨[], shifts_closeSession h.placed s, nofun⟩

theorem Sane.outside (h : w.Sane) {b : Broker} (ho : Source.Outside queue w.broker w.Mine b) :
    Sane { w with broker := b } := by
  have hf := ho.unnoticed h.placed.sound fun _ hs => elsewhere_of_held h hs
  obtain ⟨settled, hshifts, hsettled⟩ := shifts_outside h ho
  refine ⟨hshifts.placed, ?_, h.distinct, ?_, ?_⟩
  · intro i
    refine stands_goOn (h.stands i) hshifts.placed (fun s hs => hf.owns hs) ?_
    intro l hl hm
    rcases hf.loans l hl with hl | ⟨-, hnot⟩
    · exact hl
    · exact absurd ⟨i, hm⟩ hnot
  · intro l hl hq
    rcases hf.loans l hl with hl | ⟨hne, -⟩
    · exact h.held l hl hq
    · exact absurd hq hne
  · intro e he d hd hq
    rw [hshifts.settlements] at he
    rcases List.mem_append.1 he with he | he
    · exact h.vouched e he d hd hq
    · exact absurd hq (hsettled e he d hd)

/-! ### What one of the relays does -/

/-- What a step of a relay comes to: the broker and the relay's books changed as one
exchange makes them change. -/
structure Turned {h : Hand queue} (b : Broker) (p : h.Progress) (b' : Broker) (p' : h.Progress)
    (settled : List Event) : Prop where
  stirs : Source.Stirs settled (p.source b) (p'.source b')
  stands : ∃ x, p'.Stands b' x
  more : ∃ more, p'.trace = p.trace ++ more
  vouched : ∀ e ∈ settled, ∀ d, e.gone? = some d →
    ∃ channel tag, e = .acked channel tag d ∧ p'.Vouches channel tag d

/-- What was struck off was delivered by the relay, as its exchanges tell. -/
theorem vouches_of_strikesOff {h : Hand queue} {p : h.Progress} {x : Standing Nat Stream}
    {e : (calls Nat Stream).Exchange} {ev : Event} (hr : x.Recalls h.settings p.trace)
    (hs : x.StrikesOff queue e ev) {p' : h.Progress} (ht : p'.trace = p.trace ++ [e]) {d : Delivery}
    (hd : ev.gone? = some d) :
    ∃ channel tag, ev = .acked channel tag d ∧ p'.Vouches channel tag d := by
  cases hs with
  | acked j s m a d' u ha hq hcopy =>
      cases hd
      obtain ⟨pre, hpre, -⟩ := hr
      refine ⟨s.channel, m.tag.value, rfl, pre, j, s, m, a, [], ?_, ha, rfl, rfl, hcopy⟩
      rw [ht, hpre]
      simp

/-- Every step of a relay is such a change. -/
theorem turned_of_goes {h : Hand queue} {b b' : Broker} {p p' : h.Progress}
    (hx : ∃ x, p.Stands b x) (hg : h.Goes b p b' p') : ∃ settled, Turned b p b' p' settled := by
  obtain ⟨x, hx⟩ := hx
  cases hg with
  | moved hm =>
      exact ⟨[], .refl hx.tended.placed, ⟨x, hx.keeps, hx.recalls, hx.tended⟩, ⟨[], by simp⟩, nofun⟩
  | asked hp hb =>
      refine ⟨[], .refl hx.tended.placed, ⟨x, ?_, hx.recalls, hx.tended⟩, ⟨[], by simp⟩, nofun⟩
      have hkeeps := hx.keeps
      rw [hp] at hkeeps
      exact hkeeps
  | @answered k next v hp a he =>
      have hkeeps := hx.keeps
      rw [hp] at hkeeps
      obtain ⟨y, hstep, hrest⟩ := hkeeps a
      have htended : (p.source b).Tended h.settings.queue x := by
        rw [h.ofQueue]
        exact hx.tended
      have hturns : (p.source b).Turns ⟨k, a⟩ v.1 := source_of_ends he
      obtain ⟨settled, hstirs, htended', hsettled⟩ := Source.tended_step htended hstep hturns
      rw [h.ofQueue] at htended' hsettled
      refine ⟨settled, hstirs, ⟨y, hrest, recalls_step x _ y _ hstep hx.recalls, htended'⟩,
        ⟨_, rfl⟩, ?_⟩
      intro e hmem d hd
      exact vouches_of_strikesOff hx.recalls (hsettled e hmem) rfl hd

/-- The number of a channel that a relay has was given out. -/
theorem channel_le (h : w.Sane) (i : ι) {s : Broker.Session} (hs : s ∈ (w.progress i).sessions) :
    s.channel ≤ w.broker.lastId := by
  obtain ⟨x, hx⟩ := h.stands i
  obtain ⟨lane, hl, -⟩ := hx.tended.owned s hs
  exact h.placed.sound.known _ (Table.mem_keys_of_get? hl)

/-- A channel that a relay has after its step is none of another relay's. -/
theorem Turned.distinct {i j : ι} {b : Broker} {p : (hands i).Progress} {settled : List Event}
    (h : w.Sane) (hij : i ≠ j) (ht : Turned w.broker (w.progress i) b p settled) :
    ∀ s ∈ p.sessions, ∀ s' ∈ (w.progress j).sessions, s.channel ≠ s'.channel := by
  intro s hs s' hs'
  rcases ht.stirs.new s hs with hold | hnew
  · exact h.distinct i j hij s hold s' hs'
  · have hle := channel_le h j hs'
    have hlt : w.broker.lastId < s.channel := hnew
    omega

theorem Sane.went (h : w.Sane) {i : ι}
    (hi : (hands i).Goes w.broker (w.progress i) w'.broker (w'.progress i))
    (hothers : ∀ j, j ≠ i → w'.progress j = w.progress j) : w'.Sane := by
  obtain ⟨settled, ht⟩ := turned_of_goes (h.stands i) hi
  have hplaced : w'.broker.Placed := ht.stirs.shifts.placed
  exact
    { placed := hplaced
      stands := by
        intro j
        by_cases hj : j = i
        · subst hj
          exact ht.stands
        · rw [hothers j hj]
          refine stands_goOn (h.stands j) hplaced ht.stirs.lanes ?_
          rintro l hl ⟨s', hs', hc'⟩
          rcases ht.stirs.loans l hl with hl | ⟨s, hs, hc⟩
          · exact hl
          · exact absurd (hc.trans hc'.symm) (ht.distinct h (Ne.symm hj) s hs s' hs')
      distinct := by
        intro j k hjk s hs s' hs'
        by_cases hj : j = i
        · subst hj
          rw [hothers k hjk.symm] at hs'
          exact ht.distinct h hjk s hs s' hs'
        · rw [hothers j hj] at hs
          by_cases hk : k = i
          · subst hk
            exact (ht.distinct h hjk.symm s' hs' s hs).symm
          · rw [hothers k hk] at hs'
            exact h.distinct j k hjk s hs s' hs'
      held := by
        intro l hl hq
        rcases ht.stirs.loans l hl with hold | hmine
        · obtain ⟨j, hj⟩ := h.held l hold hq
          by_cases hji : j = i
          · subst hji
            exact ⟨j, ht.stirs.kept l hl hj⟩
          · refine ⟨j, ?_⟩
            rw [hothers j hji]
            exact hj
        · exact ⟨i, hmine⟩
      vouched := by
        intro e he d hd hq
        have hsettlements : w'.broker.settlements = w.broker.settlements ++ settled :=
          ht.stirs.shifts.settlements
        rw [hsettlements] at he
        rcases List.mem_append.1 he with he | he
        · obtain ⟨channel, tag, j, hev, hv⟩ := h.vouched e he d hd hq
          refine ⟨channel, tag, j, hev, ?_⟩
          by_cases hji : j = i
          · subst hji
            obtain ⟨more, hmore⟩ := ht.more
            exact hv.mono hmore
          · rw [hothers j hji]
            exact hv
        · obtain ⟨channel, tag, hev, hv⟩ := ht.vouched e he d hd
          exact ⟨channel, tag, i, hev, hv⟩ }

/-- **Everything that happens to a crew keeps it in order.** -/
theorem Reached.sane (h : Reached hands w) : w.Sane := by
  induction h with
  | start => exact sane_first
  | outside _ ho ih => exact ih.outside ho
  | went _ i hi hothers ih => exact ih.went hi hothers

end Crew

/-! ### Where the copies are -/

/-- **Relays that share a queue account for every copy of it.**  Each copy ever put on the
queue is acknowledged, out, or ready, and in one of these places only: no two copies there
have one number, so none was acknowledged twice.  What is out is out on an open channel, which
belongs to one relay.  And what was acknowledged was acknowledged by a relay that got that
very delivery and whose backend took charge of it. -/
theorem copies_shared {w : Crew hands} (h : Crew.Reached hands w) :
    ((w.broker.ackedFrom queue ++ w.broker.outstanding queue ++ w.broker.ready queue).map
        Copy.fresh).Perm ((w.broker.enqueuedOn queue).map Copy.fresh) ∧
      ((w.broker.ackedFrom queue ++ w.broker.outstanding queue ++ w.broker.ready queue).map
        Copy.number).Nodup ∧
      (∀ l ∈ w.broker.loans, l.delivery.queue = queue →
        (∃ lane, w.broker.channels.get? l.channel = some lane ∧ lane.isOpen = true) ∧
          ∃! i, (w.progress i).Mine l.channel) ∧
      (∀ channel tag d, .acked channel tag d ∈ w.broker.journal → d.queue = queue →
        ∃ i, (w.progress i).Vouches channel tag d) := by
  have hsane := h.sane
  have hgone : copiesIn queue w.broker.gone = w.broker.ackedFrom queue := by
    refine copiesIn_gone ?_
    intro channel tag d hd hq
    obtain ⟨_, _, _, hev, _⟩ := hsane.vouched _ hd d rfl hq
    cases hev
  refine ⟨?_, ?_, ?_, ?_⟩
  · rw [← hgone]
    exact hsane.placed.conservedOn queue
  · rw [← hgone]
    exact hsane.placed.nodupOn queue
  · intro l hl hq
    constructor
    · obtain ⟨lane, hlane, hmem⟩ := exists_lane_of_mem_loans hsane.placed.sound hl
      refine ⟨lane, hlane, ?_⟩
      cases ho : lane.isOpen with
      | true => rfl
      | false =>
          rw [hsane.placed.sound.emptied _ lane hlane ho] at hmem
          cases hmem
    · obtain ⟨i, s, hs, hc⟩ := hsane.held l hl hq
      refine ⟨i, ⟨s, hs, hc⟩, ?_⟩
      rintro j ⟨s', hs', hc'⟩
      by_contra hji
      exact hsane.distinct j i hji s' hs' s hs (hc'.trans hc.symm)
  · intro channel tag d hd hq
    have hsettled : .acked channel tag d ∈ w.broker.settlements := List.mem_filter.2 ⟨hd, rfl⟩
    obtain ⟨channel', tag', i, hev, hv⟩ := hsane.vouched _ hsettled d rfl hq
    cases hev
    exact ⟨i, hv⟩

/-! ### Two relays -/

/-- A relay after an exchange that left the source as `u`. -/
def Hand.Progress.exchanged {hand : Hand queue} (p : hand.Progress) (u : Source)
    (e : (calls Nat Stream).Exchange)
    (rest : Program (calls Nat Stream) (Option Finish × Relay.State Nat Stream))
    (side : hand.backend.State) : hand.Progress where
  sessions := u.sessions
  trace := p.trace ++ [e]
  stage := .ready rest
  side := side

open Classical in
/-- One of the relays has an exchange while nothing else happens. -/
theorem Crew.Reached.exchanged {w w' : Crew hands} (h : Crew.Reached hands w) (i : ι)
    {k : (calls Nat Stream).Call}
    {next : (calls Nat Stream).Answer k →
      Program (calls Nat Stream) (Option Finish × Relay.State Nat Stream)}
    (hp : (w.progress i).stage = .ready (.call k next)) (a : (calls Nat Stream).Answer k)
    {u : Source} {z z' : (hands i).backend.State}
    (hb : (setting queue (hands i).backend).begins
      ((w.progress i).source w.broker, (w.progress i).side) k
      ((w.progress i).source w.broker, z))
    (he : (setting queue (hands i).backend).ends ((w.progress i).source w.broker, z) k a (u, z'))
    (hbroker : w'.broker = u.broker)
    (hself : w'.progress i = (w.progress i).exchanged u ⟨k, a⟩ (next a) z')
    (hothers : ∀ j, j ≠ i → w'.progress j = w.progress j) : Crew.Reached hands w' := by
  let q : (hands i).Progress := { w.progress i with stage := .waiting k next, side := z }
  have hasked : Crew.Reached hands
      { broker := w.broker, progress := Function.update w.progress i q } := by
    refine h.went i ?_ fun j hj => Function.update_of_ne hj _ _
    show (hands i).Goes w.broker (w.progress i) w.broker (Function.update w.progress i q i)
    rw [Function.update_self]
    exact .asked hp hb
  refine hasked.went i ?_ ?_
  · show (hands i).Goes w.broker (Function.update w.progress i q i) w'.broker (w'.progress i)
    rw [Function.update_self, hbroker, hself]
    exact .answered (p := q) rfl a he
  · intro j hj
    show w'.progress j = Function.update w.progress i q j
    rw [Function.update_of_ne hj]
    exact hothers j hj

/-- A broker with two relays at work. -/
def couple {hand : Hand queue} (b : Broker) (p q : hand.Progress) :
    Crew fun _ : Bool => hand where
  broker := b
  progress := fun
    | true => p
    | false => q

section Couple

variable {hand : Hand queue} {b : Broker} {p q : hand.Progress} {u : Source}
  {k : (calls Nat Stream).Call}
  {next : (calls Nat Stream).Answer k →
    Program (calls Nat Stream) (Option Finish × Relay.State Nat Stream)}

theorem couple_self : couple b p p = { broker := b, progress := fun _ => p } := by
  refine congrArg (Crew.mk b) (funext fun i => ?_)
  cases i <;> rfl

theorem reached_first (h : Crew.Reached _ (couple b p q)) (hp : p.stage = .ready (.call k next))
    (a : (calls Nat Stream).Answer k) {z z' : hand.backend.State}
    (hb : (setting queue hand.backend).begins (p.source b, p.side) k (p.source b, z))
    (he : (setting queue hand.backend).ends (p.source b, z) k a (u, z')) :
    Crew.Reached _ (couple u.broker (p.exchanged u ⟨k, a⟩ (next a) z') q) := by
  refine h.exchanged true hp a hb he rfl rfl ?_
  intro j hj
  cases j with
  | true => exact absurd rfl hj
  | false => rfl

theorem reached_second (h : Crew.Reached _ (couple b p q)) (hq : q.stage = .ready (.call k next))
    (a : (calls Nat Stream).Answer k) {z z' : hand.backend.State}
    (hb : (setting queue hand.backend).begins (q.source b, q.side) k (q.source b, z))
    (he : (setting queue hand.backend).ends (q.source b, z) k a (u, z')) :
    Crew.Reached _ (couple u.broker p (q.exchanged u ⟨k, a⟩ (next a) z')) := by
  refine h.exchanged false hq a hb he rfl rfl ?_
  intro j hj
  cases j with
  | true => rfl
  | false => exact absurd rfl hj

end Couple

/-- Two relays that hold deliveries with equal tags have one copy each. -/
theorem copies_shared_between_two :
    ∃ (hands : Bool → Hand "reports") (w : Crew hands), Crew.Reached hands w ∧
      (w.broker.loans.map fun l => (l.channel, l.tag, l.delivery.copy.number)) =
        [(2, 1, 0), (4, 1, 1)] ∧
      ((w.broker.ackedFrom "reports" ++ w.broker.outstanding "reports" ++
        w.broker.ready "reports").map Copy.number).Nodup := by
  let copy (n : Nat) (payload : ByteArray) : Copy :=
    { number := n, payload := payload, key := "reports" }
  let first : Delivery := ⟨"reports", copy 0 ⟨#[1]⟩⟩
  let second : Delivery := ⟨"reports", copy 1 ⟨#[2]⟩⟩
  let filled : Broker :=
    { queues := ⟨[("reports", { ready := [first.copy, second.copy] })]⟩
      copies := 2
      journal := [.enqueued "reports" first.copy, .enqueued "reports" second.copy] }
  let half : Broker :=
    { filled with
      queues := ⟨[("reports", { ready := [second.copy] })]⟩
      connections := [1]
      channels := ⟨[(2, { connection := 1, prefetch := 1, lastTag := 1,
                          unacked := ⟨[(1, first)]⟩ })]⟩
      lastId := 2
      connectionsOpened := 1
      journal := filled.journal ++ [.delivered 2 1 first] }
  let hand : Hand "reports" :=
    { settings := { queue := "reports" }, backend := anyBackend, rounds := 1, start := {},
      side := (), ofQueue := rfl, apart := rfl }
  have h₀ : Crew.Reached (fun _ => hand) (couple filled hand.first hand.first) := by
    rw [couple_self]
    exact .outside (.outside (.outside .start (.operated (.declareQueue "reports")))
      (.published "" "reports" ⟨#[1]⟩)) (.published "" "reports" ⟨#[2]⟩)
  have hfirst : ∃ p, Crew.Reached (fun _ => hand) (couple half p hand.first) := by
    have h₁ := reached_first h₀ rfl (.ok 0) ⟨rfl, rfl⟩ ⟨.inr (.inr ⟨_, _, rfl, rfl, rfl⟩), rfl⟩
    have h₂ := reached_first h₁ rfl (.ok ()) ⟨rfl, trivial⟩ ⟨rfl, trivial⟩
    have h₃ := reached_first h₂ rfl true ⟨rfl, rfl⟩ ⟨⟨_, rfl, rfl, rfl⟩, rfl⟩
    have h₄ := reached_first h₃ rfl (.ok ()) ⟨rfl, rfl⟩ ⟨.inr ⟨_, rfl, rfl, rfl⟩, rfl⟩
    have h₅ := reached_first h₄ rfl (.ok ⟨⟨1, 2⟩, "reports"⟩) ⟨rfl, rfl⟩
      ⟨.inr ⟨_, rfl, rfl, rfl⟩, rfl⟩
    exact ⟨_, reached_first h₅ (u := ⟨half, [⟨1, 2⟩]⟩) rfl (.message _) ⟨rfl, rfl⟩
      ⟨⟨_, rfl, rfl⟩, rfl⟩⟩
  obtain ⟨p, h₀⟩ := hfirst
  have h₁ := reached_second h₀ rfl (.ok 0) ⟨rfl, rfl⟩ ⟨.inr (.inr ⟨_, _, rfl, rfl, rfl⟩), rfl⟩
  have h₂ := reached_second h₁ rfl (.ok ()) ⟨rfl, trivial⟩ ⟨rfl, trivial⟩
  have h₃ := reached_second h₂ rfl true ⟨rfl, rfl⟩ ⟨⟨_, rfl, rfl, rfl⟩, rfl⟩
  have h₄ := reached_second h₃ rfl (.ok ()) ⟨rfl, rfl⟩ ⟨.inr ⟨_, rfl, rfl, rfl⟩, rfl⟩
  have h₅ := reached_second h₄ rfl (.ok ⟨⟨3, 4⟩, "reports"⟩) ⟨rfl, rfl⟩
    ⟨.inr ⟨_, rfl, rfl, rfl⟩, rfl⟩
  have h₆ := reached_second h₅ rfl (.message _) ⟨rfl, rfl⟩ ⟨⟨_, rfl, rfl⟩, rfl⟩
  exact ⟨_, _, h₆, rfl, (copies_shared h₆).2.1⟩

end QueueRelay

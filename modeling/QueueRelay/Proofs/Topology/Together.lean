/-
Clients that make sure of one topology together.

They take turns in any order, so between the answer that an object is missing and the call
that makes it another client may have made it.  By then it is what the topology says, since
the others go by the same topology, and so declaring it does no harm.  A client that lost its
channel over the missing object reports that it made it, even if another was first.

What is there in the end is what any one of them would have left alone.  Only the deliveries
tell how many they were: each client that found something missing has lost its channel, so
what it had out is back on its queues.
-/
import QueueRelay.Proofs.Topology.Alone

namespace QueueRelay.Topology

open Broker

variable {ι : Type} {t : Topology} {b : Broker} {s₀ : ι → Session}

/-- Clients that are about to make sure of a topology. -/
def starting (t : Topology) (b : Broker) (s₀ : ι → Session) :
    Clients ι (Except RelayError Report) where
  broker := b
  session := s₀
  rest := fun _ => t.ensure

/-- A client has its report, and it says that something was made. -/
def Made (r : Program (Channel.calls Stream) (Except RelayError Report)) : Prop :=
  ∃ report, r = .done (.ok report) ∧
    (report.exchangeCreated = true ∨ report.queueCreated = true)

/-- **Where clients come to**, whatever turns they take. -/
theorem kept_starting [DecidableEq ι] (hb : b.Placed) (ho : InOrder b.bindings)
    (hs : ∀ i, b.check (s₀ i) = .ok ())
    (hapart : ∀ i j, (s₀ i).channel = (s₀ j).channel → i = j) (schedule : List ι) :
    ∃ ms, Clients.Kept t.Step t.Ends (t.Progress b s₀) ms ((t.starting b s₀).after schedule) ∧
      ∀ i, (∃ r, ((t.starting b s₀).after schedule).rest i = .done r) ∨
        t.left (ms i) + schedule.count i ≤ t.routingKeys.length + 6 := by
  have hstart : Clients.Kept t.Step t.Ends (t.Progress b s₀) (fun _ => {}) (t.starting b s₀) :=
    ⟨fun _ => t.keeps_ensure, progress_start hb ho hs hapart⟩
  refine Clients.kept_after left_step ?_ hstart schedule
  intro ms b' ss i c m' hstep h
  exact h.step hb (fun i => connected_of_check (hs i)) hstep

/-- A program that can make no more calls has its result. -/
theorem done_of_left {p : Program (Channel.calls Stream) (Except RelayError Report)}
    {m : Standing} (h : p.Keeps t.Step t.Ends m) (hm : t.left m = 0) : ∃ r, p = .done r := by
  cases p with
  | done r => exact ⟨r, rfl⟩
  | call c next =>
      obtain ⟨m', hstep⟩ := Program.Keeps.allowed h ((Broker.answer {} ⟨0, 0⟩ c).1)
      have hlt := left_step m _ m' hstep
      omega

/-- The messages that are ready in the end. -/
theorem ready_of_tally {k : Work ι} {b' : Broker} {ss : ι → Session}
    (h : t.Tally b s₀ k b' ss) (hall : ∀ x, t.has b' x = true) (hb : b.Placed) (queue : String) :
    b'.ready queue = returns b s₀ k.order queue ++ b.ready queue := by
  have hnone : b.queues.get? queue = none → returns b s₀ k.order queue = [] := by
    intro hq
    refine List.flatMap_eq_nil_iff.2 fun i _ => owed_of_missing hb ?_
    rw [Table.contains_eq_isSome, hq]
    rfl
  have hqueues := h.queues_eq hall
  cases hx : t.has b .queue with
  | true =>
      rw [hx] at hqueues
      exact ready_behind hqueues hnone
  | false =>
      rw [hx] at hqueues
      have hfree : b.queues.get? t.queue = none := by
        simpa [has_queue, Table.contains_eq_isSome] using hx
      have hput : (t.put b .queue).ready queue = b.ready queue := ready_set hfree rfl
      rw [ready_behind (b := t.put b .queue) hqueues, hput]
      intro hq
      refine hnone ?_
      have hset : (b.queues.set t.queue { durable := t.durable }).get? queue = none := hq
      rw [Table.get?_set] at hset
      split at hset
      · cases hset
      · exact hset

/-- What clients have in common with one of them that is alone. -/
structure Agrees (b : Broker) (s₀ : ι → Session) (w : Clients ι (Except RelayError Report))
    (alone : Broker) : Prop where
  exchanges : w.broker.exchanges = alone.exchanges
  bindings : w.broker.bindings = alone.bindings
  /-- There are the same queues, and each is durable or not as it would be. -/
  queues : ∀ queue, (w.broker.queues.get? queue).map Queue.durable =
    (alone.queues.get? queue).map Queue.durable
  /-- What those clients had out that made something is back on its queues. -/
  ready : ∃ order : List ι, order.Nodup ∧ (∀ i, i ∈ order ↔ Made (w.rest i)) ∧
    ∀ queue, w.broker.ready queue = returns b s₀ order queue ++ b.ready queue
  /-- If they had nothing out there is no difference at all. -/
  same : (∀ i, ∀ x ∈ b.loans, x.channel ≠ (s₀ i).channel) → w.broker.queues = alone.queues

section Agreement

variable {w : Clients ι (Except RelayError Report)} {ms : ι → Standing} {i : ι}

/-- The result of a client is that of where it stands. -/
theorem ends_of_done (h : Clients.Kept t.Step t.Ends (t.Progress b s₀) ms w)
    {r : Except RelayError Report} (hr : w.rest i = .done r) : t.Ends r (ms i) := by
  have hkeeps := h.keeps i
  rw [hr] at hkeeps
  exact hkeeps

/-- Where declarations are allowed no client fails. -/
theorem ok_of_done (h : Clients.Kept t.Step t.Ends (t.Progress b s₀) ms w)
    (hd : b.deniesDeclarations = false) {r : Except RelayError Report}
    (hr : w.rest i = .done r) : ∃ report, r = .ok report := by
  cases r with
  | ok report => exact ⟨report, rfl⟩
  | error e =>
      obtain ⟨k, -, hm⟩ := h.holds
      have hdenied := ((hm.fits i).denied (ends_of_done h hr)).2.1
      rw [hd] at hdenied
      cases hdenied

/-- What clients that all have their result leave is what one of them alone would leave. -/
theorem agrees_of_done (h : Clients.Kept t.Step t.Ends (t.Progress b s₀) ms w) (hb : b.Placed)
    (ho : InOrder b.bindings) (hs : ∀ i, b.check (s₀ i) = .ok ())
    (hd : b.deniesDeclarations = false) (hdone : ∀ i, ∃ r, w.rest i = .done r) (i : ι) :
    Agrees b s₀ w (Client.run { broker := b, session := s₀ i } t.ensure).2.broker := by
  have hreports : ∀ j, ∃ report, w.rest j = .done (.ok report) ∧ t.Ends (.ok report) (ms j) := by
    intro j
    obtain ⟨r, hr⟩ := hdone j
    obtain ⟨report, rfl⟩ := ok_of_done h hd hr
    exact ⟨report, hr, ends_of_done h hr⟩
  obtain ⟨k, ht, hm⟩ := h.holds
  obtain ⟨report, -, hends, -⟩ := hreports i
  obtain ⟨-, hall, hkeys⟩ := (hm.fits i).finished hends
  obtain ⟨m, hends', hof⟩ := run_ensure (t := t) hb ho (hs i)
  generalize Client.run { broker := b, session := s₀ i } t.ensure = alone at hends' hof
  obtain ⟨r, w'⟩ := alone
  -- the one that is alone comes to its report as well
  have hensured : ∃ report, t.Ensured b (s₀ i) report w' := by
    cases r with
    | ok report => exact ⟨report, (hof.ensured hends').1⟩
    | error e =>
        rw [(hof.barred ho hends').2.1] at hd
        cases hd
  obtain ⟨report', hsolo⟩ := hensured
  obtain ⟨k', ht', -⟩ := hof.progress
  refine ⟨?_, ?_, ?_, ⟨k.order, ht.nodup, ?_, ready_of_tally ht hall hb⟩, ?_⟩
  · rw [ht.exchanges_eq hall, hsolo.exchanges]
  · refine ht.ordered.eq_of_mem ht'.ordered fun z => ?_
    rw [hm.bindings_eq ht hkeys, hsolo.bindings]
  · intro queue
    rw [ht.queues_eq hall, hsolo.queues, Table.get?_mapWith, Table.get?_mapWith, Option.map_map,
      Option.map_map]
    refine Option.map_congr fun q _ => ?_
    simp only [Function.comp_apply]
    split <;> rfl
  · intro j
    obtain ⟨report, hrest, he, hr⟩ := hreports j
    rw [hm.lost j, Standing.Lost, he]
    constructor
    · rintro (⟨x, hx⟩ | hfalse)
      · refine ⟨report, hrest, ?_⟩
        rw [hr]
        cases x with
        | exchange => exact .inl hx
        | queue => exact .inr hx
      · exact hfalse.elim
    · rintro ⟨report', hrest', hmade⟩
      rw [hrest] at hrest'
      cases hrest'
      rw [hr] at hmade
      rcases hmade with hmade | hmade
      · exact .inl ⟨.exchange, hmade⟩
      · exact .inl ⟨.queue, hmade⟩
  · intro hnothing
    have howed : ∀ j queue, b.owed (s₀ j).channel queue = [] := fun j _ => owed_eq_nil (hnothing j)
    rw [ht.queues_eq hall, hsolo.queues]
    refine Table.mapWith_congr fun name q _ => ?_
    rw [returns, List.flatMap_eq_nil_iff.2 fun j _ => howed j name, howed, Queue.behind_nil]
    split <;> rfl

end Agreement

/-- **Making sure of a topology together.**  Whatever turns the clients take, none fails, and
each has its report after a bounded number of its own turns.  When all have theirs, the
exchanges, the queues and the bindings are as after any one of them alone, but for the
deliveries that those had out who made something. -/
theorem ensure_together [DecidableEq ι] (deeds : List Deed) (t : Topology) {s₀ : ι → Session}
    (hs : ∀ i, (after deeds).check (s₀ i) = .ok ())
    (hapart : ∀ i j, (s₀ i).channel = (s₀ j).channel → i = j)
    (hd : (after deeds).deniesDeclarations = false) (schedule : List ι) :
    (∀ i r, ((t.starting (after deeds) s₀).after schedule).rest i = .done r →
        ∃ report, r = .ok report) ∧
      (∀ i, t.routingKeys.length + 6 ≤ schedule.count i →
        ∃ r, ((t.starting (after deeds) s₀).after schedule).rest i = .done r) ∧
      ((∀ i, ∃ r, ((t.starting (after deeds) s₀).after schedule).rest i = .done r) →
        ∀ i, Agrees (after deeds) s₀ ((t.starting (after deeds) s₀).after schedule)
          (Client.run { broker := after deeds, session := s₀ i } t.ensure).2.broker) := by
  have hb := placed_after deeds
  have ho := inOrder_after deeds
  obtain ⟨ms, hkept, hleft⟩ := kept_starting (t := t) hb ho hs hapart schedule
  refine ⟨fun i r hr => ok_of_done hkept hd hr, ?_, ?_⟩
  · intro i hi
    rcases hleft i with hdone | hleft
    · exact hdone
    · exact done_of_left (hkept.keeps i) (by omega)
  · exact fun hdone => agrees_of_done hkept hb ho hs hd hdone

/-- A broker with two clients that have one message of a queue out each. -/
def bothHolding : List Deed :=
  [.operated (.declareQueue "jobs"), .published "" "jobs" ⟨#[1]⟩, .published "" "jobs" ⟨#[2]⟩,
    .connected, .connected, .asked ⟨1, 2⟩ (.consume "jobs" "worker"),
    .asked ⟨3, 4⟩ (.consume "jobs" "worker"), .took ⟨⟨1, 2⟩, "jobs"⟩, .took ⟨⟨3, 4⟩, "jobs"⟩]

/-- The sessions of the two clients of `bothHolding`. -/
def couple : Bool → Session
  | false => ⟨1, 2⟩
  | true => ⟨3, 4⟩

/-- The two clients take one turn after the other, often enough for both to have a report. -/
def alternating : List Bool := (List.replicate 11 [false, true]).flatten

theorem couple_apart : ∀ i j, (couple i).channel = (couple j).channel → i = j := by decide

/-- The clients of `bothHolding` make sure of a topology whose exchange is missing. -/
theorem ensure_together_while_holding :
    (∀ i, (after bothHolding).check (couple i) = .ok ()) ∧
      (∀ i, 11 ≤ alternating.count i) ∧
      (∀ i, ∃ r, ((starting { queue := "jobs" } (after bothHolding) couple).after
        alternating).rest i = .done r) ∧
      ∀ i, Agrees (after bothHolding) couple
        ((starting { queue := "jobs" } (after bothHolding) couple).after alternating)
        (Client.run { broker := after bothHolding, session := couple i }
          ({ queue := "jobs" } : Topology).ensure).2.broker := by
  have hs : ∀ i, (after bothHolding).check (couple i) = .ok () := by
    intro i
    cases i <;> rfl
  have hturns : ∀ i, 11 ≤ alternating.count i := by decide
  obtain ⟨-, hdone, hagrees⟩ := ensure_together bothHolding { queue := "jobs" } hs couple_apart rfl
    alternating
  exact ⟨hs, hturns, fun i => hdone i (hturns i), hagrees fun i => hdone i (hturns i)⟩

/-- The queues are not always as after one client alone: both get back what they had out. -/
theorem ensure_together_moves_messages :
    ¬ ∀ (deeds : List Deed) (t : Topology) (s₀ : Bool → Session) (schedule : List Bool),
      (∀ i, (after deeds).check (s₀ i) = .ok ()) →
      (∀ i j, (s₀ i).channel = (s₀ j).channel → i = j) →
      (after deeds).deniesDeclarations = false →
      (∀ i, t.routingKeys.length + 6 ≤ schedule.count i) →
        ∃ i, ((t.starting (after deeds) s₀).after schedule).broker.queues =
          (Client.run { broker := after deeds, session := s₀ i } t.ensure).2.broker.queues := by
  intro h
  have hs : ∀ i, (after bothHolding).check (couple i) = .ok () := by
    intro i
    cases i <;> rfl
  obtain ⟨i, hi⟩ := h bothHolding { queue := "jobs" } couple alternating hs couple_apart rfl
    (by decide)
  cases i with
  | false => exact absurd hi (by decide +kernel)
  | true => exact absurd hi (by decide +kernel)

end QueueRelay.Topology

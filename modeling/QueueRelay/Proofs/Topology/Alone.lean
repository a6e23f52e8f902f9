/-
One client that makes sure of a topology, with no other client acting meanwhile.

It is the case of one client in the account of any number.  What the account leaves open is
settled by there being no one else: what was made was made by this client, which knows of it,
and the channel that may be lost is its own.

A channel that is lost gives back what it had out.  So a client that finds something missing
also finds its outstanding deliveries back on their queues, and that is the only respect in
which messages are touched.
-/
import QueueRelay.Proofs.Broker.Clients
import QueueRelay.Proofs.Broker.Routes
import QueueRelay.Proofs.Topology.Progress

namespace QueueRelay.Topology

open Broker

variable {t : Topology} {b : Broker} {s : Session} {x : Item}

/-! ### What is asked -/

/-- Whether a call declares something other than passively. -/
def Creates : Channel.Call → Bool
  | .declareExchange _ _ how | .declareQueue _ how => !how.isPassive
  | _ => false

/-- Only one who is about to make an object declares it other than passively. -/
theorem Step.makes {m m' : Standing} {e : (Channel.calls Stream).Exchange} (h : t.Step m e m')
    (he : Creates e.call = true) : ∃ x, m.errand = .makes x := by
  cases h with
  | found x | missed x | barred x => cases x <;> cases he
  | reopened | stuck | bound | unbound => cases he
  | made x | refused x => exact ⟨x, rfl⟩

/-- The exchange and the queue are both there. -/
def complete (t : Topology) (b : Broker) : Bool := t.has b .exchange && t.has b .queue

theorem complete_iff : t.complete b = true ↔ ∀ x, t.has b x = true := by
  unfold complete
  rw [Bool.and_eq_true]
  constructor
  · rintro ⟨he, hq⟩ x
    cases x with
    | exchange => exact he
    | queue => exact hq
  · exact fun h => ⟨h .exchange, h .queue⟩

theorem complete_eq_false_iff : t.complete b = false ↔ ∃ x, t.has b x = false := by
  rw [← Bool.not_eq_true, complete_iff]
  simp

/-! ### What comes of it -/

/-- What a client comes to that made sure of a topology. -/
structure Ensured (t : Topology) (b : Broker) (s : Session) (report : Report) (w : Client) :
    Prop where
  isOpen : w.broker.check w.session = .ok ()
  report : report = ⟨!t.has b .exchange, !t.has b .queue, t.routingKeys.length⟩
  exchanges : w.broker.exchanges =
    if t.has b .exchange then b.exchanges
    else b.exchanges.set t.exchange { kind := t.kind, durable := t.durable }
  /-- If something was missing the client's deliveries are back in front of their queues. -/
  queues : w.broker.queues =
    (if t.has b .queue then b.queues
      else b.queues.set t.queue { durable := t.durable }).mapWith fun name q =>
        if t.complete b then q else q.behind (b.owed s.channel name)
  bindings : ∀ x, x ∈ w.broker.bindings ↔ x ∈ b.bindings ∨ t.Binds t.routingKeys x

/-- What a client comes to that was not allowed to make what was missing. -/
structure Barred (t : Topology) (b : Broker) (s : Session) (e : RelayError) (w : Client) :
    Prop where
  isClosed : w.broker.check w.session = .error (.connectionLost "channel closed")
  /-- The error names what was missing first. -/
  error : ∃ x, t.has b x = false ∧ t.Reached b x ∧
    e = .provisioning (t.nameOf x) (denial (t.nameOf x))
  exchanges : w.broker.exchanges = b.exchanges
  /-- The client's deliveries are back in front of their queues. -/
  queues : w.broker.queues = b.queues.mapWith fun name q => q.behind (b.owed s.channel name)
  bindings : w.broker.bindings = b.bindings

/-- Where a client stands that is alone, and what it asked so far. -/
structure Standing.Of (t : Topology) (b : Broker) (s : Session) (m : Standing) (w : Client) :
    Prop where
  progress : t.Progress b (fun _ : Unit => s) (fun _ => m) w.broker fun _ => w.session
  /-- It made something only if something was missing. -/
  asked : ∀ e ∈ w.said, Creates e.call = true → t.complete b = false

theorem Standing.Of.step (hb : b.Placed) (hs : s.connection ∈ b.connections) {m m' : Standing}
    {w : Client} {c : Channel.Call}
    (hstep : t.Step m ⟨c, (w.broker.answer w.session c).1⟩ m') (h : Standing.Of t b s m w) :
    Standing.Of t b s m' (Client.ask c w).2 where
  progress := by
    have hone : ∀ {α : Type} (a a' : α), Function.update (fun _ : Unit => a) () a' = fun _ => a' :=
      fun a a' => funext fun _ => Function.update_self () a' fun _ => a
    have hnext := h.progress.step (i := ()) hb (fun _ => hs) hstep
    rw [hone, hone] at hnext
    exact hnext
  asked := by
    intro e he hcreates
    rcases List.mem_append.1 he with he | he
    · exact h.asked e he hcreates
    · obtain ⟨x, hx⟩ := hstep.makes (by rwa [List.mem_singleton.1 he] at hcreates)
      obtain ⟨k, -, hm⟩ := h.progress
      have hfits := hm.fits ()
      unfold Fits at hfits
      rw [hx] at hfits
      exact complete_eq_false_iff.2 ⟨x, hfits.2.1⟩

/-- A list without repetition over one element has it or is empty. -/
theorem returns_unit {order : List Unit} (h : order.Nodup) (queue : String) :
    returns b (fun _ => s) order queue = if () ∈ order then b.owed s.channel queue else [] := by
  cases order with
  | nil => rfl
  | cons u order =>
      cases order with
      | nil => simp [returns]
      | cons u' order => exact absurd List.mem_cons_self (List.nodup_cons.1 h).1

/-- **Where a client comes to that is alone.** -/
theorem run_ensure (hb : b.Placed) (ho : InOrder b.bindings) (hs : b.check s = .ok ()) :
    ∃ m, t.Ends (Client.run { broker := b, session := s } t.ensure).1 m ∧
      Standing.Of t b s m (Client.run { broker := b, session := s } t.ensure).2 := by
  refine Client.keeps_run (fun m w c m' => Standing.Of.step hb (connected_of_check hs))
    t.keeps_ensure ⟨progress_start hb ho (fun _ => hs) fun _ _ _ => rfl, by simp⟩

section Outcome

variable {m : Standing} {w : Client} {r : Except RelayError Report}

theorem Standing.Of.ensured (h : Standing.Of t b s m w) {report : Report}
    (hr : t.Ends (.ok report) m) :
    t.Ensured b s report w ∧ (b.deniesDeclarations = false ∨ t.complete b = true) := by
  obtain ⟨he, hr⟩ := hr
  obtain ⟨k, ht, hm⟩ := h.progress
  obtain ⟨hopen, hall, hkeys⟩ := (hm.fits ()).finished he
  -- what was missing was made, and by no one else
  have hmade : ∀ x, m.made x = !t.has b x := by
    intro x
    cases hx : t.has b x with
    | true =>
        cases hm' : m.made x with
        | false => rfl
        | true =>
            rw [hm.needed () x hm'] at hx
            cases hx
    | false =>
        obtain ⟨_, hm'⟩ := hm.makers x (by rw [ht.made_eq hall, hx]; rfl)
        exact hm'
  have hlost : () ∈ k.order ↔ t.complete b = false := by
    rw [hm.lost (), complete_eq_false_iff, Standing.Lost, he]
    simp [hmade]
  refine ⟨⟨hopen, ?_, ht.exchanges_eq hall, ?_, hm.bindings_eq ht hkeys⟩, ?_⟩
  · rw [hr, hmade, hmade]
  · rw [ht.queues_eq hall]
    refine Table.mapWith_congr fun name q _ => ?_
    rw [returns_unit ht.nodup]
    by_cases hc : t.complete b = true <;> simp [hlost, hc]
  · cases hc : t.complete b with
    | true => exact .inr rfl
    | false =>
        obtain ⟨x, hx⟩ := complete_eq_false_iff.1 hc
        exact .inl (ht.missing x (by rw [ht.made_eq hall, hx]; rfl)).2

theorem Standing.Of.barred (ho : InOrder b.bindings) (h : Standing.Of t b s m w)
    {e : RelayError} (hr : t.Ends (.error e) m) :
    t.Barred b s e w ∧ b.deniesDeclarations = true ∧ t.complete b = false := by
  obtain ⟨k, ht, hm⟩ := h.progress
  obtain ⟨hclosed, hd, x, hx, hreached, heq⟩ := (hm.fits ()).denied hr
  have hmade : ∀ x, k.made x ≠ true := by
    intro x hk
    rw [(ht.missing x hk).2] at hd
    cases hd
  have hhas : ∀ x, t.has w.broker x = t.has b x := by
    intro x
    rw [Bool.eq_iff_iff, ht.has_eq]
    exact or_iff_left (hmade x)
  have hlost : () ∈ k.order := by
    rw [hm.lost (), Standing.Lost, show m.errand = .failed e from hr]
    exact .inr trivial
  -- nothing was bound, for that takes both objects
  have hkeys : k.keys = [] := by
    by_contra hne
    have hthere := ht.rooted hne x
    rw [hhas, hx] at hthere
    cases hthere
  refine ⟨⟨hclosed, ⟨x, hx, ?_, heq⟩, ?_, ?_, ?_⟩, hd, complete_eq_false_iff.2 ⟨x, hx⟩⟩
  · refine hreached.mono fun y hy => ?_
    rw [← hhas]
    exact hy
  · rw [ht.exchanges, if_neg (hmade _)]
  · rw [ht.queues, if_neg (hmade _)]
    refine Table.mapWith_congr fun name q _ => ?_
    rw [returns_unit ht.nodup, if_pos hlost]
  · refine ht.ordered.eq_of_mem ho fun y => ?_
    rw [ht.bindings, hkeys]
    simp [Binds]

end Outcome

/-! ### Once and again -/

/-- A message with one of the topology's keys reaches its queue. -/
def Reaches (t : Topology) (b : Broker) : Prop :=
  t.exchange ≠ "" → ∀ key ∈ t.routingKeys, ∀ payload,
    (b.publishOutside t.exchange key payload).1 = true ∧
      ∃ copy : Copy, copy.payload = payload ∧ copy.key = key ∧
        (b.publishOutside t.exchange key payload).2.ready t.queue = b.ready t.queue ++ [copy]

/-- Making sure of the topology once more, whether or not declarations are refused by now,
makes nothing, asks for nothing to be made, and changes nothing. -/
def Stays (t : Topology) (w : Client) : Prop :=
  ∀ denies, ∃ w' : Client,
    Client.run { broker := { w.broker with deniesDeclarations := denies }, session := w.session }
        t.ensure = (.ok ⟨false, false, t.routingKeys.length⟩, w') ∧
      (∀ e ∈ w'.said, Creates e.call = false) ∧ w'.broker.exchanges = w.broker.exchanges ∧
      w'.broker.queues = w.broker.queues ∧ w'.broker.bindings = w.broker.bindings

section Again

variable {report : Report} {w : Client}

theorem Ensured.has (h : t.Ensured b s report w) (x : Item) : t.has w.broker x = true := by
  cases x with
  | exchange =>
      rw [has_exchange, h.exchanges]
      split
      · assumption
      · exact (Table.contains_set _ _ _).2 (.inl rfl)
  | queue =>
      rw [has_queue, h.queues, Table.contains_mapWith]
      split
      · assumption
      · exact (Table.contains_set _ _ _).2 (.inl rfl)

theorem Ensured.reaches (h : t.Ensured b s report w) : t.Reaches w.broker := by
  intro hname key hkey payload
  exact reaches_of_bound hname (h.has .exchange) (h.has .queue)
    ((h.bindings _).2 (.inr ⟨key, hkey, rfl⟩)) payload

/-- With everything there, and all keys bound, nothing is made and nothing changes. -/
theorem run_complete (hb : b.Placed) (ho : InOrder b.bindings) (hs : b.check s = .ok ())
    (hall : ∀ x, t.has b x = true) (hbound : ∀ z, t.Binds t.routingKeys z → z ∈ b.bindings) :
    ∃ w : Client, Client.run { broker := b, session := s } t.ensure =
        (.ok ⟨false, false, t.routingKeys.length⟩, w) ∧
      (∀ e ∈ w.said, Creates e.call = false) ∧ w.broker.exchanges = b.exchanges ∧
      w.broker.queues = b.queues ∧ w.broker.bindings = b.bindings := by
  have hcomplete : t.complete b = true := complete_iff.2 hall
  obtain ⟨m, hends, hof⟩ := run_ensure (t := t) hb ho hs
  cases hr : Client.run { broker := b, session := s } t.ensure with
  | mk r w =>
      rw [hr] at hends hof
      cases r with
      | error e =>
          rw [(hof.barred ho hends).2.2] at hcomplete
          cases hcomplete
      | ok report =>
          have hdone := (hof.ensured hends).1
          have hreport := hdone.report
          rw [hall, hall] at hreport
          refine ⟨w, by rw [hreport]; rfl, ?_, ?_, ?_, ?_⟩
          · intro e he
            cases hc : Creates e.call with
            | false => rfl
            | true =>
                rw [hof.asked e he hc] at hcomplete
                cases hcomplete
          · exact hdone.exchanges.trans (if_pos (hall .exchange))
          · rw [hdone.queues, if_pos (hall .queue)]
            refine Table.mapWith_eq_self fun name q _ => ?_
            rw [if_pos hcomplete]
          · obtain ⟨k, ht, -⟩ := hof.progress
            refine ht.ordered.eq_of_mem ho fun z => ?_
            rw [hdone.bindings]
            exact or_iff_left_of_imp (hbound z)

theorem Ensured.stays (h : t.Ensured b s report w) (hb : w.broker.Placed)
    (ho : InOrder w.broker.bindings) : t.Stays w := by
  intro denies
  have hshifts : Shifts [] w.broker { w.broker with deniesDeclarations := denies } :=
    shifts_arranged hb rfl rfl rfl rfl rfl rfl
  refine run_complete hshifts.placed ho h.isOpen (fun x => ?_) fun z hz =>
    (h.bindings z).2 (.inr hz)
  rw [← h.has x]
  cases x <;> rfl

end Again

/-- **Making sure of a topology, alone with a broker.**  It succeeds just if declarations are
allowed or nothing is missing.  Then everything is there, messages get through, and to do it
again changes nothing.  If it fails, exchanges and bindings are as before.  In both cases the
queues have their messages still, behind those that the client had out if it lost its
channel. -/
theorem ensure_alone (deeds : List Deed) (t : Topology) {s : Session}
    (hs : (after deeds).check s = .ok ()) :
    ∃ r w, Client.run { broker := after deeds, session := s } t.ensure = (r, w) ∧
      ((∃ report, r = .ok report) ↔
        (after deeds).deniesDeclarations = false ∨ t.complete (after deeds) = true) ∧
      (∀ report, r = .ok report →
        t.Ensured (after deeds) s report w ∧ t.Reaches w.broker ∧ t.Stays w) ∧
      ∀ e, r = .error e → t.Barred (after deeds) s e w := by
  have hb := placed_after deeds
  have ho := inOrder_after deeds
  obtain ⟨m, hends, hof⟩ := run_ensure (t := t) hb ho hs
  cases hr : Client.run { broker := after deeds, session := s } t.ensure with
  | mk r w =>
      rw [hr] at hends hof
      refine ⟨r, w, rfl, ?_, ?_, ?_⟩
      · cases r with
        | ok report => exact iff_of_true ⟨report, rfl⟩ (hof.ensured hends).2
        | error e =>
            obtain ⟨-, hd, hc⟩ := hof.barred ho hends
            refine iff_of_false nofun ?_
            rw [hd, hc]
            exact not_or.2 ⟨Bool.true_eq_false.mp, Bool.false_ne_true⟩
      · rintro report rfl
        have hdone := (hof.ensured hends).1
        obtain ⟨k, ht, -⟩ := hof.progress
        exact ⟨hdone, hdone.reaches, hdone.stays ht.placed ht.ordered⟩
      · rintro e rfl
        exact (hof.barred ho hends).1

/-- A broker with a client that has the only message of a queue out. -/
def holding : List Deed :=
  [.operated (.declareQueue "jobs"), .published "" "jobs" ⟨#[1]⟩, .connected,
    .asked ⟨1, 2⟩ (.consume "jobs" "worker"), .took ⟨⟨1, 2⟩, "jobs"⟩]

/-- The client of `holding` makes sure of a topology whose exchange is missing. -/
theorem ensure_alone_while_holding :
    (after holding).check ⟨1, 2⟩ = .ok () ∧
      ∃ w, Client.run { broker := after holding, session := ⟨1, 2⟩ }
          ({ queue := "jobs" } : Topology).ensure = (.ok ⟨true, false, 5⟩, w) ∧
        Ensured { queue := "jobs" } (after holding) ⟨1, 2⟩ ⟨true, false, 5⟩ w ∧
        Reaches { queue := "jobs" } w.broker ∧ Stays { queue := "jobs" } w := by
  have hs : (after holding).check ⟨1, 2⟩ = .ok () := rfl
  obtain ⟨r, w, hrun, -, hok, -⟩ := ensure_alone holding { queue := "jobs" } hs
  have hr : r = .ok ⟨true, false, 5⟩ :=
    (congrArg Prod.fst hrun).symm.trans (by decide +kernel)
  rw [hr] at hrun
  exact ⟨hs, w, hrun, hok _ hr⟩

/-- Queues do not always keep their messages: what the client had out comes back. -/
theorem ensure_moves_messages :
    ¬ ∀ (deeds : List Deed) (t : Topology) (s : Session), (after deeds).check s = .ok () →
      ∀ report w, Client.run { broker := after deeds, session := s } t.ensure = (.ok report, w) →
        ∀ queue q, (after deeds).queues.get? queue = some q →
          w.broker.queues.get? queue = some q := by
  intro h
  cases hrun : Client.run { broker := after holding, session := ⟨1, 2⟩ }
      ({ queue := "jobs" } : Topology).ensure with
  | mk r w =>
      have hr : r = .ok ⟨true, false, 5⟩ :=
        (congrArg Prod.fst hrun).symm.trans (by decide +kernel)
      have hw : (w.broker.ready "jobs").length = 1 :=
        (congrArg (fun p => (p.2.broker.ready "jobs").length) hrun).symm.trans (by decide +kernel)
      rw [hr] at hrun
      have hsame := h holding _ ⟨1, 2⟩ rfl _ w hrun "jobs" {} (by decide +kernel)
      rw [ready, hsame] at hw
      cases hw

end QueueRelay.Topology

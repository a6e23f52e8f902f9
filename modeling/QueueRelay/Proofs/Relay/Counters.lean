/-
What the counters of a relay count.

A relay counts as it goes: a message when it comes, a panic when the backend does not return,
a disposition when the source took it.  `Stats.tally` says what each exchange adds, and a run
keeps to it, so the counters can be read off the exchanges alone.  Most parts of a relay
exchange nothing that counts, and they are dealt with by the calls they make.

What the counters have to do with each other is a matter of standing: every message that
came was disposed of, or could not be, or is the one in hand.
-/
import QueueRelay.Proofs.Link.Own
import QueueRelay.Proofs.Relay.Course

namespace QueueRelay.Relay

open Program

variable {σ δ α : Type}

/-! ### Exchanges that count -/

/-- The counters after an exchange. -/
def Stats.tally (s : Stats) (e : (calls σ δ).Exchange) : Stats :=
  match e with
  | ⟨.next _, .message m⟩ =>
    { s with
      received := s.received + 1
      redelivered := if m.redelivered then s.redelivered + 1 else s.redelivered }
  | ⟨.send _, .panicked _⟩ => { s with faults := s.faults + 1 }
  | ⟨.source (.ask _ (.ack _)), .ok _⟩ => { s with acked := s.acked + 1 }
  | ⟨.source (.ask _ (.nack _ _)), .ok _⟩ => { s with requeued := s.requeued + 1 }
  | _ => s

/-- The counters of some exchanges. -/
def scoreOf (t : List (calls σ δ).Exchange) : Stats := t.foldl Stats.tally {}

/-- The backend panicked with a message. -/
def panics (e : (calls σ δ).Exchange) : Bool :=
  match e with
  | ⟨.send _, .panicked _⟩ => true
  | _ => false

/-- A message could not be disposed of. -/
def failsToDispose (e : (calls σ δ).Exchange) : Bool :=
  match e with
  | ⟨.source (.ask _ (.ack _)), .error _⟩ => true
  | ⟨.source (.ask _ (.nack _ _)), .error _⟩ => true
  | _ => false

/-- A call on the link that disposes of no message. -/
def Spares : (BrokerLink σ δ).Call → Prop
  | .ask _ (.ack _) | .ask _ (.nack _ _) => False
  | _ => True

/-- A call whose answer counts for nothing. -/
def Uncounted : Call σ δ → Prop
  | .source k => Spares k
  | .next _ | .send _ => False
  | _ => True

theorem tally_uncounted {k : (calls σ δ).Call} (h : Uncounted k) (a : (calls σ δ).Answer k)
    (s : Stats) : s.tally ⟨k, a⟩ = s := by
  cases k with
  | source k =>
      cases k with
      | ask j k =>
          cases k with
          | ack | nack => exact h.elim
          | _ => rfl
      | _ => rfl
  | next | send => exact h.elim
  | _ => rfl

theorem scoreOf_snoc (t : List (calls σ δ).Exchange) (e : (calls σ δ).Exchange) :
    scoreOf (t ++ [e]) = (scoreOf t).tally e := by
  simp [scoreOf]

theorem faults_tally (s : Stats) (e : (calls σ δ).Exchange) :
    (s.tally e).faults = s.faults + if panics e then 1 else 0 := by
  obtain ⟨k, a⟩ := e
  cases k with
  | source k =>
      cases k with
      | ask j k =>
          cases k with
          | ack | nack => cases a <;> rfl
          | _ => rfl
      | _ => rfl
  | next d | send m => cases a <;> rfl
  | _ => rfl

/-- The faults of a run are the panics of its backend. -/
theorem faults_scoreOf (t : List (calls σ δ).Exchange) :
    (scoreOf t).faults = t.countP panics := by
  have hall : ∀ s : Stats, (t.foldl Stats.tally s).faults = s.faults + t.countP panics := by
    induction t with
    | nil => exact fun _ => rfl
    | cons e t ih =>
        intro s
        rw [List.foldl_cons, ih, faults_tally, List.countP_cons]
        omega
  exact (hall {}).trans (Nat.zero_add _)

/-! ### Keeping count -/

/-- The counters with nothing said of reconnects, which are not counted by exchanges. -/
def Stats.counts (s : Stats) : Stats := { s with sourceReconnects := 0 }

/-- The counters go as the exchanges say. -/
def Counts (s : Stats) (e : (calls σ δ).Exchange) (s' : Stats) : Prop := s' = s.tally e

/-- The relay has counted so far. -/
def State.Counted (r : State σ δ) (s : Stats) : Prop := r.stats.counts = s

theorem only_onSource {P : Call σ δ → Prop} {p : Program (BrokerLink σ δ) α}
    (h : p.Only fun k => P (.source k)) : (onSource p).Only P :=
  h.through fun _ hk => ⟨hk, fun _ => trivial⟩

theorem only_onSession {P : (BrokerLink σ δ).Call → Prop} {s : σ}
    {p : Program (Channel.calls δ) α} (h : p.Only fun k => P (.ask s k)) :
    (onSession s p).Only P :=
  h.through fun _ hk => ⟨hk, fun _ => trivial⟩

/-- A program without a call that counts leaves the counters alone. -/
theorem keeps_uncounted {p : Program (calls σ δ) α} (h : p.Only Uncounted) (s : Stats) :
    p.Keeps Counts (fun _ s' => s' = s) s :=
  h.keeps fun _ a hk => (tally_uncounted hk a s).symm

theorem spares_of_own {k : (BrokerLink σ δ).Call} (h : Link.Own k) : Spares k := by
  cases k with
  | ask => exact h.elim
  | _ => trivial

/-- A program that only looks after the link leaves the counters alone. -/
theorem keeps_upkeep {p : Program (BrokerLink σ δ) α} (h : p.Only Link.Own) (s : Stats) :
    (onSource p).Keeps Counts (fun _ s' => s' = s) s :=
  keeps_uncounted (only_onSource (h.mono fun _ => spares_of_own)) s

theorem spares_subscribe (c : Settings) (l : Link σ) : (subscribe (δ := δ) c l).Only Spares := by
  have hlive : (l.ensureLive (C := Channel.calls δ)).Only Spares :=
    l.only_ensureLive.mono fun _ => spares_of_own
  refine hlive.bind fun r => ?_
  obtain ⟨r, l⟩ := r
  cases r with
  | error e => trivial
  | ok s =>
      refine Only.bind (Only.bind (only_perform trivial) fun r => ?_) fun _ => trivial
      cases r with
      | error e => trivial
      | ok u => exact only_perform trivial

section Parts

variable {c : Settings} {r : State σ δ} {s : Stats}

theorem counts_start (h : r.Counted s) :
    (start c r).Keeps Counts (fun a s' => s' = s ∧ a.2.Counted s) s := by
  refine (keeps_upkeep r.source.only_establish s).bind ?_
  intro a s' hs
  subst hs
  obtain ⟨a, l⟩ := a
  cases a with
  | error e => exact ⟨rfl, h⟩
  | ok session =>
      have hprovision : (provision (δ := δ) c session).Only Uncounted := by
        unfold provision
        cases c.topology with
        | none => trivial
        | some t =>
            refine Only.bind (only_onSource (only_onSession ?_)) fun _ => trivial
            refine (only_ensure t).mono fun k hk => ?_
            cases k with
            | ack | nack => exact hk.elim
            | _ => trivial
      refine (keeps_uncounted hprovision s').bind ?_
      intro a s'' hs
      subst hs
      cases a with
      | error e => exact ⟨rfl, h⟩
      | ok u =>
          refine keeps_perform_bind fun a => ⟨s'', rfl, ?_⟩
          cases a with
          | error e => exact ⟨rfl, h⟩
          | ok u => exact ⟨rfl, h⟩

theorem counts_begin (h : r.Counted s) :
    (begin c r).Keeps Counts (fun a s' => a.2.Counted s') s := by
  refine (counts_start h).bind ?_
  rintro ⟨a, r⟩ s' ⟨rfl, hr⟩
  cases a with
  | error e => exact hr
  | ok u =>
      refine (keeps_uncounted (only_onSource (spares_subscribe c _)) s').bind ?_
      rintro ⟨a, l⟩ s'' rfl
      cases a with
      | error e => exact hr
      | ok d => exact hr

theorem counts_close (h : r.Counted s) :
    (close r).Keeps Counts (fun r' s' => r'.Counted s') s := by
  refine keeps_perform_bind fun u => ⟨s, rfl, ?_⟩
  refine (keeps_upkeep r.source.only_release s).bind ?_
  rintro l s' rfl
  exact h

/-! ### One message -/

theorem counts_forward {m : Message} (h : (r.took m).Counted s) :
    (forward m r).Keeps Counts (fun a s' => a.2.Counted s') s := by
  refine keeps_perform_bind ?_
  intro a
  refine ⟨_, rfl, ?_⟩
  subst h
  cases a with
  | outcome o => rfl
  | panicked detail => rfl

theorem counts_dispose {m : Message} {o : Outcome} (h : r.Counted s) :
    (dispose m o r).Keeps Counts (fun r' s' => r'.Counted s') s := by
  subst h
  unfold dispose settle
  cases r.source.session with
  | none => rfl
  | some session =>
      dsimp only
      cases ho : o.isDelivered with
      | true | false =>
          refine keeps_perform_bind ?_
          intro a
          refine ⟨_, rfl, ?_⟩
          cases a with
          | ok u => rfl
          | error e => rfl

/-- The relay after a round. -/
def Round.state : Round σ δ → State σ δ
  | .go r | .stop r | .overflow r => r

theorem counts_recover {o : Outcome} (h : r.Counted s) :
    (recover c o r).Keeps Counts (fun a s' => a.state.Counted s') s := by
  unfold recover
  split
  · dsimp only
    split
    · exact h
    · refine keeps_perform_bind fun p => ⟨s, rfl, ?_⟩
      cases p with
      | stop => exact h
      | elapsed => exact h
  · exact h

theorem counts_deliver {stream : δ} (h : r.Counted s) :
    (deliver c stream r).Keeps Counts (fun a s' => a.state.Counted s') s := by
  refine keeps_perform_bind ?_
  intro a
  refine ⟨_, rfl, ?_⟩
  cases a with
  | stop | failed e | ended => exact h
  | message m =>
      have htook : (r.took m).Counted (s.tally (σ := σ) ⟨.next stream, .message m⟩) := by
        subst h
        cases hm : m.redelivered <;>
          simp [State.Counted, State.took, Stats.tally, Stats.counts, hm]
      refine (counts_forward htook).bind ?_
      rintro ⟨o, r'⟩ s' hr
      refine (counts_dispose hr).bind ?_
      intro r'' s'' hr
      exact counts_recover hr

/-! ### A run -/

theorem counts_resubscribe (h : r.Counted s) :
    (resubscribe c r).Keeps Counts (fun a s' => a.state.Counted s') s := by
  unfold resubscribe
  split
  · exact h
  · refine keeps_perform_bind fun p => ⟨s, rfl, ?_⟩
    cases p with
    | stop => exact h
    | elapsed =>
        refine (keeps_uncounted (only_onSource (spares_subscribe c _)) s).bind ?_
        rintro ⟨a, l⟩ s' rfl
        cases a with
        | ok d => exact h
        | error e => exact h

theorem counts_round (h : r.Counted s) :
    (round c r).Keeps Counts (fun a s' => a.state.Counted s') s := by
  unfold round
  split
  · exact counts_deliver h
  · exact counts_resubscribe h

theorem counts_rounds (h : r.Counted s) (n : Nat) :
    (rounds c n r).Keeps Counts (fun a s' => a.2.Counted s') s := by
  induction n generalizing r s with
  | zero => exact h
  | succ n ih =>
      refine (counts_round h).bind ?_
      intro a s' hr
      cases a with
      | go r => exact ih hr
      | stop r =>
          refine (counts_close hr).bind ?_
          intro r s' hr
          exact hr
      | overflow r => exact hr

/-- **A relay counts what it exchanges.** -/
theorem counts_run (h : r.Counted s) (n : Nat) :
    (run c n r).Keeps Counts (fun a s' => a.2.Counted s') s := by
  refine (counts_begin h).bind ?_
  rintro ⟨a, r⟩ s' hr
  cases a with
  | error e =>
      refine (counts_close hr).bind ?_
      intro r s' hr
      exact hr
  | ok u => exact counts_rounds hr n

theorem eq_foldl_of_path {s' : Stats} {t : List (calls σ δ).Exchange} (h : Path Counts s t s') :
    s' = t.foldl Stats.tally s := by
  induction h with
  | here => rfl
  | step he _ ih => rw [ih, he, List.foldl_cons]

/-- What a fresh relay has counted when its run is over are its exchanges. -/
theorem counted_of_leads {n : Nat} {t : List (calls σ δ).Exchange} {a : Option Finish × State σ δ}
    (h : (run c n {}).Leads t (.done a)) : a.2.Counted (scoreOf t) := by
  obtain ⟨s, hpath, hs⟩ := (counts_run (r := {}) rfl n).leads h
  rw [eq_foldl_of_path hpath] at hs
  exact hs

end Parts

/-! ### The counters among each other -/

/-- One for the message in hand. -/
def Standing.inHand : Standing σ δ → Nat
  | .holding _ _ _ | .judged _ _ _ _ => 1
  | _ => 0

/-- What came was disposed of, or could not be, or is in hand. -/
def Standing.Even (x : Standing σ δ) (t : List (calls σ δ).Exchange) : Prop :=
  (scoreOf t).received =
    (scoreOf t).acked + (scoreOf t).requeued + t.countP failsToDispose + x.inHand

theorem Standing.Step.even {c : Settings} {x y : Standing σ δ} {e : (calls σ δ).Exchange}
    {t : List (calls σ δ).Exchange} (hstep : x.Step c e y) (h : x.Even t) : y.Even (t ++ [e]) := by
  unfold Standing.Even at h ⊢
  rw [scoreOf_snoc, List.countP_append]
  cases hstep with
  | prepared s k hk r =>
      cases k with
      | ack | nack => exact hk.elim
      | _ => simpa [Stats.tally, failsToDispose] using h
  | connected hx | refused hx | foundClosed hx | closed hx =>
      cases hx <;> simpa [Stats.tally, failsToDispose, Standing.inHand] using h
  | rested | backendClosed => simpa [Stats.tally, failsToDispose] using h
  | handed s d m a => cases a <;> simpa [Stats.tally, failsToDispose, Standing.inHand] using h
  | _ =>
      simp only [Stats.tally, failsToDispose, Standing.inHand, List.countP_singleton,
        Bool.false_eq_true, if_true, if_false] at h ⊢
      omega

theorem even_of_path {c : Settings} {x y : Standing σ δ} {t : List (calls σ δ).Exchange}
    (h : Path (Standing.Step c) x t y) (hx : x.inHand = 0) : y.Even t := by
  have hstart : x.Even [] := by
    unfold Standing.Even
    rw [hx]
    rfl
  simpa using h.preserves (P := fun x t => x.Even t) (fun _ _ _ _ => Standing.Step.even) [] hstart

end QueueRelay.Relay

/-
When a relay waits, and for how long.

A relay waits in two places.  It waits before it tries to subscribe again, by the number of
attempts that failed since it last had a stream; and it waits after a message for which the
backend could not be reached, by the number of such messages in a row.  Both numbers are read
off the exchanges here, backwards from where the relay is: one is counted since an attempt last
succeeded, the other since the backend last gave any other word on a message.  What belongs to
the one count does not touch the other.

A run is cut into laps, each with the wait that belongs to it.  Both places can follow each
other: where a message could not be handed over and could not be given back either, the relay
waits for the backend first, and then before it subscribes again.
-/
import Mathlib.Data.List.DropRight
import QueueRelay.Proofs.Relay.Reconnecting
import QueueRelay.Proofs.Relay.Turns

namespace QueueRelay.Relay

open Program

/-! ### Counting backwards -/

section CountSince

variable {α : Type} {last what : α → Bool}

/-- How often one thing happened since another one last did. -/
def countSince (last what : α → Bool) (t : List α) : Nat :=
  (t.rtakeWhile fun a => !last a).countP what

theorem countSince_snoc (t : List α) (a : α) :
    countSince last what (t ++ [a]) =
      if last a then 0 else countSince last what t + if what a then 1 else 0 := by
  unfold countSince
  by_cases h : last a = true
  · rw [List.rtakeWhile_concat_neg _ _ _ (by simp [h]), if_pos h, List.countP_nil]
  · rw [List.rtakeWhile_concat_pos _ _ _ (by simp [h]), if_neg h, List.countP_append,
      List.countP_singleton]

/-- What is of neither kind leaves the count alone. -/
theorem countSince_append {u : List α} (h : ∀ a ∈ u, last a = false ∧ what a = false)
    (t : List α) : countSince last what (t ++ u) = countSince last what t := by
  induction u generalizing t with
  | nil => rw [List.append_nil]
  | cons a u ih =>
      obtain ⟨ha, hu⟩ := List.forall_mem_cons.1 h
      rw [List.append_cons, ih hu, countSince_snoc]
      simp [ha]

end CountSince

/-- A number as a counter holds it, which stays at the largest of 32 bits. -/
def counted (n : Nat) : Nat := min n 0xFFFFFFFF

theorem bump_counted (n : Nat) : bump (counted n) = counted (n + 1) := by
  unfold bump counted
  omega

/-! ### The two numbers -/

variable {σ δ : Type} {c : Settings} {t u past : List (calls σ δ).Exchange}
  {e : (calls σ δ).Exchange}

/-- An attempt to subscribe succeeds. -/
def subscribes (e : (calls σ δ).Exchange) : Bool :=
  match e with
  | ⟨.source (.ask _ (.consume _ _)), .ok _⟩ => true
  | _ => false

/-- Attempts to subscribe that failed since the last that did not. -/
def attempts (t : List (calls σ δ).Exchange) : Nat := countSince subscribes foils t

/-- The backend could not be reached with a message. -/
def unreachable (e : (calls σ δ).Exchange) : Bool :=
  match e with
  | ⟨.send _, .outcome (.connectivityFailure _)⟩ => true
  | _ => false

/-- The backend gave any other word on a message. -/
def reaches (e : (calls σ δ).Exchange) : Bool :=
  match e with
  | ⟨.send _, .outcome (.connectivityFailure _)⟩ => false
  | ⟨.send _, _⟩ => true
  | _ => false

/-- Messages with which the backend could not be reached, since the last of which it gave any
other word. -/
def failures (t : List (calls σ δ).Exchange) : Nat := countSince reaches unreachable t

/-- A call on which an attempt to subscribe can fail. -/
def Call.Tries : Call σ δ → Prop
  | .source .connect | .source (.ask _ (.setPrefetch _)) | .source (.ask _ (.consume _ _)) => True
  | _ => False

/-- A call that hands a message to the backend. -/
def Call.Sends : Call σ δ → Prop
  | .send _ => True
  | _ => False

theorem Call.OnSource.not_sends {k : Call σ δ} (h : k.OnSource) : ¬ k.Sends := by
  cases k with
  | send => exact h.elim
  | _ => exact id

theorem not_foils (h : ¬ e.call.Tries) : subscribes e = false ∧ foils e = false := by
  obtain ⟨k, a⟩ := e
  cases k with
  | source k =>
      cases k with
      | connect => exact absurd trivial h
      | ask s k =>
          cases k with
          | setPrefetch | consume => exact absurd trivial h
          | _ => exact ⟨rfl, rfl⟩
      | _ => exact ⟨rfl, rfl⟩
  | _ => exact ⟨rfl, rfl⟩

theorem not_unreachable (h : ¬ e.call.Sends) : reaches e = false ∧ unreachable e = false := by
  obtain ⟨k, a⟩ := e
  cases k with
  | send m => exact absurd trivial h
  | _ => exact ⟨rfl, rfl⟩

theorem attempts_snoc (t : List (calls σ δ).Exchange) (e : (calls σ δ).Exchange) :
    attempts (t ++ [e]) =
      if subscribes e then 0 else attempts t + if foils e then 1 else 0 :=
  countSince_snoc t e

theorem failures_snoc (t : List (calls σ δ).Exchange) (e : (calls σ δ).Exchange) :
    failures (t ++ [e]) =
      if reaches e then 0 else failures t + if unreachable e then 1 else 0 :=
  countSince_snoc t e

theorem attempts_append (h : ∀ e ∈ u, ¬ e.call.Tries) (t : List (calls σ δ).Exchange) :
    attempts (t ++ u) = attempts t :=
  countSince_append (fun e he => not_foils (h e he)) t

theorem failures_append (h : ∀ e ∈ u, ¬ e.call.Sends) (t : List (calls σ δ).Exchange) :
    failures (t ++ u) = failures t :=
  countSince_append (fun e he => not_unreachable (h e he)) t

theorem failures_send (t : List (calls σ δ).Exchange) (m : Message) (w : Handed) :
    failures (t ++ [⟨.send m, w⟩]) =
      if unreachable (⟨.send m, w⟩ : (calls σ δ).Exchange) then failures t + 1 else 0 := by
  rw [failures_snoc]
  rcases w with o | detail
  · cases o <;> rfl
  · rfl

/-! ### Attempts to subscribe -/

section Attempt

variable {v : List (BrokerLink σ δ).Exchange}

theorem Discards.not_tries (h : Discards v) : ∀ e ∈ v.map atSource, ¬ e.call.Tries := by
  cases h <;> simp [atSource, Call.Tries]

theorem attempts_of_opens {a : Except LinkError σ} (h : Opens v a)
    (t : List (calls σ δ).Exchange) :
    attempts (t ++ v.map atSource) = attempts t + if a.isOk then 0 else 1 := by
  cases h with
  | mk hd =>
      rw [List.map_append, ← List.append_assoc, List.map_singleton, attempts_snoc,
        attempts_append hd.not_tries]
      cases a <;> rfl

theorem attempts_of_joins {a : Except LinkError σ} (h : Joins v a)
    (t : List (calls σ δ).Exchange) :
    attempts (t ++ v.map atSource) = attempts t + if a.isOk then 0 else 1 := by
  have hasked : ∀ s b, attempts (t ++ [atSource (δ := δ) ⟨.isOpen s, b⟩]) = attempts t := by
    intro s b
    exact attempts_append (by simp [atSource, Call.Tries]) t
  cases h with
  | found s => exact hasked s true
  | opened ho => exact attempts_of_opens ho t
  | renewed s ho =>
      rw [List.map_cons, List.append_cons, attempts_of_opens ho, hasked]

/-- Every attempt either starts the count again or is one more. -/
theorem attempts_of_attempts {a : Except LinkError δ} (h : Attempts c v a)
    (t : List (calls σ δ).Exchange) :
    attempts (t ++ v.map atSource) = if a.isOk then 0 else attempts t + 1 := by
  cases h with
  | unjoined hj => exact attempts_of_joins hj t
  | unlimited hj e =>
      rw [List.map_append, ← List.append_assoc, List.map_singleton, attempts_snoc,
        attempts_of_joins hj]
      rfl
  | asked hj a =>
      rw [List.map_append, ← List.append_assoc, List.map_cons, List.append_cons,
        List.map_singleton, attempts_snoc, attempts_snoc, attempts_of_joins hj]
      cases a <;> rfl

end Attempt

/-! ### Messages -/

theorem disposition_not_sends {e : (calls σ δ).Exchange} {s : σ} {m : Message} {w : Handed}
    (he : e.call = .source (.ask s (disposition m w))) :
    ¬ e.call.Tries ∧ ¬ e.call.Sends := by
  rw [he]
  unfold disposition
  split <;> exact ⟨id, id⟩

theorem Handles.not_tries (h : Handles u) : ∀ e ∈ u, ¬ e.call.Tries := by
  cases h with
  | mk d m w s he => simpa [Call.Tries] using (disposition_not_sends he).1

theorem any_unreachable (he : ¬ e.call.Sends) (d : δ) (m : Message) (w : Handed) :
    [⟨.next d, .message m⟩, ⟨.send m, w⟩, e].any unreachable =
      unreachable (⟨.send m, w⟩ : (calls σ δ).Exchange) := by
  have hfetched : unreachable (⟨.next d, .message m⟩ : (calls σ δ).Exchange) = false := rfl
  simp [hfetched, (not_unreachable he).2]

/-- A message is one more failure, or none is left. -/
theorem failures_of_handles (h : Handles u) (t : List (calls σ δ).Exchange) :
    failures (t ++ u) = if u.any unreachable then failures t + 1 else 0 := by
  cases h with
  | @mk d m w s e he =>
      have hsettle : ¬ e.call.Sends := (disposition_not_sends he).2
      rw [List.append_cons, List.append_cons, failures_append (by simpa using hsettle),
        failures_send, failures_append (by simp [Call.Sends]), any_unreachable hsettle]

/-! ### Laps -/

/-- What a relay does between two places where it decides how to go on, given all it
exchanged before.  Each wait is the one that is due. -/
inductive Lap (c : Settings) (past : List (calls σ δ).Exchange) :
    List (calls σ δ).Exchange → Prop
  /-- A message is dealt with, and the relay does not wait. -/
  | forwarded {u : List (calls σ δ).Exchange} (h : Handles u) (hu : u.any unreachable = false) :
      Lap c past u
  /-- The backend cannot be reached with a message, and the relay waits. -/
  | backedOff {u : List (calls σ δ).Exchange} (h : Handles u) (hu : u.any unreachable = true)
      {span : Duration} (hd : c.backoff.delay? (counted (failures (past ++ u))) = some span) :
      Lap c past (u ++ [⟨.pause span, .elapsed⟩])
  | lost (d : δ) (e : LinkError) : Lap c past [⟨.next d, .failed e⟩]
  | ended (d : δ) : Lap c past [⟨.next d, .ended⟩]
  /-- The relay waits, and makes one attempt to subscribe. -/
  | resubscribed {span : Duration}
      (hd : c.backoff.delay? (counted (attempts past)) = some span)
      {v : List (BrokerLink σ δ).Exchange} {a : Except LinkError δ} (h : Attempts c v a) :
      Lap c past (⟨.pause span, .elapsed⟩ :: v.map atSource)

/-- A lap that is cut short because the relay is told to stop. -/
inductive LastLap (c : Settings) (past : List (calls σ δ).Exchange) :
    List (calls σ δ).Exchange → Prop
  | fetching (d : δ) : LastLap c past [⟨.next d, .stop⟩]
  | resubscribing {span : Duration}
      (hd : c.backoff.delay? (counted (attempts past)) = some span) :
      LastLap c past [⟨.pause span, .stop⟩]
  | backingOff {u : List (calls σ δ).Exchange} (h : Handles u) (hu : u.any unreachable = true)
      {span : Duration} (hd : c.backoff.delay? (counted (failures (past ++ u))) = some span) :
      LastLap c past (u ++ [⟨.pause span, .stop⟩])

/-- A lap in which the wait that is due is too long to be waited for. -/
inductive Overflows (c : Settings) (past : List (calls σ δ).Exchange) :
    List (calls σ δ).Exchange → Prop
  | resubscribing (hd : c.backoff.delay? (counted (attempts past)) = none) : Overflows c past []
  | backingOff {u : List (calls σ δ).Exchange} (h : Handles u) (hu : u.any unreachable = true)
      (hd : c.backoff.delay? (counted (failures (past ++ u))) = none) : Overflows c past u

/-- The last lap of a run, and what is exchanged after it. -/
inductive Ends (c : Settings) (past : List (calls σ δ).Exchange) :
    List (calls σ δ).Exchange → List (calls σ δ).Exchange → Option Finish → Prop
  | unfinished : Ends c past [] [] none
  | overflowed {u : List (calls σ δ).Exchange} (hu : Overflows c past u) :
      Ends c past u [] (some .overflowed)
  | refused (e : RelayError) {z : List (calls σ δ).Exchange} (hz : Closes z) :
      Ends c past [] z (some (.refused e))
  | stopped {u z : List (calls σ δ).Exchange} (hu : LastLap c past u) (hz : Closes z) :
      Ends c past u z (some .stopped)

/-! ### One lap -/

/-- Where a relay is that decides how to go on: its counters are those of the exchanges. -/
structure Due (past : List (calls σ δ).Exchange) (r : State σ δ) : Prop where
  ready : Ready r
  attempts : r.resubscribes = counted (attempts past)
  failures : r.streak = counted (failures past)

/-- What a round exchanges, for each of its results. -/
inductive Laps (c : Settings) (past : List (calls σ δ).Exchange) :
    List (calls σ δ).Exchange → Round σ δ → Prop
  | go {u : List (calls σ δ).Exchange} {r : State σ δ} (hu : Lap c past u)
      (hr : Due (past ++ u) r) : Laps c past u (.go r)
  | stop {u : List (calls σ δ).Exchange} (hu : LastLap c past u) (r : State σ δ) :
      Laps c past u (.stop r)
  | overflow {u : List (calls σ δ).Exchange} (hu : Overflows c past u) (r : State σ δ) :
      Laps c past u (.overflow r)

section Round

variable {r r' : State σ δ} {m : Message} {w : Handed} {o : Outcome} {out : Round σ δ}

/-- To forward a message leaves the counters alone; the outcome is a failure of the link just
if the backend said so. -/
theorem forwarded_of_yields (h : (forward m r).Yields [⟨.send m, w⟩] (o, r')) :
    r'.pace .idle = r.pace .idle ∧
      if unreachable (⟨.send m, w⟩ : (calls σ δ).Exchange) then
        ∃ reason, o = .connectivityFailure reason
      else ∀ reason, o ≠ .connectivityFailure reason := by
  obtain ⟨w', t, heq, hrest⟩ := h.of_perform_bind
  cases heq
  rcases w with o | detail
  · obtain ⟨-, heq⟩ := yields_pure.1 hrest
    cases heq
    refine ⟨rfl, ?_⟩
    cases o with
    | connectivityFailure reason => exact ⟨reason, rfl⟩
    | delivered | unroutable | unknownFailure => exact nofun
  · obtain ⟨-, heq⟩ := yields_pure.1 hrest
    cases heq
    exact ⟨rfl, nofun⟩

/-- To dispose of a message leaves the counters alone, whether it succeeds or not. -/
theorem pace_of_dispose (c : Settings) (h : (dispose m o r).Yields t r') :
    r'.pace .idle = r.pace .idle := by
  have hkeeps := paced_dispose (c := c) (r := r) (x := r.pace .idle) m o .idle
  obtain ⟨y, -, -, hpace⟩ := hkeeps.leads h.leads
  exact hpace

/-- The wait for the backend, after a message that was forwarded and disposed of. -/
theorem laps_of_recover (hu : Handles u) (hready : Ready r)
    (ha : r.resubscribes = counted (attempts past)) (hf : r.streak = counted (failures past))
    (ho : if u.any unreachable then ∃ reason, o = .connectivityFailure reason
      else ∀ reason, o ≠ .connectivityFailure reason)
    (h : (recover c o r).Yields t out) : Laps c past (u ++ t) out := by
  have hattempts : attempts (past ++ u) = attempts past := attempts_append hu.not_tries past
  have hfailures := failures_of_handles hu past
  by_cases hany : u.any unreachable = true
  · rw [if_pos hany] at ho hfailures
    obtain ⟨reason, rfl⟩ := ho
    have hstreak : bump r.streak = counted (failures (past ++ u)) := by
      rw [hf, bump_counted, hfailures]
    simp only [recover] at h
    split at h
    · next hd =>
        rw [hstreak] at hd
        obtain ⟨rfl, rfl⟩ := yields_pure.1 h
        rw [List.append_nil]
        exact .overflow (.backingOff hu hany hd) _
    · next span hd =>
        rw [hstreak] at hd
        obtain ⟨p, t, rfl, hrest⟩ := h.of_perform_bind
        cases p with
        | stop =>
            obtain ⟨rfl, rfl⟩ := yields_pure.1 hrest
            exact .stop (.backingOff hu hany hd) _
        | elapsed =>
            obtain ⟨rfl, rfl⟩ := yields_pure.1 hrest
            refine .go (.backedOff hu hany hd) ⟨hready, ?_, ?_⟩
            · rw [← List.append_assoc, attempts_append (by simp [Call.Tries]), hattempts]
              exact ha
            · rw [← List.append_assoc, failures_append (by simp [Call.Sends])]
              exact hstreak
  · rw [if_neg hany] at ho hfailures
    unfold recover at h
    split at h
    · exact absurd rfl (ho _)
    · obtain ⟨rfl, rfl⟩ := yields_pure.1 h
      rw [List.append_nil]
      refine .go (.forwarded hu (Bool.eq_false_iff.2 hany)) ⟨hready, ?_, ?_⟩
      · rw [hattempts]
        exact ha
      · rw [hfailures]
        rfl

theorem laps_of_deliver {d : δ} {s : σ} (hr : Due past r) (hs : r.source.session = some s)
    (h : (deliver c d r).Yields t out) : Laps c past t out := by
  have hlost : ∀ (a : Next) (reason : String),
      Due (past ++ [⟨.next d, a⟩]) (r.lost reason) := by
    intro a reason
    refine ⟨nofun, ?_, ?_⟩
    · rw [attempts_append (by simp [Call.Tries])]
      exact hr.attempts
    · rw [failures_append (by simp [Call.Sends])]
      exact hr.failures
  obtain ⟨a, t, rfl, hrest⟩ := h.of_perform_bind
  cases a with
  | stop =>
      obtain ⟨rfl, rfl⟩ := yields_pure.1 hrest
      exact .stop (.fetching d) _
  | failed e =>
      obtain ⟨rfl, rfl⟩ := yields_pure.1 hrest
      exact .go (.lost d e) (hlost _ _)
  | ended =>
      obtain ⟨rfl, rfl⟩ := yields_pure.1 hrest
      exact .go (.ended d) (hlost _ _)
  | message m =>
      obtain ⟨t₁, t₂, ⟨o, r₁⟩, rfl, hforward, hdispose⟩ := hrest.of_bind
      obtain ⟨w, rfl, hdelivered, hr₁⟩ := forwards_of_yields hforward
      obtain ⟨t₃, t₄, r₂, rfl, hdisposed, hrecover⟩ := hdispose.of_bind
      obtain ⟨⟨e, rfl, he⟩, hr₂⟩ := disposes_of_yields hdelivered (hr₁ ▸ hs) hdisposed
      -- neither of the two parts touches the counters
      obtain ⟨hpace₁, ho⟩ := forwarded_of_yields hforward
      have hpace : r₂.pace .idle = r.pace .idle := (pace_of_dispose c hdisposed).trans hpace₁
      have hhandles : Handles [⟨.next d, .message m⟩, ⟨.send m, w⟩, e] := .mk d m w s he
      rw [← any_unreachable (disposition_not_sends he).2 d] at ho
      exact laps_of_recover hhandles (fun _ _ => ⟨s, hr₂⟩)
        ((congrArg Pace.tries hpace).trans hr.attempts)
        ((congrArg Pace.streak hpace).trans hr.failures) ho hrecover

theorem laps_of_resubscribe (hr : Due past r) (hnone : r.stream = none)
    (h : (resubscribe c r).Yields t out) : Laps c past t out := by
  unfold resubscribe at h
  rw [hr.attempts] at h
  split at h
  · next hd =>
      obtain ⟨rfl, rfl⟩ := yields_pure.1 h
      exact .overflow (.resubscribing hd) _
  · next span hd =>
      obtain ⟨p, t, rfl, hrest⟩ := h.of_perform_bind
      cases p with
      | stop =>
          obtain ⟨rfl, rfl⟩ := yields_pure.1 hrest
          exact .stop (.resubscribing hd) _
      | elapsed =>
          obtain ⟨t₁, t₂, ⟨a, l⟩, rfl, hsubscribe, hdone⟩ := hrest.of_bind
          obtain ⟨v, rfl, hv⟩ := yields_onSource hsubscribe
          obtain ⟨hattempts, hheld⟩ := attempts_of_yields hv
          have hf : r.streak = counted
              (failures (past ++ ⟨.pause span, .elapsed⟩ :: v.map atSource)) := by
            rw [failures_append]
            · exact hr.failures
            · refine List.forall_mem_cons.2 ⟨id, fun e he => ?_⟩
              exact (onSource_of_mem_atSource he).not_sends
          have hpaused : attempts (past ++ [⟨.pause span, .elapsed⟩]) = attempts past :=
            attempts_append (by simp [Call.Tries]) past
          have ha := attempts_of_attempts hattempts (past ++ [⟨.pause span, .elapsed⟩])
          rw [hpaused, ← List.append_cons] at ha
          cases a with
          | ok d =>
              obtain ⟨rfl, rfl⟩ := yields_pure.1 hdone
              rw [List.append_nil]
              refine .go (.resubscribed hd hattempts) ⟨fun _ _ => hheld d rfl, ?_, hf⟩
              rw [ha]
              rfl
          | error e =>
              obtain ⟨rfl, rfl⟩ := yields_pure.1 hdone
              rw [List.append_nil]
              refine .go (.resubscribed hd hattempts) ⟨?_, ?_, hf⟩
              · intro d hd
                cases hnone.symm.trans hd
              · rw [ha]
                exact bump_counted _

theorem laps_of_round (hr : Due past r) (h : (round c r).Yields t out) : Laps c past t out := by
  unfold round at h
  cases hd : r.stream with
  | some d =>
      rw [hd] at h
      obtain ⟨s, hs⟩ := hr.ready d hd
      exact laps_of_deliver hr hs h
  | none =>
      rw [hd] at h
      exact laps_of_resubscribe hr hd h

end Round

/-! ### Every run -/

variable {r r' : State σ δ} {n : Nat} {f : Option Finish} {z : List (calls σ δ).Exchange}

theorem Call.OnSource.not_waits {k : Call σ δ} (h : k.OnSource) : ¬ k.Waits := by
  cases k with
  | source => exact id
  | _ => exact h.elim

theorem Begins.not_waits {a : Except RelayError Unit} (h : Begins c t a) :
    ∀ e ∈ t, ¬ e.call.Waits := by
  intro e he
  rcases h.call he with hk | hk
  · exact hk.not_waits
  · rw [hk]
    exact id

theorem Closes.not_waits (h : Closes z) : ∀ e ∈ z, ¬ e.call.Waits := by
  cases h <;> simp [Call.Waits]

/-- The rounds of a run are laps, each of which follows from all before it. -/
theorem laps_of_rounds (hr : Due past r) (h : (rounds c n r).Yields t (f, r')) :
    ∃ (laps : List (List (calls σ δ).Exchange)) (last closing : List (calls σ δ).Exchange),
      t = laps.flatten ++ last ++ closing ∧ (∀ e ∈ closing, ¬ e.call.Waits) ∧
        (∀ before u after, laps = before ++ u :: after → Lap c (past ++ before.flatten) u) ∧
        Ends c (past ++ laps.flatten) last closing f := by
  induction n generalizing past r t with
  | zero =>
      obtain ⟨rfl, heq⟩ := yields_pure.1 h
      cases heq
      exact ⟨[], [], [], rfl, List.forall_mem_nil _, by simp, .unfinished⟩
  | succ n ih =>
      obtain ⟨t₁, t₂, out, rfl, hround, hrest⟩ := h.of_bind
      cases laps_of_round hr hround with
      | go hu hr₁ =>
          obtain ⟨laps, last, closing, rfl, hquiet, hlaps, hends⟩ := ih hr₁ hrest
          refine ⟨t₁ :: laps, last, closing, by simp, hquiet, ?_, ?_⟩
          · intro before u after heq
            cases before with
            | nil =>
                cases heq
                rw [List.flatten_nil, List.append_nil]
                exact hu
            | cons v before =>
                cases heq
                rw [List.flatten_cons, ← List.append_assoc]
                exact hlaps before u after rfl
          · rw [List.flatten_cons, ← List.append_assoc]
            exact hends
      | stop hu =>
          obtain ⟨t₃, t₄, r₁, rfl, hclose, hdone⟩ := hrest.of_bind
          obtain ⟨rfl, heq⟩ := yields_pure.1 hdone
          cases heq
          have hcloses := closes_of_yields hclose
          refine ⟨[], t₁, t₃, by simp, hcloses.not_waits, by simp, ?_⟩
          rw [List.flatten_nil, List.append_nil]
          exact .stopped hu hcloses
      | overflow hu =>
          obtain ⟨rfl, heq⟩ := yields_pure.1 hrest
          cases heq
          refine ⟨[], t₁, [], by simp, List.forall_mem_nil _, by simp, ?_⟩
          rw [List.flatten_nil, List.append_nil]
          exact .overflowed hu

theorem pace_of_start {a : Except RelayError Unit} (h : (start c r).Yields t (a, r')) :
    r'.pace .idle = r.pace .idle := by
  obtain ⟨t₁, t₂, ⟨opened, l⟩, rfl, -, hprovision⟩ := h.of_bind
  cases opened with
  | error e =>
      cases (yields_pure.1 hprovision).2
      rfl
  | ok s =>
      obtain ⟨t₃, t₄, provided, rfl, -, hestablish⟩ := hprovision.of_bind
      cases provided with
      | error e =>
          cases (yields_pure.1 hestablish).2
          rfl
      | ok _ =>
          obtain ⟨established, t₅, rfl, hdone⟩ := hestablish.of_perform_bind
          cases established with
          | error e =>
              cases (yields_pure.1 hdone).2
              rfl
          | ok _ =>
              cases (yields_pure.1 hdone).2
              rfl

theorem pace_of_begin {a : Except RelayError Unit} (h : (begin c r).Yields t (a, r')) :
    r'.pace .idle = r.pace .idle := by
  obtain ⟨t₁, t₂, ⟨started, r₁⟩, rfl, hstart, hsubscribe⟩ := h.of_bind
  have hpace := pace_of_start hstart
  cases started with
  | error e =>
      cases (yields_pure.1 hsubscribe).2
      exact hpace
  | ok _ =>
      obtain ⟨t₃, t₄, ⟨subscribed, l⟩, rfl, -, hdone⟩ := hsubscribe.of_bind
      cases subscribed with
      | error e =>
          cases (yields_pure.1 hdone).2
          exact hpace
      | ok d =>
          cases (yields_pure.1 hdone).2
          exact hpace

/-- When a relay has begun, nothing has failed yet that it would wait for. -/
theorem due_of_begin {l : Link σ} {x : Stats}
    (h : (begin c { source := l, stats := x }).Yields t (.ok (), r)) : Due t r := by
  obtain ⟨hbegins, hheld⟩ := begins_of_yields h
  have hpace := pace_of_begin h
  refine ⟨fun _ _ => hheld () rfl, (congrArg Pace.tries hpace).trans ?_,
    (congrArg Pace.streak hpace).trans ?_⟩
  · cases hbegins with
    | subscribed hstarts hattempts =>
        rw [attempts_of_attempts hattempts]
        rfl
  · have hquiet : ∀ e ∈ t, ¬ e.call.Sends := by
      intro e he
      rcases hbegins.call he with hk | hk
      · exact hk.not_sends
      · rw [hk]
        exact id
    have hnone := failures_append hquiet []
    rw [List.nil_append] at hnone
    rw [hnone]
    rfl

/-- A run that has come to its end. -/
theorem waits_of_yields {l : Link σ} {x : Stats}
    (h : (run c n { source := l, stats := x }).Yields t (f, r')) :
    ∃ (begun : List (calls σ δ).Exchange) (res : Except RelayError Unit)
      (laps : List (List (calls σ δ).Exchange)) (last closing : List (calls σ δ).Exchange),
      t = begun ++ laps.flatten ++ last ++ closing ∧ Begins c begun res ∧
        (∀ e ∈ begun ++ closing, ¬ e.call.Waits) ∧
        (∀ before u after, laps = before ++ u :: after → Lap c (begun ++ before.flatten) u) ∧
        Ends c (begun ++ laps.flatten) last closing f := by
  obtain ⟨t₁, t₂, ⟨res, r₁⟩, rfl, hbegin, hrest⟩ := h.of_bind
  obtain ⟨hbegins, -⟩ := begins_of_yields hbegin
  cases res with
  | error e =>
      obtain ⟨t₃, t₄, r₂, rfl, hclose, hdone⟩ := hrest.of_bind
      obtain ⟨rfl, heq⟩ := yields_pure.1 hdone
      cases heq
      have hcloses := closes_of_yields hclose
      refine ⟨t₁, .error e, [], [], t₃, by simp, hbegins, ?_, by simp, .refused e hcloses⟩
      exact List.forall_mem_append.2 ⟨hbegins.not_waits, hcloses.not_waits⟩
  | ok u =>
      obtain ⟨laps, last, closing, rfl, hquiet, hlaps, hends⟩ :=
        laps_of_rounds (due_of_begin hbegin) hrest
      refine ⟨t₁, .ok u, laps, last, closing, by simp, hbegins, ?_, hlaps, hends⟩
      exact List.forall_mem_append.2 ⟨hbegins.not_waits, hquiet⟩

/-- **A relay waits where it has to, as long as it has to, and nowhere else.**  However far a
run has come, it can go on to an end, and however it does, from its start to there it is made
of laps, each of them with the wait that is due.  Before an attempt to subscribe that is the one
for the number of attempts that failed since the last which did not; after a message with which the backend
could not be reached, the one for the number of such messages since the last that was not one.
Neither of the two numbers is touched by what counts for the other, nor by anything else. -/
theorem waits_as_due {l : Link σ} {x : Stats} {q : Program (calls σ δ) (Option Finish × State σ δ)}
    (h : (run c n { source := l, stats := x }).Leads t q) :
    (∃ rest f r', q.Yields rest (f, r')) ∧
      (∀ rest f r', q.Yields rest (f, r') →
        ∃ (begun : List (calls σ δ).Exchange) (res : Except RelayError Unit)
          (laps : List (List (calls σ δ).Exchange)) (last closing : List (calls σ δ).Exchange),
          t ++ rest = begun ++ laps.flatten ++ last ++ closing ∧ Begins c begun res ∧
            (∀ e ∈ begun ++ closing, ¬ e.call.Waits) ∧
            (∀ before u after, laps = before ++ u :: after →
              Lap c (begun ++ before.flatten) u) ∧
            Ends c (begun ++ laps.flatten) last closing f) ∧
      (∀ (past : List (calls σ δ).Exchange) v a, Attempts c v a →
        attempts (past ++ v.map atSource) = if a.isOk then 0 else attempts past + 1) ∧
      (∀ (past : List (calls σ δ).Exchange) e, ¬ e.call.Tries →
        attempts (past ++ [e]) = attempts past) ∧
      (∀ (past : List (calls σ δ).Exchange) u, Handles u →
        failures (past ++ u) = if u.any unreachable then failures past + 1 else 0) ∧
      ∀ (past : List (calls σ δ).Exchange) e, ¬ e.call.Sends →
        failures (past ++ [e]) = failures past := by
  refine ⟨?_, ?_, ?_, ?_, ?_, ?_⟩
  · obtain ⟨rest, ⟨f, r'⟩, hrest⟩ := exists_yields nonempty_answer q
    exact ⟨rest, f, r', hrest⟩
  · intro rest f r' hrest
    exact waits_of_yields (h.yields hrest)
  · intro past v a hattempts
    exact attempts_of_attempts hattempts past
  · intro past e he
    exact attempts_append (by simpa using he) past
  · intro past u hu
    exact failures_of_handles hu past
  · intro past e he
    exact failures_append (by simpa using he) past

/-- A relay that cannot reach its backend, and cannot give the message back either, waits for
the one and then for the other. -/
theorem waits_as_due_twice :
    let c : Settings := { queue := "jobs", backoff := ⟨.ofSeconds 1, 2.0, .ofSeconds 30⟩ }
    let m : Message := { payload := ⟨#[7]⟩, tag := ⟨1⟩ }
    let begun : List (calls Unit Unit).Exchange :=
      [⟨.source .connect, .ok ()⟩, ⟨.establish, .ok ()⟩, ⟨.source (.isOpen ()), true⟩,
        ⟨.source (.ask () (.setPrefetch prefetch)), .ok ()⟩,
        ⟨.source (.ask () (.consume c.queue c.consumerTag)), .ok ()⟩]
    let first : List (calls Unit Unit).Exchange :=
      [⟨.next (), .message m⟩, ⟨.send m, .outcome (.connectivityFailure "down")⟩,
        ⟨.source (.ask () (.nack ⟨1⟩ true)), .error .closed⟩,
        ⟨.pause (.ofSeconds 1), .elapsed⟩]
    let second : List (calls Unit Unit).Exchange :=
      [⟨.pause .zero, .elapsed⟩, ⟨.source (.isOpen ()), false⟩, ⟨.source .connect, .error .closed⟩]
    let t := begun ++ first ++ second
    (∃ q, (run c 2 {}).Leads t q) ∧ failures t = 1 ∧ attempts t = 1 ∧
      ∃ rest begun laps last closing, t ++ rest = begun ++ List.flatten laps ++ last ++ closing ∧
        ∀ before u after, laps = before ++ u :: after → Lap c (begun ++ before.flatten) u := by
  intro c m begun first second t
  have hdelay : c.backoff.delay? (bump 0) = some (.ofSeconds 1) := by decide +kernel
  -- The delay is a computation with doubles, which has to be rewritten and not be evaluated.
  have hrecover : ∀ r : State Unit Unit, r.streak = 0 →
      ∀ (f : Round Unit Unit → Program (calls Unit Unit) (Option Finish × State Unit Unit)) t q,
        (f (.go { r with streak := bump 0 })).Leads t q →
          (Program.bind (recover c (.connectivityFailure "down") r) f).Leads
            (⟨.pause (.ofSeconds 1), .elapsed⟩ :: t) q := by
    rintro ⟨_, _, _, _, _⟩ rfl f t q h
    unfold recover
    dsimp only
    split
    · next hnone => cases hdelay.symm.trans hnone
    · next hsome =>
        cases hdelay.symm.trans hsome
        exact .call _ h
  have hrounds : ∀ r : State Unit Unit, r.stream = some () → r.source.session = some () →
      r.source.phase = .connected → r.streak = 0 → r.resubscribes = 0 →
        ∃ q, (rounds c 2 r).Leads (first ++ second) q := by
    rintro ⟨⟨_, _, _, _, _⟩, _, _, _, _⟩ rfl rfl rfl rfl rfl
    apply Exists.intro
    apply Leads.call
    apply Leads.call
    apply Leads.call
    exact hrecover _ rfl _ _ _ (.call _ (.call _ (.call _ (.here _))))
  have hrun : ∃ q, (run (σ := Unit) (δ := Unit) c 2 {}).Leads t q :=
    ⟨_, .call _ (.call _ (.call _ (.call _ (.call _ (hrounds _ rfl rfl rfl rfl rfl).choose_spec))))⟩
  obtain ⟨q, hq⟩ := hrun
  obtain ⟨⟨rest, f, r', hrest⟩, hruns, -⟩ := waits_as_due hq
  obtain ⟨begun', res, laps, last, closing, ht, -, -, hlaps, -⟩ := hruns rest f r' hrest
  exact ⟨⟨q, hq⟩, by decide, by decide, rest, begun', laps, last, closing, ht, hlaps⟩

end QueueRelay.Relay

/-
A run from its first exchange to its last.

A run begins, takes its turns and ends.  In a turn the relay waits for one thing, a delivery
or the end of a pause, and deals with what came of it: it forwards the message and disposes
of it, it gives up the stream, or it makes an attempt to subscribe again.  It can be told to
stop wherever it waits, and only there.  So from the moment on at which that would happen no
turn begins any more in which something is fetched or an attempt is made, while a turn that
has begun is brought to its end.

The exchanges of a run are spelled out from those of its parts, each of which is taken apart
in the order of the program.  That a disposition finds a session is the one thing that has
to be known of the state: `Ready` says that the link holds one while there is a stream.
-/
import QueueRelay.Proofs.Relay.Sessions
import QueueRelay.Proofs.Relay.Startup

namespace QueueRelay.Relay

open Program

variable {σ δ : Type} {c : Settings} {r r' : State σ δ} {t u z : List (calls σ δ).Exchange}

/-! ### Being told to stop -/

/-- A call that waits for something that may never come. -/
def Call.Waits : Call σ δ → Prop
  | .next _ | .pause _ => True
  | _ => False

/-- The relay is told to stop. -/
inductive Stops : (calls σ δ).Exchange → Prop
  | fetching (d : δ) : Stops ⟨.next d, .stop⟩
  | pausing (span : Duration) : Stops ⟨.pause span, .stop⟩

/-- The relay was to stop before the first of these exchanges.  A wait stands for a choice between
the order to stop and what is waited for, and of two that are there the choice takes the order, so
from then on every wait ends with it. -/
def Resolved (t : List (calls σ δ).Exchange) : Prop :=
  ∀ e ∈ t, e.call.Waits → Stops e

/-! ### The parts of a run -/

/-- A message is taken, handed over and disposed of. -/
inductive Handles : List (calls σ δ).Exchange → Prop
  | mk (d : δ) (m : Message) (h : Handed) (s : σ) {e : (calls σ δ).Exchange}
      (he : e.call = .source (.ask s (disposition m h))) :
      Handles [⟨.next d, .message m⟩, ⟨.send m, h⟩, e]

/-- A turn after which the relay goes on. -/
inductive Turn (c : Settings) : List (calls σ δ).Exchange → Prop
  | handled {u : List (calls σ δ).Exchange} (h : Handles u) : Turn c u
  | rested {u : List (calls σ δ).Exchange} (h : Handles u) (span : Duration) :
      Turn c (u ++ [⟨.pause span, .elapsed⟩])
  | lost (d : δ) (e : LinkError) : Turn c [⟨.next d, .failed e⟩]
  | ended (d : δ) : Turn c [⟨.next d, .ended⟩]
  | resubscribed (span : Duration) {u : List (BrokerLink σ δ).Exchange} {a : Except LinkError δ}
      (h : Attempts c u a) : Turn c (⟨.pause span, .elapsed⟩ :: u.map atSource)

/-- A turn in which the relay is told to stop. -/
inductive LastTurn : List (calls σ δ).Exchange → Prop
  | fetching (d : δ) : LastTurn [⟨.next d, .stop⟩]
  | pausing (span : Duration) : LastTurn [⟨.pause span, .stop⟩]
  | handled {u : List (calls σ δ).Exchange} (h : Handles u) (span : Duration) :
      LastTurn (u ++ [⟨.pause span, .stop⟩])

/-- The backend is closed, then the session if there is one. -/
inductive Closes : List (calls σ δ).Exchange → Prop
  | apart : Closes [⟨.closeBackend, ()⟩]
  | session (s : σ) (a : Except LinkError Unit) :
      Closes [⟨.closeBackend, ()⟩, ⟨.source (.close s), a⟩]

/-- The last turn of a run and what it exchanged after it, for each way in which it may have
ended. -/
inductive Finishes (c : Settings) :
    List (calls σ δ).Exchange → List (calls σ δ).Exchange → Option Finish → Prop
  | unfinished : Finishes c [] [] none
  | overflowed {k : Nat} (hk : c.backoff.delay? k = none) : Finishes c [] [] (some .overflowed)
  | refused (e : RelayError) {z : List (calls σ δ).Exchange} (hz : Closes z) :
      Finishes c [] z (some (.refused e))
  | stopped {u z : List (calls σ δ).Exchange} (hu : LastTurn u) (hz : Closes z) :
      Finishes c u z (some .stopped)

/-! ### What the parts exchange -/

/-- While there is a stream, the link holds a session. -/
def Ready (r : State σ δ) : Prop :=
  ∀ d, r.stream = some d → ∃ s, r.source.session = some s

theorem closes_of_yields (h : (close r).Yields t r') : Closes t := by
  obtain ⟨⟨⟩, t, rfl, hrelease⟩ := h.of_perform_bind
  obtain ⟨t₁, t₂, l, rfl, hsource, hdone⟩ := hrelease.of_bind
  obtain ⟨rfl, -⟩ := yields_pure.1 hdone
  obtain ⟨u, rfl, hu⟩ := yields_onSource hsource
  unfold Link.release at hu
  cases hs : r.source.session with
  | none =>
      rw [hs] at hu
      obtain ⟨rfl, -⟩ := yields_pure.1 hu
      exact .apart
  | some s =>
      rw [hs] at hu
      obtain ⟨a, v, rfl, hend⟩ := hu.of_perform_bind
      obtain ⟨rfl, -⟩ := yields_pure.1 hend
      exact .session s a

/-- What a wait for the backend exchanges, and how it leaves the link. -/
inductive Recovers (c : Settings) (r : State σ δ) :
    List (calls σ δ).Exchange → Round σ δ → Prop
  | on {r' : State σ δ} (hr : r'.source = r.source) : Recovers c r [] (.go r')
  | rested (span : Duration) {r' : State σ δ} (hr : r'.source = r.source) :
      Recovers c r [⟨.pause span, .elapsed⟩] (.go r')
  | stopped (span : Duration) (r' : State σ δ) :
      Recovers c r [⟨.pause span, .stop⟩] (.stop r')
  | overflowed {k : Nat} (hk : c.backoff.delay? k = none) (r' : State σ δ) :
      Recovers c r [] (.overflow r')

theorem recovers_of_yields {o : Outcome} {out : Round σ δ}
    (h : (recover c o r).Yields t out) : Recovers c r t out := by
  unfold recover at h
  split at h
  · dsimp only at h
    split at h
    · next hk =>
        obtain ⟨rfl, rfl⟩ := yields_pure.1 h
        exact .overflowed hk _
    · next span _ =>
        obtain ⟨p, t, rfl, hrest⟩ := h.of_perform_bind
        cases p with
        | stop =>
            obtain ⟨rfl, rfl⟩ := yields_pure.1 hrest
            exact .stopped span _
        | elapsed =>
            obtain ⟨rfl, rfl⟩ := yields_pure.1 hrest
            exact .rested span rfl
  · obtain ⟨rfl, rfl⟩ := yields_pure.1 h
    exact .on rfl

theorem forwards_of_yields {m : Message} {o : Outcome} (h : (forward m r).Yields t (o, r')) :
    ∃ w, t = [⟨.send m, w⟩] ∧ o.isDelivered = w.isDelivered ∧ r'.source = r.source := by
  obtain ⟨w, t, rfl, hrest⟩ := h.of_perform_bind
  cases w with
  | outcome o =>
      obtain ⟨rfl, heq⟩ := yields_pure.1 hrest
      cases heq
      exact ⟨_, rfl, rfl, rfl⟩
  | panicked detail =>
      obtain ⟨rfl, heq⟩ := yields_pure.1 hrest
      cases heq
      exact ⟨_, rfl, rfl, rfl⟩

theorem disposes_of_yields {m : Message} {o : Outcome} {w : Handed} {s : σ}
    (ho : o.isDelivered = w.isDelivered) (hs : r.source.session = some s)
    (h : (dispose m o r).Yields t r') :
    (∃ e, t = [e] ∧ e.call = .source (.ask s (disposition m w))) ∧
      r'.source.session = some s := by
  unfold dispose at h
  rw [hs] at h
  obtain ⟨t₁, t₂, a, rfl, hsettle, hdone⟩ := h.of_bind
  obtain ⟨u, rfl, hu⟩ := yields_onSource hsettle
  have hcall : ∃ e, u = [e] ∧ e.call = .ask s (disposition m w) := by
    unfold settle at hu
    unfold disposition
    rw [← ho]
    split at hu
    · next hd =>
        rw [yields_perform.1 hu, if_pos hd]
        exact ⟨_, rfl, rfl⟩
    · next hd =>
        rw [yields_perform.1 hu, if_neg hd]
        exact ⟨_, rfl, rfl⟩
  obtain ⟨e, rfl, he⟩ := hcall
  cases a with
  | ok _ =>
      obtain ⟨rfl, rfl⟩ := yields_pure.1 hdone
      refine ⟨⟨atSource e, rfl, congrArg Call.source he⟩, ?_⟩
      split <;> exact hs
  | error err =>
      obtain ⟨rfl, rfl⟩ := yields_pure.1 hdone
      exact ⟨⟨atSource e, rfl, congrArg Call.source he⟩, hs⟩

/-- What a round exchanges, for each of its results. -/
inductive Takes (c : Settings) : List (calls σ δ).Exchange → Round σ δ → Prop
  | go {u : List (calls σ δ).Exchange} {r : State σ δ} (hu : Turn c u) (hr : Ready r) :
      Takes c u (.go r)
  | stop {u : List (calls σ δ).Exchange} (hu : LastTurn u) (r : State σ δ) :
      Takes c u (.stop r)
  | overflow {u : List (calls σ δ).Exchange} (hu : u = [] ∨ Turn c u) {k : Nat}
      (hk : c.backoff.delay? k = none) (r : State σ δ) : Takes c u (.overflow r)

theorem rounds_of_deliver {d : δ} {s : σ} {out : Round σ δ} (hs : r.source.session = some s)
    (h : (deliver c d r).Yields t out) : Takes c t out := by
  obtain ⟨a, t, rfl, hrest⟩ := h.of_perform_bind
  cases a with
  | stop =>
      obtain ⟨rfl, rfl⟩ := yields_pure.1 hrest
      exact .stop (.fetching d) _
  | failed e =>
      obtain ⟨rfl, rfl⟩ := yields_pure.1 hrest
      exact .go (.lost d e) nofun
  | ended =>
      obtain ⟨rfl, rfl⟩ := yields_pure.1 hrest
      exact .go (.ended d) nofun
  | message m =>
      obtain ⟨t₁, t₂, ⟨o, r₁⟩, rfl, hforward, hdispose⟩ := hrest.of_bind
      -- the link holds the same session until the message is disposed of
      obtain ⟨w, rfl, ho, hr₁⟩ := forwards_of_yields hforward
      obtain ⟨t₃, t₄, r₂, rfl, hdisposed, hrecover⟩ := hdispose.of_bind
      obtain ⟨⟨e, rfl, he⟩, hr₂⟩ := disposes_of_yields ho (hr₁ ▸ hs) hdisposed
      have hhandles : Handles [⟨.next d, .message m⟩, ⟨.send m, w⟩, e] := .mk d m w s he
      cases recovers_of_yields hrecover with
      | on hr => exact .go (.handled hhandles) fun _ _ => ⟨s, hr ▸ hr₂⟩
      | rested span hr => exact .go (.rested hhandles span) fun _ _ => ⟨s, hr ▸ hr₂⟩
      | stopped span => exact .stop (.handled hhandles span) _
      | overflowed hk => exact .overflow (.inr (.handled hhandles)) hk _

theorem rounds_of_resubscribe {out : Round σ δ} (hr : r.stream = none)
    (h : (resubscribe c r).Yields t out) : Takes c t out := by
  unfold resubscribe at h
  split at h
  · next hk =>
      obtain ⟨rfl, rfl⟩ := yields_pure.1 h
      exact .overflow (.inl rfl) hk _
  · next span _ =>
      obtain ⟨p, t, rfl, hrest⟩ := h.of_perform_bind
      cases p with
      | stop =>
          obtain ⟨rfl, rfl⟩ := yields_pure.1 hrest
          exact .stop (.pausing span) _
      | elapsed =>
          obtain ⟨t₁, t₂, ⟨a, l⟩, rfl, hsubscribe, hdone⟩ := hrest.of_bind
          obtain ⟨u, rfl, hu⟩ := yields_onSource hsubscribe
          obtain ⟨hattempts, hheld⟩ := attempts_of_yields hu
          cases a with
          | ok d =>
              obtain ⟨rfl, rfl⟩ := yields_pure.1 hdone
              rw [List.append_nil]
              exact .go (.resubscribed span hattempts) fun _ _ => hheld d rfl
          | error e =>
              obtain ⟨rfl, rfl⟩ := yields_pure.1 hdone
              rw [List.append_nil]
              refine .go (.resubscribed span hattempts) fun d hd => ?_
              cases hr.symm.trans hd

theorem rounds_of_yields {out : Round σ δ} (hr : Ready r) (h : (round c r).Yields t out) :
    Takes c t out := by
  unfold round at h
  cases hd : r.stream with
  | some d =>
      rw [hd] at h
      obtain ⟨s, hs⟩ := hr d hd
      exact rounds_of_deliver hs h
  | none =>
      rw [hd] at h
      exact rounds_of_resubscribe hd h

/-- Takes are turns, and after the last of them the relay closes what it has if it was told
to stop. -/
theorem turns_of_yields {n : Nat} {f : Option Finish} (hr : Ready r)
    (h : (rounds c n r).Yields t (f, r')) :
    ∃ (turns : List (List (calls σ δ).Exchange)) (last closing : List (calls σ δ).Exchange),
      t = turns.flatten ++ last ++ closing ∧ (∀ u ∈ turns, Turn c u) ∧
        Finishes c last closing f ∧ ∀ e, f ≠ some (.refused e) := by
  induction n generalizing r t with
  | zero =>
      obtain ⟨rfl, heq⟩ := yields_pure.1 h
      cases heq
      exact ⟨[], [], [], rfl, nofun, .unfinished, nofun⟩
  | succ n ih =>
      obtain ⟨t₁, t₂, out, rfl, hround, hrest⟩ := h.of_bind
      cases rounds_of_yields hr hround with
      | go hu hr₁ =>
          obtain ⟨turns, last, closing, rfl, hturns, hfinishes⟩ := ih hr₁ hrest
          refine ⟨t₁ :: turns, last, closing, by simp, ?_, hfinishes⟩
          exact List.forall_mem_cons.2 ⟨hu, hturns⟩
      | stop hu =>
          obtain ⟨t₃, t₄, r₁, rfl, hclose, hdone⟩ := hrest.of_bind
          obtain ⟨rfl, heq⟩ := yields_pure.1 hdone
          cases heq
          rw [List.append_nil]
          exact ⟨[], t₁, t₃, rfl, nofun, .stopped hu (closes_of_yields hclose), nofun⟩
      | overflow hu hk =>
          obtain ⟨rfl, heq⟩ := yields_pure.1 hrest
          cases heq
          rcases hu with rfl | hu
          · exact ⟨[], [], [], rfl, nofun, .overflowed hk, nofun⟩
          · exact ⟨[t₁], [], [], by simp, by simpa using hu, .overflowed hk, nofun⟩

/-! ### What is asked for in them -/

section Calls

variable {e : (calls σ δ).Exchange} {a : Except RelayError Unit}

theorem onSource_of_mem_atSource {u : List (BrokerLink σ δ).Exchange}
    (h : e ∈ u.map atSource) : e.call.OnSource := by
  obtain ⟨e', -, rfl⟩ := List.mem_map.1 h
  trivial

/-- While it starts a relay asks only for what it needs to start. -/
theorem Starts.call (h : Starts c t a) (he : e ∈ t) : e.call.OnSource ∨ e.call = .establish := by
  have hsource : ∀ u : List (BrokerLink σ δ).Exchange, e ∈ u.map atSource →
      e.call.OnSource ∨ e.call = .establish := fun _ hm => .inl (onSource_of_mem_atSource hm)
  cases h with
  | unconnected => exact hsource _ he
  | unprovisioned => exact (List.mem_append.1 he).elim (hsource _) (hsource _)
  | unestablished | started =>
      rcases List.mem_append.1 he with hm | hm
      · exact (List.mem_append.1 hm).elim (hsource _) (hsource _)
      · rw [List.mem_singleton.1 hm]
        exact .inr rfl

theorem Begins.call (h : Begins c t a) (he : e ∈ t) : e.call.OnSource ∨ e.call = .establish := by
  cases h with
  | unstarted h => exact h.call he
  | unsubscribed h | subscribed h =>
      rcases List.mem_append.1 he with hm | hm
      · exact h.call hm
      · exact .inl (onSource_of_mem_atSource hm)

theorem Begins.not_closes (h : Begins c t a) (he : e ∈ t) : e.call ≠ .closeBackend := by
  intro hc
  rcases h.call he with hsource | hestablish
  · rw [hc] at hsource
    exact hsource
  · rw [hc] at hestablish
    cases hestablish

theorem Handles.not_closes (h : Handles u) (he : e ∈ u) : e.call ≠ .closeBackend := by
  cases h with
  | mk d m w s hcall =>
      simp only [List.mem_cons, List.not_mem_nil, or_false] at he
      rcases he with rfl | rfl | rfl
      · exact nofun
      · exact nofun
      · rw [hcall]
        exact nofun

theorem Handles.not_closes_pause (h : Handles u) {span : Duration} {p : Pause}
    (he : e ∈ u ++ [⟨.pause span, p⟩]) : e.call ≠ .closeBackend := by
  rcases List.mem_append.1 he with hm | hm
  · exact h.not_closes hm
  · rw [List.mem_singleton.1 hm]
    exact nofun

/-- The backend is not closed while turns are taken. -/
theorem Turn.not_closes (h : Turn c u) (he : e ∈ u) : e.call ≠ .closeBackend := by
  cases h with
  | handled h => exact h.not_closes he
  | rested h => exact h.not_closes_pause he
  | lost | ended =>
      rw [List.mem_singleton.1 he]
      exact nofun
  | resubscribed =>
      rcases List.mem_cons.1 he with rfl | hm
      · exact nofun
      · intro hc
        have hsource := onSource_of_mem_atSource hm
        rw [hc] at hsource
        exact hsource

theorem LastTurn.not_closes (h : LastTurn u) (he : e ∈ u) : e.call ≠ .closeBackend := by
  cases h with
  | fetching | pausing =>
      rw [List.mem_singleton.1 he]
      exact nofun
  | handled h => exact h.not_closes_pause he

/-- A relay that starts or closes what it has asks for no delivery. -/
theorem not_next_of_refused {d : δ} {b : Next} (h : Begins c t a) (hz : Closes z) :
    ⟨.next d, b⟩ ∉ t ++ z := by
  intro hm
  rcases List.mem_append.1 hm with hm | hm
  · rcases h.call hm with hc | hc
    · exact hc
    · cases hc
  · cases hz with
    | apart => cases List.mem_singleton.1 hm
    | session s r =>
        simp only [List.mem_cons, List.not_mem_nil, or_false] at hm
        rcases hm with hm | hm <;> cases hm

end Calls

/-! ### Turns and being told to stop -/

theorem Resolved.left (h : Resolved (t ++ u)) : Resolved t :=
  fun e he => h e (List.mem_append_left _ he)

theorem not_resolved_of_handles (h : Handles u) : ¬ Resolved u := by
  cases h with
  | mk d m w s =>
      intro hr
      cases hr _ List.mem_cons_self trivial

/-- What a turn begins with is not to be told to stop. -/
theorem not_resolved_of_turn (h : Turn c u) : ¬ Resolved u := by
  cases h with
  | handled h => exact not_resolved_of_handles h
  | rested h => exact fun hr => not_resolved_of_handles h hr.left
  | lost | ended | resubscribed =>
      intro hr
      cases hr _ List.mem_cons_self trivial

theorem LastTurn.stops (h : LastTurn u) : ∃ v e, u = v ++ [e] ∧ Stops e := by
  cases h with
  | fetching d => exact ⟨[], _, rfl, .fetching d⟩
  | pausing span => exact ⟨[], _, rfl, .pausing span⟩
  | handled h span => exact ⟨_, _, rfl, .pausing span⟩

/-- A last turn that begins after the relay was to stop is over at once. -/
theorem alone_of_lastTurn (h : LastTurn u) (hr : Resolved u) : ∃ e, u = [e] ∧ Stops e := by
  cases h with
  | fetching d => exact ⟨_, rfl, .fetching d⟩
  | pausing span => exact ⟨_, rfl, .pausing span⟩
  | handled h => exact absurd hr.left (not_resolved_of_handles h)

/-! ### Every run -/

/-- A message that was taken in a run which is over was handed over and disposed of. -/
theorem handled_of_yields {n : Nat} {f : Option Finish} (h : (run c n r).Yields t (f, r'))
    {pre post : List (calls σ δ).Exchange} {d : δ} {m : Message}
    (ht : t = pre ++ ⟨.next d, .message m⟩ :: post) :
    ∃ s w e rest, Opened c pre s d ∧ post = ⟨.send m, w⟩ :: e :: rest ∧
      e.call = .source (.ask s (disposition m w)) := by
  subst ht
  obtain ⟨z, hpath, hkeeps⟩ := standing_of_leads h.leads
  obtain ⟨x, y, hrecalls, -, hstep, hpost⟩ := standings_of_path hpath
  cases hstep with
  | took s =>
      cases disposed_of_path hpost hkeeps with
      | held hq | judged _ hq =>
          obtain ⟨next, hnext⟩ := hq
          cases hnext
      | disposed w e he rest => exact ⟨s, w, e, rest, hrecalls, rfl, he⟩

/-- After a run that returned no session is in use which is not closed. -/
theorem parted_of_yields {n : Nat} {f : Option Finish} (h : (run c n r).Yields t (f, r'))
    (hf : f = some .stopped ∨ ∃ e, f = some (.refused e)) :
    r'.source.session = none ∧ ∀ s since, Held r.source.session t s since → Parted s since := by
  obtain ⟨z, hpath, hkeeps⟩ := standing_of_leads h.leads
  have hended : z = .apart ∧ r'.source.session = none := by
    rcases hf with rfl | ⟨e, rfl⟩ <;> exact hkeeps
  obtain ⟨rfl, hnone⟩ := hended
  exact ⟨hnone, remembers_of_path hpath⟩

/-- A run begins, takes its turns, and ends. -/
theorem parts_of_yields {n : Nat} {f : Option Finish} (h : (run c n r).Yields t (f, r')) :
    ∃ (begun : List (calls σ δ).Exchange) (res : Except RelayError Unit)
      (turns : List (List (calls σ δ).Exchange)) (last closing : List (calls σ δ).Exchange),
      t = begun ++ turns.flatten ++ last ++ closing ∧ Begins c begun res ∧
        (∀ u ∈ turns, Turn c u) ∧ Finishes c last closing f ∧
        (∀ e, f = some (.refused e) ↔ res = .error e) ∧ (∀ e, res = .error e → turns = []) := by
  obtain ⟨t₁, t₂, ⟨res, r₁⟩, rfl, hbegin, hrest⟩ := h.of_bind
  obtain ⟨hbegins, hheld⟩ := begins_of_yields hbegin
  cases res with
  | error e =>
      obtain ⟨t₃, t₄, r₂, rfl, hclose, hdone⟩ := hrest.of_bind
      obtain ⟨rfl, heq⟩ := yields_pure.1 hdone
      cases heq
      refine ⟨t₁, .error e, [], [], t₃, by simp, hbegins, nofun,
        .refused e (closes_of_yields hclose), ?_, fun _ _ => rfl⟩
      intro e'
      constructor <;> rintro ⟨⟩ <;> rfl
  | ok u =>
      have hready : Ready r₁ := fun _ _ => hheld u rfl
      obtain ⟨turns, last, closing, rfl, hturns, hfinishes, hnot⟩ := turns_of_yields hready hrest
      refine ⟨t₁, .ok u, turns, last, closing, by simp, hbegins, hturns, hfinishes, ?_, nofun⟩
      intro e
      constructor
      · intro hf
        exact absurd hf (hnot e)
      · exact nofun

/-- **A run goes in order from its start to its end.**  It begins with what it needs, each
part only after all before it succeeded, and returns an error just if one of them failed,
which the error names; no delivery was asked for then.  Once it has begun it ends only in a
turn in which it was told to stop, unless it does not survive a delay that is too long.  From
where it is to stop no turn is begun but one that is over as soon as it is told so, while
every message that was taken was handed over and disposed of.  When it returns it has closed
the backend, once, and then its session, and asks nothing more. -/
theorem runs_in_order (n : Nat) (r : State σ δ) {f : Option Finish}
    (h : (run c n r).Yields t (f, r')) :
    ∃ (begun : List (calls σ δ).Exchange) (res : Except RelayError Unit)
      (turns : List (List (calls σ δ).Exchange)) (last closing : List (calls σ δ).Exchange),
      t = begun ++ turns.flatten ++ last ++ closing ∧ Finishes c last closing f ∧
      (Begins c begun res ∧ ∀ e, f = some (.refused e) ↔ res = .error e) ∧
      (∀ e, f = some (.refused e) → turns = [] ∧ ∀ d a, ⟨.next d, a⟩ ∉ t) ∧
      (∀ u, res = .ok u → f = none ∨ (f = some .overflowed ∧ ∃ k, c.backoff.delay? k = none) ∨
        (f = some .stopped ∧ ∃ v e, last = v ++ [e] ∧ Stops e)) ∧
      ((∀ before u after, turns = before ++ u :: after →
          Turn c u ∧ ¬ Resolved (u ++ after.flatten ++ last ++ closing)) ∧
        (Resolved last → last = [] ∨ ∃ e, last = [e] ∧ Stops e) ∧
        ∀ pre d m post, t = pre ++ ⟨.next d, .message m⟩ :: post →
          ∃ s w e rest, Opened c pre s d ∧ post = ⟨.send m, w⟩ :: e :: rest ∧
            e.call = .source (.ask s (disposition m w))) ∧
      (f = some .stopped ∨ (∃ e, f = some (.refused e)) →
        Closes closing ∧ (∀ e ∈ begun ++ turns.flatten ++ last, e.call ≠ .closeBackend) ∧
          r'.source.session = none ∧
          ∀ s since, Held r.source.session t s since → Parted s since) := by
  obtain ⟨begun, res, turns, last, closing, ht, hbegins, hturns, hfinishes, hres, hnone⟩ :=
    parts_of_yields h
  refine ⟨begun, res, turns, last, closing, ht, hfinishes, ⟨hbegins, hres⟩, ?_, ?_, ⟨?_, ?_, ?_⟩,
    ?_⟩
  · intro e hf
    subst hf
    obtain rfl := hnone e ((hres e).1 rfl)
    refine ⟨rfl, ?_⟩
    intro d a
    cases hfinishes with
    | refused _ hz =>
        rw [ht, List.flatten_nil, List.append_nil, List.append_nil]
        exact not_next_of_refused hbegins hz
  · rintro u rfl
    cases hfinishes with
    | unfinished => exact .inl rfl
    | overflowed hk => exact .inr (.inl ⟨rfl, _, hk⟩)
    | refused e => cases (hres e).1 rfl
    | stopped hu => exact .inr (.inr ⟨rfl, hu.stops⟩)
  · rintro before u after rfl
    have hturn : Turn c u := hturns u (by simp)
    refine ⟨hturn, ?_⟩
    intro hr
    exact not_resolved_of_turn hturn hr.left.left.left
  · intro hr
    cases hfinishes with
    | unfinished | overflowed | refused => exact .inl rfl
    | stopped hu => exact .inr (alone_of_lastTurn hu hr)
  · intro pre d m post hpre
    exact handled_of_yields h hpre
  · intro hf
    refine ⟨?_, ?_, parted_of_yields h hf⟩
    · cases hfinishes with
      | refused _ hz | stopped _ hz => exact hz
      | unfinished | overflowed => rcases hf with hf | ⟨e, hf⟩ <;> cases hf
    · intro e he
      rcases List.mem_append.1 he with hm | hm
      · rcases List.mem_append.1 hm with hm | hm
        · exact hbegins.not_closes hm
        · obtain ⟨u, hu, hm⟩ := List.mem_flatten.1 hm
          exact (hturns u hu).not_closes hm
      · cases hfinishes with
        | stopped hu => exact hu.not_closes hm
        | unfinished | overflowed | refused => cases hm

/-- A run that is told to stop while it waits for its second message. -/
theorem runs_in_order_until_stopped :
    let c : Settings := { queue := "reports" }
    let m : Message := { payload := ⟨#[7]⟩, tag := ⟨1⟩ }
    let t : List (calls Unit Unit).Exchange :=
      [⟨.source .connect, .ok ()⟩, ⟨.establish, .ok ()⟩, ⟨.source (.isOpen ()), true⟩,
        ⟨.source (.ask () (.setPrefetch prefetch)), .ok ()⟩,
        ⟨.source (.ask () (.consume c.queue c.consumerTag)), .ok ()⟩,
        ⟨.next (), .message m⟩, ⟨.send m, .outcome .delivered⟩,
        ⟨.source (.ask () (.ack ⟨1⟩)), .ok ()⟩, ⟨.next (), .stop⟩, ⟨.closeBackend, ()⟩,
        ⟨.source (.close ()), .ok ()⟩]
    ∃ r', (run c 2 {}).Yields t (some .stopped, r') ∧
      ∃ before closing, t = before ++ closing ∧ Closes closing ∧
        ∀ e ∈ before, e.call ≠ .closeBackend := by
  intro c m t
  have hrun : ∃ r', (run (σ := Unit) (δ := Unit) c 2 {}).Yields t (some .stopped, r') :=
    ⟨_, .call _ (.call _ (.call _ (.call _ (.call _ (.call _ (.call _ (.call _ (.call _
      (.call _ (.call _ (.done _)))))))))))⟩
  obtain ⟨r', hr⟩ := hrun
  obtain ⟨begun, res, turns, last, closing, ht, -, -, -, -, -, hclosed⟩ := runs_in_order 2 {} hr
  obtain ⟨hcloses, hbackend, -, -⟩ := hclosed (.inl rfl)
  exact ⟨r', hr, _, closing, ht, hcloses, hbackend⟩

/-- A relay that is to stop from the first of its exchanges on still makes its first attempt
to subscribe: nothing it does until then waits. -/
theorem subscribes_though_stopped :
    let c : Settings := { queue := "reports" }
    let start : List (calls Unit Unit).Exchange :=
      [⟨.source .connect, .ok ()⟩, ⟨.establish, .ok ()⟩]
    let attempt : List (BrokerLink Unit Unit).Exchange :=
      [⟨.isOpen (), true⟩, ⟨.ask () (.setPrefetch prefetch), .ok ()⟩,
        ⟨.ask () (.consume c.queue c.consumerTag), .ok ()⟩]
    let rest : List (calls Unit Unit).Exchange :=
      [⟨.next (), .stop⟩, ⟨.closeBackend, ()⟩, ⟨.source (.close ()), .ok ()⟩]
    (∃ r', (run c 1 {}).Yields (start ++ attempt.map atSource ++ rest) (some .stopped, r')) ∧
      Resolved (start ++ attempt.map atSource ++ rest) ∧ Attempts c attempt (.ok ()) := by
  intro c start attempt rest
  refine ⟨⟨_, .call _ (.call _ (.call _ (.call _ (.call _ (.call _ (.call _ (.call _
    (.done _))))))))⟩, ?_, .asked (.found ()) _⟩
  intro e he hwaits
  simp only [start, attempt, rest, atSource, List.map_cons, List.map_nil, List.cons_append,
    List.nil_append, List.mem_cons, List.not_mem_nil, or_false] at he
  rcases he with rfl | rfl | rfl | rfl | rfl | rfl | rfl | rfl <;>
    first | exact .fetching () | exact hwaits.elim

end QueueRelay.Relay

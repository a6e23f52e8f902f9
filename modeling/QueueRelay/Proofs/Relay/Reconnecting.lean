/-
How long a relay waits before it connects again.

Everything a relay waits for is one of two things.  It waits before each attempt to subscribe
again, by the number of attempts that failed since it last had a stream, and it waits after a
message for which the backend could not be reached, by the number of such failures in a row.
`Pace` follows both numbers along the exchanges and says which of the two waits comes next.

The first number starts again with every stream, however short the stream is, and a relay
waits nothing for the attempt of that number.  So between two connections with no message
fetched between them the relay waits in earnest just if an attempt to subscribe failed there.
A source that accepts every attempt, and ends every stream at once, is connected to again and
again without a pause.
-/
import QueueRelay.Proofs.Backoff
import QueueRelay.Proofs.Relay.Counters

namespace QueueRelay.Relay

open Program

variable {σ δ α : Type} {c : Settings}

/-! ### The pace of a relay -/

/-- What a relay is about. -/
inductive Moment where
  /-- It tries to subscribe. -/
  | trying
  /-- It has a stream, or will wait and try to get one. -/
  | idle
  /-- It has a message that it did not hand over yet. -/
  | holding
  /-- The backend could not be reached, and it will wait for that. -/
  | cutOff
deriving DecidableEq

/-- What decides how long a relay waits next. -/
structure Pace where
  /-- Attempts to subscribe that failed since the last one that did not. -/
  tries : Nat := 0
  /-- Connectivity failures in a row. -/
  streak : Nat := 0
  moment : Moment := .trying

namespace Pace

/-- After an attempt to subscribe failed. -/
def foiled (p : Pace) : Pace := { p with tries := bump p.tries, moment := .idle }

/-- After an attempt to subscribe. -/
def tried (p : Pace) : Except LinkError δ → Pace
  | .ok _ => { p with tries := 0, moment := .idle }
  | .error _ => p.foiled

/-- After the first part of an attempt to subscribe, which goes on if that succeeded. -/
def went (p : Pace) : Except LinkError α → Pace
  | .ok _ => p
  | .error _ => p.foiled

/-- After the backend gave its word on a message. -/
def judged (p : Pace) : Outcome → Pace
  | .connectivityFailure _ => { p with streak := bump p.streak, moment := .cutOff }
  | _ => { p with streak := 0, moment := .idle }

/-- After a message was handed over. -/
def handed (p : Pace) : Handed → Pace
  | .outcome o => p.judged o
  | .panicked detail => p.judged (.unknownFailure detail)

/-- After a wait. -/
def rested (p : Pace) (moment : Moment) : Pause → Pace
  | .elapsed => { p with moment := moment }
  | .stop => p

end Pace

/-- A call that has to do neither with an attempt to subscribe nor with a message or a wait. -/
def Unpaced : Call σ δ → Prop
  | .source .connect | .source (.ask _ (.setPrefetch _)) | .source (.ask _ (.consume _ _))
  | .next _ | .send _ | .pause _ => False
  | _ => True

/-- The exchanges of a relay, and when it waits for how long. -/
inductive Pace.Step (c : Settings) : Pace → (calls σ δ).Exchange → Pace → Prop
  | beside (p : Pace) (k : Call σ δ) (h : Unpaced k) (a : (calls σ δ).Answer k) :
      Step c p ⟨k, a⟩ p
  | connected {p : Pace} (h : p.moment = .trying) (a : Except LinkError σ) :
      Step c p ⟨.source .connect, a⟩ (p.went a)
  | limited {p : Pace} (h : p.moment = .trying) (s : σ) (a : Except LinkError Unit) :
      Step c p ⟨.source (.ask s (.setPrefetch prefetch)), a⟩ (p.went a)
  | subscribed {p : Pace} (h : p.moment = .trying) (s : σ) (a : Except LinkError δ) :
      Step c p ⟨.source (.ask s (.consume c.queue c.consumerTag)), a⟩ (p.tried a)
  | fetched {p : Pace} (h : p.moment = .idle) (stream : δ) (m : Message) :
      Step c p ⟨.next stream, .message m⟩ { p with moment := .holding }
  | missed {p : Pace} (h : p.moment = .idle) (stream : δ) (a : Next) (ha : ∀ m, a ≠ .message m) :
      Step c p ⟨.next stream, a⟩ p
  | handed {p : Pace} (h : p.moment = .holding) (m : Message) (a : Handed) :
      Step c p ⟨.send m, a⟩ (p.handed a)
  /-- The wait before an attempt to subscribe again. -/
  | waited {p : Pace} (h : p.moment = .idle) {d : Duration}
      (hd : c.backoff.delay? p.tries = some d) (a : Pause) :
      Step c p ⟨.pause d, a⟩ (p.rested .trying a)
  /-- The wait after the backend could not be reached. -/
  | recovered {p : Pace} (h : p.moment = .cutOff) {d : Duration}
      (hd : c.backoff.delay? p.streak = some d) (a : Pause) :
      Step c p ⟨.pause d, a⟩ (p.rested .idle a)

/-! ### A relay keeps its pace -/

/-- The pace at which a relay goes on. -/
def State.pace (r : State σ δ) (moment : Moment) : Pace := ⟨r.resubscribes, r.streak, moment⟩

/-- A program whose calls all have nothing to do with the pace leaves it alone. -/
theorem keeps_unpaced {p : Program (calls σ δ) α} (h : p.Only Unpaced) (x : Pace) :
    p.Keeps (Pace.Step c) (fun _ y => y = x) x :=
  h.keeps fun k a hk => .beside x k hk a

theorem unpaced_idle {p : Program (BrokerLink σ δ) α} (h : p.Only Link.Idle) :
    (onSource p).Only Unpaced := by
  refine only_onSource (h.mono fun k hk => ?_)
  cases k with
  | isOpen | close => trivial
  | connect | ask => exact hk.elim

theorem unpaced_close (r : State σ δ) : (close r).Only Unpaced :=
  Only.bind (only_perform trivial) fun _ =>
    (unpaced_idle r.source.idle_release).bind fun _ => trivial

section Attempt

variable {l : Link σ} {x : Pace}

theorem paced_establish (hx : x.moment = .trying) :
    (onSource (δ := δ) l.establish).Keeps (Pace.Step c) (fun r y => y = x.went r.1) x := by
  refine keeps_onSource.2 (Keeps.bind
    (keeps_onSource.1 (keeps_unpaced (unpaced_idle l.idle_discard) x)) fun _ y hy => ?_)
  subst hy
  refine keeps_perform_bind fun a => ⟨y.went a, .connected hx a, ?_⟩
  cases a with
  | ok s => rfl
  | error e => rfl

theorem paced_ensureLive (hx : x.moment = .trying) :
    (onSource (δ := δ) l.ensureLive).Keeps (Pace.Step c) (fun r y => y = x.went r.1) x := by
  refine keeps_onSource.2 ?_
  have hestablish := keeps_onSource.1 (paced_establish (c := c) (δ := δ) (l := l) hx)
  unfold Link.ensureLive Link.isLive
  split
  · cases hs : l.session with
    | none => exact hestablish
    | some s =>
        refine keeps_perform_bind fun a => ⟨x, .beside x (.source (.isOpen s)) trivial a, ?_⟩
        cases a with
        | false => exact hestablish
        | true => rfl
  · exact hestablish

theorem paced_consumeOn (hx : x.moment = .trying) (s : σ) :
    (onSource (δ := δ) (consumeOn c s)).Keeps (Pace.Step c) (fun r y => y = x.tried r) x := by
  refine keeps_onSource.2 (keeps_perform_bind fun a => ⟨x.went a, .limited hx s a, ?_⟩)
  cases a with
  | error e => rfl
  | ok u =>
      intro a
      exact ⟨x.tried (δ := δ) a, Pace.Step.subscribed hx s a, rfl⟩

theorem paced_subscribe (hx : x.moment = .trying) :
    (onSource (δ := δ) (subscribe c l)).Keeps (Pace.Step c) (fun r y => y = x.tried r.1) x := by
  refine keeps_onSource.2 (Keeps.bind (keeps_onSource.1 (paced_ensureLive hx)) ?_)
  rintro ⟨r, l⟩ y rfl
  cases r with
  | error e => rfl
  | ok s => exact keeps_map.2 (keeps_onSource.1 (paced_consumeOn hx s))

end Attempt

section Parts

variable {r : State σ δ} {x : Pace}

theorem unpaced_provision (c : Settings) (s : σ) : (provision (δ := δ) c s).Only Unpaced := by
  unfold provision
  cases c.topology with
  | none => trivial
  | some t =>
      refine Only.bind (only_onSource (only_onSession ((only_ensure t).mono fun k hk => ?_)))
        fun _ => trivial
      cases k with
      | setPrefetch | consume => exact hk.elim
      | _ => trivial

theorem paced_start (h : r.resubscribes = 0) :
    (start c r).Keeps (Pace.Step c) (fun a y => match a.1 with
      | .ok _ => y = a.2.pace .trying ∧ a.2.resubscribes = 0
      | .error _ => True) (r.pace .trying) := by
  refine (paced_establish rfl).bind ?_
  rintro ⟨a, l⟩ y rfl
  cases a with
  | error e => trivial
  | ok s =>
      refine (keeps_unpaced (unpaced_provision c s) _).bind ?_
      rintro a y rfl
      cases a with
      | error e => trivial
      | ok u =>
          refine keeps_perform_bind fun a => ⟨_, .beside _ .establish trivial a, ?_⟩
          cases a with
          | error e => trivial
          | ok u => exact ⟨rfl, h⟩

/-- A relay that has begun goes on at its pace. -/
theorem paced_begin (h : r.resubscribes = 0) :
    (begin c r).Keeps (Pace.Step c) (fun a y => match a.1 with
      | .ok _ => y = a.2.pace .idle
      | .error _ => True) (r.pace .trying) := by
  refine (paced_start h).bind ?_
  rintro ⟨a, r⟩ y hy
  cases a with
  | error e => trivial
  | ok u =>
      obtain ⟨rfl, h⟩ := hy
      refine (paced_subscribe rfl).bind ?_
      rintro ⟨a, l⟩ y rfl
      cases a with
      | error e => trivial
      | ok d =>
          show Pace.mk 0 r.streak .idle = Pace.mk r.resubscribes r.streak .idle
          rw [h]

/-! ### One message -/

theorem paced_forward (m : Message) :
    (forward m r).Keeps (Pace.Step c) (fun a y => y = (a.2.pace .holding).judged a.1)
      (r.pace .holding) := by
  refine keeps_perform_bind fun a => ⟨(r.pace .holding).handed a, .handed rfl m a, ?_⟩
  cases a with
  | outcome o => rfl
  | panicked detail => rfl

theorem unpaced_settle (s : σ) (tag : DeliveryTag) (o : Outcome) :
    (onSource (settle (δ := δ) s tag o)).Only Unpaced := by
  unfold settle
  split <;> exact only_onSource (only_perform trivial)

theorem paced_dispose (m : Message) (o : Outcome) (moment : Moment) :
    (dispose m o r).Keeps (Pace.Step c)
      (fun r' y => y = x ∧ r'.pace moment = r.pace moment) x := by
  unfold dispose
  cases r.source.session with
  | none => exact ⟨rfl, rfl⟩
  | some session =>
      refine (keeps_unpaced (unpaced_settle session m.tag o) x).bind ?_
      rintro a y rfl
      cases a with
      | ok u => cases o <;> exact ⟨rfl, rfl⟩
      | error e => exact ⟨rfl, rfl⟩

/-- A relay that goes on after a round does so at its pace. -/
def RoundPaced : Round σ δ → Pace → Prop
  | .go r, x => x = r.pace .idle
  | .stop _, _ | .overflow _, _ => True

theorem paced_recover (o : Outcome) :
    (recover c o r).Keeps (Pace.Step c) RoundPaced ((r.pace .holding).judged o) := by
  unfold recover
  cases o with
  | connectivityFailure reason =>
      dsimp only
      split
      · trivial
      · rename_i d hd
        refine keeps_perform_bind fun a => ⟨_, .recovered rfl hd a, ?_⟩
        cases a with
        | stop => trivial
        | elapsed => rfl
  | delivered | unroutable | unknownFailure => exact rfl

theorem paced_deliver (stream : δ) :
    (deliver c stream r).Keeps (Pace.Step c) RoundPaced (r.pace .idle) := by
  refine keeps_perform_bind fun a => ?_
  cases a with
  | stop => exact ⟨_, .missed rfl stream _ nofun, trivial⟩
  | failed e => exact ⟨_, .missed rfl stream _ nofun, rfl⟩
  | ended => exact ⟨_, .missed rfl stream _ nofun, rfl⟩
  | message m =>
      refine ⟨r.pace .holding, .fetched rfl stream m, ?_⟩
      refine Keeps.bind (paced_forward m) ?_
      rintro ⟨o, r⟩ y rfl
      refine (paced_dispose m o .holding).bind ?_
      rintro r' y ⟨rfl, hr⟩
      rw [← hr]
      exact paced_recover o

/-! ### A run -/

theorem paced_resubscribe :
    (resubscribe c r).Keeps (Pace.Step c) RoundPaced (r.pace .idle) := by
  unfold resubscribe
  split
  · trivial
  · rename_i d hd
    refine keeps_perform_bind fun a => ⟨_, .waited rfl hd a, ?_⟩
    cases a with
    | stop => trivial
    | elapsed =>
        refine (paced_subscribe rfl).bind ?_
        rintro ⟨a, l⟩ y rfl
        cases a with
        | ok d => rfl
        | error e => rfl

theorem paced_round : (round c r).Keeps (Pace.Step c) RoundPaced (r.pace .idle) := by
  unfold round
  split
  · exact paced_deliver _
  · exact paced_resubscribe

theorem paced_rounds (n : Nat) :
    (rounds c n r).Keeps (Pace.Step c) (fun _ _ => True) (r.pace .idle) := by
  induction n generalizing r with
  | zero => trivial
  | succ n ih =>
      refine paced_round.bind ?_
      intro a y hy
      cases a with
      | go r =>
          cases hy
          exact ih
      | stop r => exact (keeps_unpaced (unpaced_close r) y).bind fun _ _ _ => trivial
      | overflow r => trivial

/-- **A relay keeps its pace** from its start. -/
theorem paced_run (h : r.resubscribes = 0) (n : Nat) :
    (run c n r).Keeps (Pace.Step c) (fun _ _ => True) (r.pace .trying) := by
  refine (paced_begin h).bind ?_
  rintro ⟨a, r⟩ y hy
  cases a with
  | error e => exact (keeps_unpaced (unpaced_close r) y).bind fun _ _ _ => trivial
  | ok u =>
      cases hy
      exact paced_rounds n

end Parts

/-! ### Between two connections -/

/-- A message is fetched. -/
def fetches (e : (calls σ δ).Exchange) : Bool :=
  match e with
  | ⟨.next _, .message _⟩ => true
  | _ => false

/-- An attempt to subscribe fails. -/
def foils (e : (calls σ δ).Exchange) : Bool :=
  match e with
  | ⟨.source .connect, .error _⟩ => true
  | ⟨.source (.ask _ (.setPrefetch _)), .error _⟩ => true
  | ⟨.source (.ask _ (.consume _ _)), .error _⟩ => true
  | _ => false

/-- How long an exchange lasts at least, in nanoseconds. -/
def lasts (e : (calls σ δ).Exchange) : Nat :=
  match e with
  | ⟨.pause d, .elapsed⟩ => d.nanos
  | _ => 0

/-- How long some exchanges last at least, one after the other. -/
def waited (t : List (calls σ δ).Exchange) : Nat := (t.map lasts).sum

theorem waited_snoc (t : List (calls σ δ).Exchange) (e : (calls σ δ).Exchange) :
    waited (t ++ [e]) = waited t + lasts e := by
  simp [waited]

theorem any_foils_snoc {t : List (calls σ δ).Exchange} {e : (calls σ δ).Exchange}
    (he : foils e = false) : (t ++ [e]).any foils = t.any foils := by
  simp [he]

/-- Where a relay is that fetched no message since it connected.  After a failure it has waited
for `least`, or is to wait before it connects; without one it waited nothing. -/
structure Since (least : Nat) (t : List (calls σ δ).Exchange) (p : Pace) : Prop where
  moment : p.moment = .trying ∨ p.moment = .idle
  foiled : t.any foils = true → least ≤ waited t ∨ 1 ≤ p.tries ∧ p.moment = .idle
  smooth : t.any foils = false → waited t = 0 ∧ (p.moment = .idle → p.tries = 0)

namespace Since

variable {least : Nat} {t : List (calls σ δ).Exchange} {p p' : Pace} {e : (calls σ δ).Exchange}

/-- The relay has just connected. -/
theorem connected (h : p.moment = .trying) : Since least ([] : List (calls σ δ).Exchange) p where
  moment := .inl h
  foiled := nofun
  smooth := fun _ => ⟨rfl, fun hidle => by rw [h] at hidle; cases hidle⟩

/-- An exchange that takes no time, and in which nothing fails. -/
theorem smoothly (h : Since least t p) (he : foils e = false) (hl : lasts e = 0)
    (hm : p'.moment = .trying ∨ p'.moment = .idle)
    (hp : 1 ≤ p.tries → p.moment = .idle → 1 ≤ p'.tries ∧ p'.moment = .idle)
    (hp' : (p.moment = .idle → p.tries = 0) → p'.moment = .idle → p'.tries = 0) :
    Since least (t ++ [e]) p' := by
  have hwaited : waited (t ++ [e]) = waited t := by rw [waited_snoc, hl, Nat.add_zero]
  refine ⟨hm, fun hf => ?_, fun hf => ?_⟩
  · rw [any_foils_snoc he] at hf
    rw [hwaited]
    exact (h.foiled hf).imp_right fun hlate => hp hlate.1 hlate.2
  · rw [any_foils_snoc he] at hf
    rw [hwaited]
    exact (h.smooth hf).imp_right hp'

/-- An exchange that leaves the pace as it is. -/
theorem beside (h : Since least t p) (he : foils e = false) (hl : lasts e = 0) :
    Since least (t ++ [e]) p :=
  h.smoothly he hl h.moment .intro id

/-- An attempt fails, and the next one will have to wait. -/
theorem fails (he : foils e = true) (p : Pace) :
    Since least (t ++ [e]) p.foiled where
  moment := .inr rfl
  foiled := fun _ => .inr ⟨Nat.le_min.2 ⟨Nat.succ_pos _, by decide⟩, rfl⟩
  smooth := fun hf => by simp [he] at hf

end Since

theorem unpaced_smooth {k : (calls σ δ).Call} (h : Unpaced k) (a : (calls σ δ).Answer k) :
    foils ⟨k, a⟩ = false ∧ lasts (σ := σ) ⟨k, a⟩ = 0 := by
  cases k with
  | source k =>
      cases k with
      | connect => exact h.elim
      | ask s k =>
          cases k with
          | setPrefetch | consume => exact h.elim
          | _ => exact ⟨rfl, rfl⟩
      | _ => exact ⟨rfl, rfl⟩
  | next | send | pause => exact h.elim
  | _ => exact ⟨rfl, rfl⟩

section Window

variable {least : Nat} {t : List (calls σ δ).Exchange} {p p' : Pace} {e : (calls σ δ).Exchange}

/-- The wait before an attempt is over. -/
theorem Since.rested (hleast : ∀ k d, 1 ≤ k → c.backoff.delay? k = some d → least ≤ d.nanos)
    (h : Since least t p) (hm : p.moment = .idle) {d : Duration}
    (hd : c.backoff.delay? p.tries = some d) :
    Since least (t ++ [⟨.pause d, .elapsed⟩]) { p with moment := .trying } := by
  refine ⟨.inl rfl, fun hf => .inl ?_, fun hf => ⟨?_, nofun⟩⟩
  · rw [any_foils_snoc rfl] at hf
    rw [waited_snoc]
    rcases h.foiled hf with hpast | ⟨hlate, -⟩
    · exact Nat.le_add_right_of_le hpast
    · exact Nat.le_add_left_of_le (hleast _ d hlate hd)
  · rw [any_foils_snoc rfl] at hf
    obtain ⟨hzero, htries⟩ := h.smooth hf
    rw [htries hm] at hd
    cases hd
    rw [waited_snoc, hzero]
    rfl

/-- What one exchange leaves of the time waited. -/
theorem Since.step (hleast : ∀ k d, 1 ≤ k → c.backoff.delay? k = some d → least ≤ d.nanos)
    (h : Since least t p) (hs : Pace.Step c p e p') (hf : fetches e = false) :
    Since least (t ++ [e]) p' := by
  cases hs with
  | beside k hk a =>
      obtain ⟨he, hl⟩ := unpaced_smooth hk a
      exact h.beside he hl
  | connected hm a =>
      cases a with
      | error e => exact .fails rfl p
      | ok s => exact h.beside rfl rfl
  | limited hm s a =>
      cases a with
      | error e => exact .fails rfl p
      | ok u => exact h.beside rfl rfl
  | subscribed hm s a =>
      cases a with
      | error e => exact .fails rfl p
      | ok d =>
          refine h.smoothly rfl rfl (.inr rfl) (fun _ hidle => ?_) fun _ _ => rfl
          rw [hm] at hidle
          cases hidle
  | fetched hm stream m => cases hf
  | missed hm stream a ha =>
      cases a with
      | message m => exact absurd rfl (ha m)
      | stop | failed | ended => exact h.beside rfl rfl
  | handed hm m a => rcases h.moment with hm' | hm' <;> cases hm.symm.trans hm'
  | waited hm hd a =>
      cases a with
      | stop => exact h.beside rfl rfl
      | elapsed => exact h.rested hleast hm hd
  | recovered hm hd a => rcases h.moment with hm' | hm' <;> cases hm.symm.trans hm'

/-- What some exchanges leave of the time waited. -/
theorem Since.path (hleast : ∀ k d, 1 ≤ k → c.backoff.delay? k = some d → least ≤ d.nanos)
    (h : Since least ([] : List (calls σ δ).Exchange) p) (hp : Path (Pace.Step c) p t p')
    (hf : ∀ e ∈ t, fetches e = false) : Since least t p' := by
  have hpath := hp.preserves (P := fun p t => (∀ e ∈ t, fetches e = false) → Since least t p)
    (fun p e p' t hs ih hf => (ih fun e he => hf e (List.mem_append_left _ he)).step hleast hs
      (hf e (List.mem_append_right _ List.mem_cons_self))) [] fun _ => h
  exact hpath hf

/-- The relay connects only when it tries to subscribe, and that it could is not yet a stream. -/
theorem connects_trying {s : σ}
    (h : Pace.Step c p (⟨.source .connect, .ok s⟩ : (calls σ δ).Exchange) p') :
    p.moment = .trying ∧ p' = p := by
  cases h with
  | connected hm a => exact ⟨hm, rfl⟩
  | beside k hk a => exact hk.elim

end Window

section Run

variable {n : Nat} {l : Link σ} {x : Stats} {t before between after : List (calls σ δ).Exchange}
  {q : Program (calls σ δ) (Option Finish × State σ δ)} {s s' : σ}

/-- **Between two connections with no message fetched in between, a relay rests just if an
attempt to subscribe failed there.**  It then waits at least for the shorter of the initial delay
and the cap of its backoff; else it does not wait at all. -/
theorem rests_between_connections {least : Duration} (hl : c.backoff.least? = some least)
    (h : (run c n { source := l, stats := x }).Leads t q)
    (ht : t = before ++ ⟨.source .connect, .ok s⟩ ::
      (between ++ ⟨.source .connect, .ok s'⟩ :: after))
    (hf : ∀ e ∈ between, fetches e = false) :
    (between.any foils = true → least.nanos ≤ waited between) ∧
      (between.any foils = false → waited between = 0) := by
  subst ht
  have hleast : ∀ k d, 1 ≤ k → c.backoff.delay? k = some d → least.nanos ≤ d.nanos :=
    fun k d hk hd => Backoff.delay_ge hk hl hd
  obtain ⟨p, hpath, -⟩ := (paced_run (c := c) rfl n).leads h
  obtain ⟨p₁, -, hrest⟩ := path_append.1 hpath
  cases hrest with
  | step hfirst hrest =>
      obtain ⟨p₂, hbetween, hrest⟩ := path_append.1 hrest
      obtain ⟨hm, rfl⟩ := connects_trying hfirst
      have hsince := Since.path hleast (.connected hm) hbetween hf
      cases hrest with
      | step hsecond hafter =>
          have hm₂ := (connects_trying hsecond).1
          refine ⟨fun hfailed => ?_, fun hsmooth => (hsince.smooth hsmooth).1⟩
          refine (hsince.foiled hfailed).resolve_right fun hidle => ?_
          rw [hm₂] at hidle
          cases hidle.2

/-- A relay whose second attempt fails waits a second before its third. -/
theorem rests_after_refusal :
    let c : Settings := { queue := "jobs", backoff := ⟨.ofSeconds 1, 2.0, .ofSeconds 30⟩ }
    let between : List (calls Nat Unit).Exchange :=
      [⟨.establish, .ok ()⟩, ⟨.source (.isOpen 0), true⟩,
        ⟨.source (.ask 0 (.setPrefetch 1)), .ok ()⟩,
        ⟨.source (.ask 0 (.consume c.queue c.consumerTag)), .ok ()⟩,
        ⟨.next (), .ended⟩, ⟨.pause .zero, .elapsed⟩, ⟨.source (.isOpen 0), true⟩,
        ⟨.source (.close 0), .ok ()⟩, ⟨.source .connect, .error .closed⟩,
        ⟨.pause (.ofSeconds 1), .elapsed⟩]
    (∃ q, (run c 3 {}).Leads
      (⟨.source .connect, .ok 0⟩ :: (between ++ [⟨.source .connect, .ok 1⟩])) q) ∧
      (Duration.ofSeconds 1).nanos ≤ waited between := by
  intro c between
  have hleast : c.backoff.least? = some (.ofSeconds 1) :=
    Backoff.least_eq (i := .ofSeconds 1) (c := .ofSeconds 30) (by decide +kernel) (by decide +kernel)
  have hdelay : c.backoff.delay? 1 = some (.ofSeconds 1) := by decide +kernel
  -- The delay is a computation with doubles, which has to be rewritten and not be evaluated.
  have hpaused : ∀ r : State Nat Unit, r.stream = none → r.resubscribes = 1 →
      r.source.session = none → r.source.phase = .degraded → ∃ q, (rounds c 1 r).Leads
        [⟨.pause (.ofSeconds 1), .elapsed⟩, ⟨.source .connect, .ok 1⟩] q := by
    rintro ⟨⟨_, _, _, _, _⟩, _, _, _, _⟩ rfl rfl rfl rfl
    apply Exists.intro
    show (Program.bind (resubscribe c _) _).Leads _ _
    unfold resubscribe
    dsimp only
    rw [hdelay]
    exact .call _ (.call _ (.here _))
  have hrun : ∃ q, (run (σ := Nat) (δ := Unit) c 3 {}).Leads
      (⟨.source .connect, .ok 0⟩ :: (between ++ [⟨.source .connect, .ok 1⟩])) q :=
    ⟨_, .call _ (.call _ (.call _ (.call _ (.call _ (.call _ (.call _ (.call _ (.call _
      (.call _ (hpaused _ rfl rfl rfl rfl).choose_spec)))))))))⟩
  obtain ⟨q, hq⟩ := hrun
  refine ⟨⟨q, hq⟩, ?_⟩
  have hsplit : ⟨.source .connect, .ok 0⟩ :: (between ++ [⟨.source .connect, .ok 1⟩]) =
      [] ++ ⟨.source .connect, .ok 0⟩ :: (between ++ [⟨.source .connect, .ok 1⟩]) := rfl
  have hbetween : ∀ e ∈ between, fetches e = false := by decide
  exact (rests_between_connections hleast hq hsplit hbetween).1 rfl

/-- A source that accepts every attempt and ends every stream at once is connected to three times
without a pause, however long the delays are. -/
theorem reconnects_without_rest :
    let c : Settings := { queue := "jobs", backoff := ⟨.ofSeconds 1, 2.0, .ofSeconds 30⟩ }
    let subscribed (s : Nat) : List (calls Nat Unit).Exchange :=
      [⟨.source (.ask s (.setPrefetch 1)), .ok ()⟩,
        ⟨.source (.ask s (.consume c.queue c.consumerTag)), .ok ()⟩]
    let lost (s : Nat) : List (calls Nat Unit).Exchange :=
      [⟨.next (), .ended⟩, ⟨.pause .zero, .elapsed⟩, ⟨.source (.isOpen s), true⟩,
        ⟨.source (.close s), .ok ()⟩]
    let first : List (calls Nat Unit).Exchange :=
      [⟨.establish, .ok ()⟩, ⟨.source (.isOpen 0), true⟩] ++ subscribed 0 ++ lost 0
    let second : List (calls Nat Unit).Exchange := subscribed 1 ++ lost 1
    (∃ q, (run c 4 {}).Leads (⟨.source .connect, .ok 0⟩ :: first ++
      ⟨.source .connect, .ok 1⟩ :: second ++ [⟨.source .connect, .ok 2⟩]) q) ∧
      (∀ e ∈ first ++ second, fetches e = false) ∧
      waited (first ++ second) < min c.backoff.initial.nanos c.backoff.cap.nanos := by
  intro c subscribed lost first second
  have hrun : ∃ q, (run (σ := Nat) (δ := Unit) c 4 {}).Leads (⟨.source .connect, .ok 0⟩ :: first ++
      ⟨.source .connect, .ok 1⟩ :: second ++ [⟨.source .connect, .ok 2⟩]) q :=
    ⟨_, .call _ (.call _ (.call _ (.call _ (.call _ (.call _ (.call _ (.call _ (.call _ (.call _
      (.call _ (.call _ (.call _ (.call _ (.call _ (.call _
        (.call _ (.here _)))))))))))))))))⟩
  exact ⟨hrun, by decide, by decide⟩

end Run

end QueueRelay.Relay

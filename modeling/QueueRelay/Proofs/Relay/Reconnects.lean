/-
What a relay reports of its reconnections.

Its link counts every session that was opened after the first.  The relay copies that number
into its statistics at one place only, when it has subscribed again.  It opens sessions at two
more: a session that was lost while the relay started is replaced for the first subscription,
and an attempt to subscribe again may open a session and fail after that.  So what is reported
is the number as it was when the relay last subscribed again, or zero if it never did.

`Census` follows both numbers along the exchanges.  Read backwards they are counts of sessions:
all that were opened, and those opened up to the last subscription, if it was not the first.
-/
import QueueRelay.Proofs.Relay.Waiting

namespace QueueRelay.Relay

open Program

variable {σ δ α : Type} {c : Settings} {t : List (calls σ δ).Exchange}

/-! ### A census of sessions -/

/-- What the exchanges say of the sessions that were opened. -/
structure Census where
  /-- Sessions opened so far. -/
  sessions : Nat := 0
  /-- An attempt to subscribe has succeeded. -/
  subscribed : Bool := false
  /-- Sessions opened after the first when the relay last subscribed again. -/
  reported : Nat := 0

/-- The census after an exchange. -/
def Census.enter (x : Census) (e : (calls σ δ).Exchange) : Census :=
  match e with
  | ⟨.source .connect, .ok _⟩ => { x with sessions := x.sessions + 1 }
  | ⟨.source (.ask _ (.consume _ _)), .ok _⟩ =>
    { x with
      subscribed := true
      reported := if x.subscribed then x.sessions - 1 else x.reported }
  | _ => x

/-- The census goes as the exchanges say. -/
def Enters (x : Census) (e : (calls σ δ).Exchange) (y : Census) : Prop := y = x.enter e

/-- The census of some exchanges. -/
def censusOf (t : List (calls σ δ).Exchange) : Census := t.foldl Census.enter {}

/-- The exchanges up to the last subscription, none if that was the first. -/
def restored (t : List (calls σ δ).Exchange) : List (calls σ δ).Exchange :=
  if 1 < t.countP subscribes then t.rdropWhile fun e => !subscribes e else []

theorem restored_snoc (t : List (calls σ δ).Exchange) (e : (calls σ δ).Exchange) :
    restored (t ++ [e]) =
      if subscribes e then if 0 < t.countP subscribes then t ++ [e] else [] else restored t := by
  unfold restored
  rw [List.countP_append, List.countP_singleton]
  by_cases he : subscribes e = true
  · rw [List.rdropWhile_concat_neg _ _ _ (by simp [he])]
    simp [he]
  · rw [List.rdropWhile_concat_pos _ _ _ (by simp [he])]
    simp [he]

/-- An exchange in which an attempt to subscribe succeeds opens no session. -/
theorem opened_of_subscribes {e : (calls σ δ).Exchange} (he : subscribes e = true) :
    opened [e] = [] := by
  unfold subscribes at he
  split at he
  · rfl
  · cases he

/-- What an exchange enters into the census. -/
theorem enter_eq (x : Census) (e : (calls σ δ).Exchange) :
    x.enter e = ⟨x.sessions + (opened [e]).length, x.subscribed || subscribes e,
      if x.subscribed && subscribes e then x.sessions - 1 else x.reported⟩ := by
  obtain ⟨k, a⟩ := e
  cases k with
  | source k =>
      cases k with
      | connect => cases a <;> simp [Census.enter, opened, subscribes]
      | ask s k =>
          cases k with
          | consume => cases a <;> simp [Census.enter, opened, subscribes]
          | _ => simp [Census.enter, opened, subscribes]
      | _ => simp [Census.enter, opened, subscribes]
  | _ => simp [Census.enter, opened, subscribes]

/-- **The census, read backwards.** -/
theorem censusOf_eq (t : List (calls σ δ).Exchange) :
    censusOf t =
      ⟨(opened t).length, decide (0 < t.countP subscribes), (opened (restored t)).length - 1⟩ := by
  induction t using List.reverseRecOn with
  | nil => rfl
  | append_singleton t e ih =>
      have hsnoc : censusOf (t ++ [e]) = (censusOf t).enter e := List.foldl_concat ..
      rw [hsnoc, ih, enter_eq, restored_snoc, opened_append, List.length_append,
        List.countP_append, List.countP_singleton]
      by_cases he : subscribes e = true
      · by_cases ht : 0 < t.countP subscribes
        · simp [he, ht, opened_append, opened_of_subscribes he]
        · have hnone : restored t = [] := if_neg (by omega)
          simp [he, ht, hnone]
      · simp [he]

/-! ### A relay keeps the census -/

/-- A link has counted its sessions. -/
structure Numbers (l : Link σ) (x : Census) : Prop where
  connects : l.connects = x.sessions
  reconnects : l.reconnects = x.sessions - 1

/-- A relay's link and its statistics agree with the census. -/
structure State.Agrees (r : State σ δ) (x : Census) : Prop where
  source : Numbers r.source x
  reported : r.stats.sourceReconnects = x.reported

theorem enter_unpaced {k : (calls σ δ).Call} (h : Unpaced k) (a : (calls σ δ).Answer k)
    (x : Census) : x.enter ⟨k, a⟩ = x := by
  cases k with
  | source k =>
      cases k with
      | connect => exact h.elim
      | ask s k =>
          cases k with
          | consume => exact h.elim
          | _ => rfl
      | _ => rfl
  | _ => rfl

/-- A program that neither connects nor subscribes leaves the census alone. -/
theorem census_unpaced {p : Program (calls σ δ) α} (h : p.Only Unpaced) (x : Census) :
    p.Keeps Enters (fun _ y => y = x) x :=
  h.keeps fun _ a hk => (enter_unpaced hk a x).symm

section Attempt

variable {l : Link σ} {x : Census}

/-- What an attempt to open a session leaves of the census: more sessions, perhaps. -/
structure Grown (x : Census) (l : Link σ) (y : Census) : Prop where
  numbers : Numbers l y
  subscribed : y.subscribed = x.subscribed
  reported : y.reported = x.reported

theorem grown_establish (h : Numbers l x) :
    (onSource (δ := δ) l.establish).Keeps Enters (fun r y => Grown x r.2 y) x := by
  refine keeps_onSource.2 (Keeps.bind
    (keeps_onSource.1 (census_unpaced (unpaced_idle l.idle_discard) x)) fun _ y hy => ?_)
  subst hy
  refine keeps_perform_bind fun a => ⟨_, rfl, ?_⟩
  cases a with
  | error e => exact ⟨⟨h.connects, h.reconnects⟩, rfl, rfl⟩
  | ok s =>
      have hreconnects := Link.reconnects_opened h.connects h.reconnects s
      exact ⟨⟨congrArg (· + 1) h.connects, hreconnects⟩, rfl, rfl⟩

theorem grown_ensureLive (h : Numbers l x) :
    (onSource (δ := δ) l.ensureLive).Keeps Enters (fun r y => Grown x r.2 y) x := by
  refine keeps_onSource.2 ?_
  have hestablish := keeps_onSource.1 (grown_establish (δ := δ) h)
  have hsame : Grown x l x := ⟨h, rfl, rfl⟩
  unfold Link.ensureLive Link.isLive
  split
  · cases hs : l.session with
    | none => exact hestablish
    | some s =>
        refine keeps_perform_bind fun a => ⟨x, rfl, ?_⟩
        cases a with
        | false => exact hestablish
        | true => exact hsame
  · exact hestablish

/-- What an attempt to subscribe leaves of the census.  If it succeeds, and was not the first
to do so, the sessions opened by then are reported. -/
def Tried (x : Census) (a : Except LinkError δ) (y : Census) : Prop :=
  match a with
  | .ok _ => y.subscribed = true ∧ y.reported = if x.subscribed then y.sessions - 1 else x.reported
  | .error _ => y.subscribed = x.subscribed ∧ y.reported = x.reported

theorem tried_subscribe (h : Numbers l x) :
    (onSource (δ := δ) (subscribe c l)).Keeps Enters
      (fun r y => Numbers r.2 y ∧ Tried x r.1 y) x := by
  refine keeps_onSource.2 (Keeps.bind (keeps_onSource.1 (grown_ensureLive h)) ?_)
  rintro ⟨a, l⟩ y hy
  cases a with
  | error e => exact ⟨hy.numbers, hy.subscribed, hy.reported⟩
  | ok s =>
      refine keeps_map.2 (keeps_perform_bind fun a => ⟨y, rfl, ?_⟩)
      cases a with
      | error e => exact ⟨hy.numbers, hy.subscribed, hy.reported⟩
      | ok u =>
          refine fun a => ⟨_, rfl, ?_⟩
          cases a with
          | error e => exact ⟨hy.numbers, hy.subscribed, hy.reported⟩
          | ok d =>
              refine ⟨⟨hy.numbers.connects, hy.numbers.reconnects⟩, rfl, ?_⟩
              rw [← hy.subscribed, ← hy.reported]
              rfl

end Attempt

section Parts

variable {r : State σ δ} {x : Census}

/-- Where a relay is that has not subscribed, or has. -/
structure At (subscribed : Bool) (r : State σ δ) (x : Census) : Prop where
  agrees : r.Agrees x
  subscribed : x.subscribed = subscribed

theorem census_start (h : At false r x) :
    (start c r).Keeps Enters (fun a y => At false a.2 y) x := by
  refine (grown_establish h.agrees.source).bind ?_
  rintro ⟨a, l⟩ y hy
  have hnow : ∀ r' : State σ δ, r' = { r with source := l } → At false r' y := by
    rintro r' rfl
    exact ⟨⟨hy.numbers, h.agrees.reported.trans hy.reported.symm⟩, hy.subscribed.trans h.subscribed⟩
  cases a with
  | error e => exact hnow _ rfl
  | ok s =>
      refine (census_unpaced (unpaced_provision c s) y).bind ?_
      rintro a y' rfl
      cases a with
      | error e => exact hnow _ rfl
      | ok u =>
          refine keeps_perform_bind fun a => ⟨y', rfl, ?_⟩
          cases a with
          | error e => exact hnow _ rfl
          | ok u => exact hnow _ rfl

/-- A relay that has begun has subscribed, and reports nothing of that. -/
theorem census_begin (h : At false r x) :
    (begin c r).Keeps Enters
      (fun a y => a.2.Agrees y ∧ (a.1 = .ok () → y.subscribed = true)) x := by
  refine (census_start h).bind ?_
  rintro ⟨a, r⟩ y hy
  cases a with
  | error e => exact ⟨hy.agrees, nofun⟩
  | ok u =>
      refine (tried_subscribe hy.agrees.source).bind ?_
      rintro ⟨a, l⟩ z ⟨hnumbers, htried⟩
      cases a with
      | error e => exact ⟨⟨hnumbers, hy.agrees.reported.trans htried.2.symm⟩, nofun⟩
      | ok d =>
          refine ⟨⟨hnumbers, ?_⟩, fun _ => htried.1⟩
          rw [htried.2, hy.subscribed]
          exact hy.agrees.reported

theorem census_close (h : r.Agrees x) :
    (close r).Keeps Enters (fun r' y => r'.Agrees y) x := by
  refine keeps_perform_bind fun u => ⟨x, rfl, ?_⟩
  refine (keeps_onSource.2 ?_ : (onSource (δ := δ) r.source.release).Keeps Enters
    (fun l y => l.reconnects = r.source.reconnects ∧ l.connects = r.source.connects ∧ y = x)
      x).bind ?_
  · unfold Link.release
    cases r.source.session with
    | none => exact ⟨rfl, rfl, rfl⟩
    | some s => exact keeps_perform_bind fun a => ⟨x, rfl, rfl, rfl, rfl⟩
  · rintro l y ⟨hre, hco, rfl⟩
    exact ⟨⟨hco.trans h.source.connects, hre.trans h.source.reconnects⟩, h.reported⟩

/-! ### One round -/

/-- A change of the relay beside its link's and its own count of sessions. -/
theorem At.congr {b : Bool} {r' : State σ δ} (h : At b r x)
    (hc : r'.source.connects = r.source.connects)
    (hr : r'.source.reconnects = r.source.reconnects)
    (hs : r'.stats.sourceReconnects = r.stats.sourceReconnects) : At b r' x where
  agrees := ⟨⟨hc.trans h.agrees.source.connects, hr.trans h.agrees.source.reconnects⟩,
    hs.trans h.agrees.reported⟩
  subscribed := h.subscribed

theorem census_forward (m : Message) (h : At true r x) :
    (forward m r).Keeps Enters (fun a y => At true a.2 y) x := by
  refine keeps_perform_bind fun a => ⟨x, rfl, ?_⟩
  cases a <;> exact h.congr rfl rfl rfl

theorem census_dispose (m : Message) (o : Outcome) (h : At true r x) :
    (dispose m o r).Keeps Enters (fun r' y => At true r' y) x := by
  unfold dispose
  cases r.source.session with
  | none => exact h.congr rfl rfl rfl
  | some s =>
      refine (census_unpaced (unpaced_settle s m.tag o) x).bind ?_
      rintro a y rfl
      cases a with
      | ok u => cases o <;> exact h.congr rfl rfl rfl
      | error e => exact h.congr rfl rfl rfl

theorem census_recover (o : Outcome) (h : At true r x) :
    (recover c o r).Keeps Enters (fun a y => At true a.state y) x := by
  unfold recover
  split
  · dsimp only
    split
    · exact h.congr rfl rfl rfl
    · refine keeps_perform_bind fun p => ⟨x, rfl, ?_⟩
      cases p <;> exact h.congr rfl rfl rfl
  · exact h.congr rfl rfl rfl

theorem census_deliver (stream : δ) (h : At true r x) :
    (deliver c stream r).Keeps Enters (fun a y => At true a.state y) x := by
  refine keeps_perform_bind fun a => ⟨x, rfl, ?_⟩
  cases a with
  | stop | failed e | ended => exact h.congr rfl rfl rfl
  | message m =>
      refine (census_forward m h).bind ?_
      rintro ⟨o, r⟩ y hy
      exact (census_dispose m o hy).bind fun r z hz => census_recover o hz

/-- The one place where a relay reports: it has subscribed again. -/
theorem census_resubscribe (h : At true r x) :
    (resubscribe c r).Keeps Enters (fun a y => At true a.state y) x := by
  unfold resubscribe
  split
  · exact h
  · refine keeps_perform_bind fun p => ⟨x, rfl, ?_⟩
    cases p with
    | stop => exact h
    | elapsed =>
        refine (tried_subscribe h.agrees.source).bind ?_
        rintro ⟨a, l⟩ y ⟨hnumbers, htried⟩
        cases a with
        | ok d =>
            refine ⟨⟨hnumbers, ?_⟩, htried.1⟩
            rw [htried.2, h.subscribed]
            exact hnumbers.reconnects
        | error e =>
            exact ⟨⟨⟨hnumbers.connects, hnumbers.reconnects⟩,
              h.agrees.reported.trans htried.2.symm⟩, htried.1.trans h.subscribed⟩

theorem census_round (h : At true r x) :
    (round c r).Keeps Enters (fun a y => At true a.state y) x := by
  unfold round
  split
  · exact census_deliver _ h
  · exact census_resubscribe h

/-! ### A run -/

theorem census_rounds (n : Nat) (h : At true r x) :
    (rounds c n r).Keeps Enters (fun a y => a.2.Agrees y) x := by
  induction n generalizing r x with
  | zero => exact h.agrees
  | succ n ih =>
      refine (census_round h).bind ?_
      intro a y hy
      cases a with
      | go r => exact ih hy
      | stop r => exact (census_close hy.agrees).bind fun r z hz => hz
      | overflow r => exact hy.agrees

/-- **A relay keeps the census of its sessions**, from its start to its end. -/
theorem census_run (n : Nat) (h : At false r x) :
    (run c n r).Keeps Enters (fun a y => a.2.Agrees y) x := by
  refine (census_begin h).bind ?_
  rintro ⟨a, r⟩ y ⟨hagrees, hsubscribed⟩
  cases a with
  | error e => exact (census_close hagrees).bind fun r z hz => hz
  | ok u => exact census_rounds n ⟨hagrees, hsubscribed rfl⟩

theorem eq_censusOf_of_path {x y : Census} (h : Path Enters x t y) :
    y = t.foldl Census.enter x := by
  induction h with
  | here => rfl
  | step he _ ih => rw [ih, he, List.foldl_cons]

end Parts

/-! ### What is reported -/

section Run

variable {n : Nat} {f : Option Finish} {r' : State σ δ}

theorem length_opened_restored_le (t : List (calls σ δ).Exchange) :
    (opened (restored t)).length ≤ (opened t).length := by
  unfold restored
  split
  · exact ((List.rdropWhile_prefix _ t).sublist.filterMap _).length_le
  · exact Nat.zero_le _

/-- **A relay reports as many reconnections as there were when it last subscribed again**, and
none if it never did.  The reconnections of its link are the sessions that were opened after
the first.  So what is missing from the report are those that were opened since. -/
theorem reports_reconnects (h : (run c n {}).Yields t (f, r')) :
    r'.source.reconnects = (opened t).length - 1 ∧
      r'.stats.sourceReconnects = (opened (restored t)).length - 1 ∧
      r'.source.reconnects = r'.stats.sourceReconnects +
        ((opened t).length - max 1 (opened (restored t)).length) := by
  have hfresh : At false ({} : State σ δ) {} := ⟨⟨⟨rfl, rfl⟩, rfl⟩, rfl⟩
  obtain ⟨x, hpath, hx⟩ := (census_run n hfresh).leads h.leads
  have hcensus : x = censusOf t := eq_censusOf_of_path hpath
  rw [hcensus, censusOf_eq] at hx
  have hsource : r'.source.reconnects = (opened t).length - 1 := hx.source.reconnects
  have hstats : r'.stats.sourceReconnects = (opened (restored t)).length - 1 := hx.reported
  have hle := length_opened_restored_le t
  refine ⟨hsource, hstats, ?_⟩
  omega

/-- A relay that subscribes again over a new session, and is then told to stop, reports that. -/
theorem reports_reconnects_of_lost_stream :
    let c : Settings := { queue := "jobs" }
    let subscribed (s : Nat) : List (calls Nat Unit).Exchange :=
      [⟨.source (.ask s (.setPrefetch prefetch)), .ok ()⟩,
        ⟨.source (.ask s (.consume c.queue c.consumerTag)), .ok ()⟩]
    let t : List (calls Nat Unit).Exchange :=
      [⟨.source .connect, .ok 0⟩, ⟨.establish, .ok ()⟩, ⟨.source (.isOpen 0), true⟩] ++
        subscribed 0 ++ [⟨.next (), .ended⟩, ⟨.pause .zero, .elapsed⟩,
          ⟨.source (.isOpen 0), false⟩, ⟨.source .connect, .ok 1⟩] ++
        subscribed 1 ++ [⟨.next (), .stop⟩, ⟨.closeBackend, ()⟩, ⟨.source (.close 1), .ok ()⟩]
    ∃ r', (run c 3 {}).Yields t (some .stopped, r') ∧ r'.source.reconnects = 1 ∧
      r'.stats.sourceReconnects = 1 := by
  intro c subscribed t
  have hrun : ∃ r', (run (σ := Nat) (δ := Unit) c 3 {}).Yields t (some .stopped, r') :=
    ⟨_, .call _ (.call _ (.call _ (.call _ (.call _ (.call _ (.call _ (.call _ (.call _ (.call _
      (.call _ (.call _ (.call _ (.call _ (.done _))))))))))))))⟩
  obtain ⟨r', hr⟩ := hrun
  obtain ⟨hsource, hstats, -⟩ := reports_reconnects hr
  exact ⟨r', hr, hsource, hstats⟩

/-- A relay whose session is lost while it starts opens a second one for its first subscription,
and reports no reconnection when it is told to stop. -/
theorem reconnects_unreported :
    let c : Settings := { queue := "jobs" }
    let t : List (calls Nat Unit).Exchange :=
      [⟨.source .connect, .ok 0⟩, ⟨.establish, .ok ()⟩, ⟨.source (.isOpen 0), false⟩,
        ⟨.source (.isOpen 0), false⟩, ⟨.source .connect, .ok 1⟩,
        ⟨.source (.ask 1 (.setPrefetch prefetch)), .ok ()⟩,
        ⟨.source (.ask 1 (.consume c.queue c.consumerTag)), .ok ()⟩,
        ⟨.next (), .stop⟩, ⟨.closeBackend, ()⟩, ⟨.source (.close 1), .ok ()⟩]
    ∃ r', (run c 1 {}).Yields t (some .stopped, r') ∧ opened t = [0, 1] ∧
      r'.source.reconnects = 1 ∧ r'.stats.sourceReconnects = 0 :=
  ⟨_, .call _ (.call _ (.call _ (.call _ (.call _ (.call _ (.call _ (.call _ (.call _ (.call _
    (.done _)))))))))), rfl, rfl, rfl⟩

end Run

end QueueRelay.Relay

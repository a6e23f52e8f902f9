/-
A session is used for one subscription and then never again.

Limits, consumers and tags belong to a channel, and a channel that failed may have lost any
of them; so a relay never goes back to one.  What it does with its sessions can be read off
the exchanges: a consumer is started on a session that is new, right after the limit was set
on it; whatever fails on a session, nothing more is asked of it; and no session is opened
before the one in use was closed, or said that it is not open any more.

`Remembers` ties the exchanges to the standing.  That a failed session is left alone follows
from it in a roundabout way.  A relay whose session failed stands at `spoiled`, just as one
that begins with an old session does.  So the exchanges from the failure on are looked at as
if the relay had begun there, and whatever it asks of a session then, it asks of one that it
opened in between.
-/
import Mathlib.Data.List.Nodup
import QueueRelay.Proofs.Relay.Disposition

namespace QueueRelay.Relay

open Program

variable {σ δ : Type} {c : Settings} {old : Option σ} {t : List (calls σ δ).Exchange} {s s' : σ}
  {e : (calls σ δ).Exchange} {since since' : List (calls σ δ).Exchange} {x y : Standing σ δ}

/-! ### Sessions in the exchanges -/

/-- A call that opens a session. -/
def Call.Connects : Call σ δ → Prop
  | .source .connect => True
  | _ => False

/-- A call that starts a consumer. -/
def Call.Consumes : Call σ δ → Prop
  | .source (.ask _ (.consume _ _)) => True
  | _ => False

/-- A call on the link to the source. -/
def Call.OnSource : Call σ δ → Prop
  | .source _ => True
  | _ => False

theorem Call.Connects.onSource {k : Call σ δ} (h : k.Connects) : k.OnSource := by
  cases k with
  | source => trivial
  | next | establish | send | closeBackend | pause => exact h.elim

theorem Call.Consumes.onSource {k : Call σ δ} (h : k.Consumes) : k.OnSource := by
  cases k with
  | source => trivial
  | next | establish | send | closeBackend | pause => exact h.elim

/-- The stream is lost, or a call failed that has to do with it. -/
inductive Fails : (calls σ δ).Exchange → Prop
  | unlimited (s : σ) (limit : Nat) (err : LinkError) :
      Fails ⟨.source (.ask s (.setPrefetch limit)), .error err⟩
  | unsubscribed (s : σ) (queue tag : String) (err : LinkError) :
      Fails ⟨.source (.ask s (.consume queue tag)), .error err⟩
  | lost (d : δ) (err : LinkError) : Fails ⟨.next d, .failed err⟩
  | ended (d : δ) : Fails ⟨.next d, .ended⟩
  | notAcked (s : σ) (tag : DeliveryTag) (err : LinkError) :
      Fails ⟨.source (.ask s (.ack tag)), .error err⟩
  | notNacked (s : σ) (tag : DeliveryTag) (requeue : Bool) (err : LinkError) :
      Fails ⟨.source (.ask s (.nack tag requeue)), .error err⟩

/-- The exchange that came after `pre` was with the session `s`, or with its stream. -/
inductive With (c : Settings) (pre : List (calls σ δ).Exchange) (s : σ) :
    (calls σ δ).Exchange → Prop
  | session (k : Channel.Call) (a : (Channel.calls δ).Answer k) :
      With c pre s ⟨.source (.ask s k), a⟩
  | stream {d : δ} (ho : Opened c pre s d) (a : Next) : With c pre s ⟨.next d, a⟩

/-- The session `s` was opened, and after that there was `since` and no other attempt to open
one. -/
def Joined (t : List (calls σ δ).Exchange) (s : σ) (since : List (calls σ δ).Exchange) : Prop :=
  ∃ before, t = before ++ ⟨.source .connect, .ok s⟩ :: since ∧ ∀ e ∈ since, ¬ e.call.Connects

/-- The session in use is `s`, be it the one that was there at first, and since it is there
`since` was exchanged. -/
inductive Held (old : Option σ) : List (calls σ δ).Exchange → σ → List (calls σ δ).Exchange → Prop
  | first {s : σ} {since : List (calls σ δ).Exchange} (ho : old = some s)
      (hs : ∀ e ∈ since, ¬ e.call.Connects) : Held old since s since
  | joined {t : List (calls σ δ).Exchange} {s : σ} {since : List (calls σ δ).Exchange}
      (h : Joined t s since) : Held old t s since

/-- The last thing that was asked of the source is to close the session, or whether it is
open, which it was not. -/
def Parted (s : σ) (since : List (calls σ δ).Exchange) : Prop :=
  ∃ before e after, since = before ++ e :: after ∧
    (e = ⟨.source (.isOpen s), false⟩ ∨ ∃ r, e = ⟨.source (.close s), r⟩) ∧
    ∀ e' ∈ after, ¬ e'.call.OnSource

/-- The sessions that were opened, in order. -/
def opened (t : List (calls σ δ).Exchange) : List σ :=
  t.filterMap fun e => match e with
    | ⟨.source .connect, .ok s⟩ => some s
    | _ => none

theorem mem_opened (h : ⟨.source .connect, .ok s⟩ ∈ t) : s ∈ opened t :=
  List.mem_filterMap.2 ⟨_, h, rfl⟩

theorem opened_append (t₁ t₂ : List (calls σ δ).Exchange) :
    opened (t₁ ++ t₂) = opened t₁ ++ opened t₂ :=
  List.filterMap_append

theorem Joined.mem (h : Joined t s since) : ⟨.source .connect, .ok s⟩ ∈ t := by
  obtain ⟨before, rfl, -⟩ := h
  simp

/-! ### The latest of its kind -/

/-- There is one latest element with a property. -/
theorem latest_unique {α : Type} {P : α → Prop} {l₁ l₂ l₁' l₂' : List α} {a a' : α}
    (h : l₁ ++ a :: l₂ = l₁' ++ a' :: l₂') (ha : P a) (ha' : P a') (hl : ∀ b ∈ l₂, ¬ P b)
    (hl' : ∀ b ∈ l₂', ¬ P b) : a = a' ∧ l₂ = l₂' := by
  -- where one of the two is later, it stands among what comes after the other
  rcases List.append_eq_append_iff.1 h with ⟨as, -, has⟩ | ⟨as, -, has⟩
  · cases as with
    | nil => exact ⟨(List.cons.inj has).1, (List.cons.inj has).2⟩
    | cons b as => exact absurd ha' (hl a' (by simp [(List.cons.inj has).2]))
  · cases as with
    | nil => exact ⟨(List.cons.inj has).1.symm, (List.cons.inj has).2.symm⟩
    | cons b as => exact absurd ha (hl' a (by simp [(List.cons.inj has).2]))

/-- A stream was opened on one session. -/
theorem Opened.unique {d : δ} (h : Opened c t s d) (h' : Opened c t s' d) : s = s' := by
  obtain ⟨t₁, t₂, rfl, ht⟩ := h
  obtain ⟨t₁', t₂', heq, ht'⟩ := h'
  have hlatest := latest_unique (P := fun e => e.call.Unties) heq trivial trivial ht ht'
  cases hlatest.1
  rfl

/-- There is one session in use. -/
theorem Held.unique (h : Held old t s since) (h' : Held old t s' since') :
    s = s' ∧ since = since' := by
  cases h with
  | first ho hs =>
      cases h' with
      | first ho' => exact ⟨Option.some.inj (ho.symm.trans ho'), rfl⟩
      | joined h' => exact absurd trivial (hs _ h'.mem)
  | joined h =>
      cases h' with
      | first ho' hs' => exact absurd trivial (hs' _ h.mem)
      | joined h' =>
          obtain ⟨before, rfl, hs⟩ := h
          obtain ⟨before', heq, hs'⟩ := h'
          have hlatest := latest_unique (P := fun e => e.call.Connects) heq trivial trivial hs hs'
          cases hlatest.1
          exact ⟨rfl, hlatest.2⟩

/-! ### One more exchange -/

theorem forall_mem_snoc {P : (calls σ δ).Exchange → Prop} (h : ∀ e ∈ since, P e) (he : P e) :
    ∀ e' ∈ since ++ [e], P e' := by
  intro e' he'
  rcases List.mem_append.1 he' with hm | hm
  · exact h e' hm
  · rw [List.mem_singleton.1 hm]
    exact he

theorem Joined.snoc (h : Joined t s since) (he : ¬ e.call.Connects) :
    Joined (t ++ [e]) s (since ++ [e]) := by
  obtain ⟨before, rfl, hs⟩ := h
  exact ⟨before, by simp, forall_mem_snoc hs he⟩

theorem Held.snoc (h : Held old t s since) (he : ¬ e.call.Connects) :
    Held old (t ++ [e]) s (since ++ [e]) := by
  cases h with
  | first ho hs => exact .first ho (forall_mem_snoc hs he)
  | joined h => exact .joined (h.snoc he)

/-- A session that is in use after an exchange was in use before it, or was opened by it. -/
theorem Held.of_snoc (h : Held old (t ++ [e]) s since) :
    (e = ⟨.source .connect, .ok s⟩ ∧ since = []) ∨
      ¬ e.call.Connects ∧ ∃ since', since = since' ++ [e] ∧ Held old t s since' := by
  cases h with
  | first ho hs =>
      exact .inr ⟨hs e (by simp), t, rfl, .first ho fun e' he' => hs e' (by simp [he'])⟩
  | joined h =>
      obtain ⟨before, ht, hs⟩ := h
      rcases List.eq_nil_or_concat since with rfl | ⟨since', e', rfl⟩
      · have hlast := List.append_inj' ht rfl
        exact .inl ⟨List.head_eq_of_cons_eq hlast.2, rfl⟩
      · rw [List.concat_eq_append, ← List.cons_append, ← List.append_assoc] at ht
        obtain ⟨rfl, hlast⟩ := List.append_inj' ht rfl
        obtain rfl := List.head_eq_of_cons_eq hlast
        rw [List.concat_eq_append] at hs ⊢
        exact .inr ⟨hs e (by simp), since', rfl,
          .joined ⟨before, rfl, fun e' he' => hs e' (by simp [he'])⟩⟩

theorem Parted.snoc (h : Parted s since) (he : ¬ e.call.OnSource) : Parted s (since ++ [e]) := by
  obtain ⟨before, e', after, rfl, hparts, hafter⟩ := h
  exact ⟨before, e', after ++ [e], by simp, hparts, forall_mem_snoc hafter he⟩

/-! ### What the exchanges must have been -/

/-- What became of the session in use, as far as the standing tells. -/
def Standing.Remembers (old : Option σ) (t : List (calls σ δ).Exchange) : Standing σ δ → Prop
  | .apart => ∀ s since, Held old t s since → Parted s since
  | .lapsed s => ∃ since, Held old t s since ∧ Parted s since
  | .spoiled s => ∃ since, Held old t s since
  | .joined s => ∃ since, Joined t s since ∧ ∀ e ∈ since, ¬ e.call.Consumes
  | .limited s => ∃ t' since, t = t' ++ [⟨.source (.ask s (.setPrefetch prefetch)), .ok ()⟩] ∧
      Joined t' s since ∧ ∀ e ∈ since, ¬ e.call.Consumes
  | .consuming s _ | .holding s _ _ | .judged s _ _ _ => ∃ since, Joined t s since

/-- The session in the standing is the one in use. -/
theorem held_of_remembers (h : x.Remembers old t) (hx : x.session? = some s) :
    ∃ since, Held old t s since := by
  cases x with
  | apart => cases hx
  | joined =>
      cases hx
      obtain ⟨since, hj, -⟩ := h
      exact ⟨since, .joined hj⟩
  | limited =>
      cases hx
      obtain ⟨t', since, rfl, hj, -⟩ := h
      exact ⟨_, .joined (hj.snoc id)⟩
  | consuming | holding | judged =>
      cases hx
      obtain ⟨since, hj⟩ := h
      exact ⟨since, .joined hj⟩
  | spoiled =>
      cases hx
      exact h
  | lapsed =>
      cases hx
      obtain ⟨since, hh, -⟩ := h
      exact ⟨since, hh⟩

/-- A session that failed, or is taken for failed, stays the one in use. -/
theorem remembers_spoiled (h : x.Remembers old t) (hx : x.session? = some s)
    (he : ¬ e.call.Connects) : (Standing.spoiled (δ := δ) s).Remembers old (t ++ [e]) := by
  obtain ⟨since, hh⟩ := held_of_remembers h hx
  exact ⟨_, hh.snoc he⟩

/-- After the session in use was closed there is none that would have to be. -/
theorem remembers_apart (h : x.Remembers old t) (hx : x.session? = some s)
    {r : Except LinkError Unit} :
    (Standing.apart (δ := δ)).Remembers old (t ++ [⟨.source (.close s), r⟩]) := by
  obtain ⟨since, hh⟩ := held_of_remembers h hx
  intro s' since' hh'
  obtain ⟨rfl, rfl⟩ := (hh.snoc (e := ⟨.source (.close s), r⟩) id).unique hh'
  exact ⟨since, _, [], rfl, .inr ⟨r, rfl⟩, List.forall_mem_nil _⟩

theorem remembers_joined (h : (Standing.joined s).Remembers old t) (he : ¬ e.call.Connects)
    (hc : ¬ e.call.Consumes) : (Standing.joined (δ := δ) s).Remembers old (t ++ [e]) := by
  obtain ⟨since, hj, hnone⟩ := h
  exact ⟨_, hj.snoc he, forall_mem_snoc hnone hc⟩

theorem joined_snoc (h : ∃ since, Joined t s since) (he : ¬ e.call.Connects) :
    ∃ since, Joined (t ++ [e]) s since := by
  obtain ⟨since, hj⟩ := h
  exact ⟨_, hj.snoc he⟩

/-- An exchange that is not with the source, by one who rests. -/
theorem remembers_rest (h : x.Remembers old t) (hx : x.Resting) (he : ¬ e.call.OnSource) :
    x.Remembers old (t ++ [e]) := by
  have hconnect : ¬ e.call.Connects := fun hc => he hc.onSource
  have hconsume : ¬ e.call.Consumes := fun hc => he hc.onSource
  cases hx with
  | apart =>
      intro s since hh
      rcases hh.of_snoc with ⟨rfl, -⟩ | ⟨-, since', rfl, hh'⟩
      · exact absurd trivial he
      · exact (h s since' hh').snoc he
  | joined s => exact remembers_joined h hconnect hconsume
  | consuming s d => exact joined_snoc h hconnect
  | spoiled s => exact remembers_spoiled h rfl hconnect

/-- Every step keeps what became of the session in use. -/
theorem remembers_step (x : Standing σ δ) (e : (calls σ δ).Exchange) (y : Standing σ δ)
    (t : List (calls σ δ).Exchange) (hstep : x.Step c e y) (h : x.Remembers old t) :
    y.Remembers old (t ++ [e]) := by
  cases hstep with
  | connected hx s => exact ⟨[], ⟨t, rfl, List.forall_mem_nil _⟩, List.forall_mem_nil _⟩
  | refused hx err =>
      intro s since hh
      rcases hh.of_snoc with ⟨he, -⟩ | ⟨hne, -⟩
      · cases he
      · exact absurd trivial hne
  | foundOpen s => exact remembers_joined h id id
  | foundSpoiled s => exact remembers_spoiled h rfl id
  | foundAgain s => exact remembers_spoiled h rfl id
  | foundClosed hx =>
      obtain ⟨since, hh⟩ := held_of_remembers h hx.session
      exact ⟨_, hh.snoc id, since, _, [], rfl, .inl rfl, List.forall_mem_nil _⟩
  | closed hx r => exact remembers_apart h hx.session
  | prepared s k hk r =>
      refine remembers_joined h id ?_
      cases k <;> first | exact id | exact hk.elim
  | established s r => exact remembers_joined h id id
  | limited s u =>
      obtain ⟨since, hj, hnone⟩ := h
      exact ⟨t, since, rfl, hj, hnone⟩
  | unlimited s err | unsubscribed s err => exact remembers_spoiled h rfl id
  | subscribed s d =>
      obtain ⟨t', since, rfl, hj, -⟩ := h
      exact ⟨_, (hj.snoc id).snoc id⟩
  | stopped s d => exact joined_snoc h id
  | took s d m => exact joined_snoc h id
  | lost s d err | ended s d => exact remembers_spoiled h rfl id
  | handed s d m w => exact joined_snoc h id
  | acked s d m w hd u | nacked s d m w hd u => exact joined_snoc h id
  | notAcked s d m w hd err | notNacked s d m w hd err => exact remembers_spoiled h rfl id
  | rested hx d p => exact remembers_rest h hx id
  | backendClosed hx u => exact remembers_rest h hx id

theorem remembers_first (old : Option σ) :
    (Standing.first (δ := δ) old).Remembers old [] := by
  cases old with
  | none =>
      intro s since hh
      cases hh with
      | first ho => cases ho
      | joined h => cases h.mem
  | some s => exact ⟨[], .first rfl (List.forall_mem_nil _)⟩

theorem remembers_of_path (h : Path (Standing.Step c) (.first old) t x) :
    x.Remembers old t := by
  have hremembers := h.preserves remembers_step [] (remembers_first old)
  rwa [List.nil_append] at hremembers

/-! ### What the relay asks of a session -/

/-- Whatever is asked of a session, it is the one that was opened last. -/
theorem joined_of_asks {k : Channel.Call} {a : (Channel.calls δ).Answer k}
    (hstep : x.Step c ⟨.source (.ask s k), a⟩ y) (h : x.Remembers old t) :
    ∃ since, Joined t s since := by
  cases hstep with
  | prepared | limited | unlimited =>
      obtain ⟨since, hj, -⟩ := h
      exact ⟨since, hj⟩
  | subscribed | unsubscribed =>
      obtain ⟨t', since, rfl, hj, -⟩ := h
      exact ⟨_, hj.snoc id⟩
  | acked | notAcked | nacked | notNacked => exact h

/-- A consumer is started where the limit was set. -/
theorem limited_of_consumes {queue tag : String} {a : Except LinkError δ}
    (h : x.Step c ⟨.source (.ask s (.consume queue tag)), a⟩ y) : x = .limited s := by
  cases h with
  | subscribed | unsubscribed => rfl
  | prepared _ _ hk => exact hk.elim

/-- The standing before an exchange and the one after it. -/
theorem standings_of_path {pre post : List (calls σ δ).Exchange} {z : Standing σ δ}
    (h : Path (Standing.Step c) (.first old) (pre ++ e :: post) z) :
    ∃ x y : Standing σ δ, x.Recalls c pre ∧ x.Remembers old pre ∧ x.Step c e y ∧
      Path (Standing.Step c) y post z := by
  obtain ⟨x, hpre, hrest⟩ := path_append.1 h
  cases hrest with
  | step hstep hpost =>
      exact ⟨x, _, recalls_of_path hpre, remembers_of_path hpre, hstep, hpost⟩

section Path

variable {pre post : List (calls σ δ).Exchange} {z : Standing σ δ}

/-- Two sessions that were opened one after the other are not the same. -/
theorem not_mem_of_opened (hnew : (opened (pre ++ post)).Nodup)
    (h : ⟨.source .connect, .ok s⟩ ∈ pre) :
    (⟨.source .connect, .ok s⟩ : (calls σ δ).Exchange) ∉ post := by
  rw [opened_append] at hnew
  intro hm
  exact List.disjoint_of_nodup_append hnew (mem_opened h) (mem_opened hm)

/-- A consumer is started on a session that was opened and limited, and on which nothing was
consumed in between. -/
theorem consume_follows {queue tag : String} {a : Except LinkError δ}
    (h : Path (Standing.Step c) (.first old)
      (pre ++ ⟨.source (.ask s (.consume queue tag)), a⟩ :: post) z) :
    ∃ t since, pre = t ++ [⟨.source (.ask s (.setPrefetch prefetch)), .ok ()⟩] ∧
      Joined t s since ∧ ∀ e ∈ since, ¬ e.call.Consumes := by
  obtain ⟨x, y, -, hremembers, hstep, -⟩ := standings_of_path h
  obtain rfl := limited_of_consumes hstep
  exact hremembers

/-- Nothing was consumed on a session before. -/
theorem not_consumed_before {queue tag : String} {a : Except LinkError δ}
    (hnew : (opened pre).Nodup)
    (h : Path (Standing.Step c) (.first old)
      (pre ++ ⟨.source (.ask s (.consume queue tag)), a⟩ :: post) z)
    (queue' tag' : String) (b : Except LinkError δ) :
    (⟨.source (.ask s (.consume queue' tag')), b⟩ : (calls σ δ).Exchange) ∉ pre := by
  obtain ⟨t, since, rfl, ⟨before, rfl, -⟩, hnone⟩ := consume_follows h
  intro hm
  simp only [List.mem_append, List.mem_cons, List.not_mem_nil, or_false] at hm
  rcases hm with (hm | hm | hm) | hm
  · -- the session would have been opened before that already
    obtain ⟨l₁, l₂, rfl⟩ := List.append_of_mem hm
    simp only [List.append_assoc, List.cons_append] at h hnew
    obtain ⟨t', since', rfl, hj, -⟩ := consume_follows h
    exact not_mem_of_opened hnew (List.mem_append_left _ hj.mem) (by simp)
  · cases hm
  · exact hnone _ hm trivial
  · cases hm

/-- An exchange that fails is one with the session in use, which is not used any more after
it. -/
theorem spoiled_of_fails (he : Fails e) (hstep : x.Step c e y) (hr : x.Recalls c t)
    (h : x.Remembers old t) :
    ∃ s since, y = .spoiled s ∧ Joined t s since ∧ With c t s e := by
  have hasked : ∀ s (k : Channel.Call) (a : (Channel.calls δ).Answer k),
      e = ⟨.source (.ask s k), a⟩ → y = .spoiled s →
        ∃ s since, y = .spoiled s ∧ Joined t s since ∧ With c t s e := by
    rintro s k a rfl hy
    obtain ⟨since, hj⟩ := joined_of_asks hstep h
    exact ⟨s, since, hy, hj, .session k a⟩
  cases he with
  | lost d err =>
      cases hstep with
      | lost s =>
          obtain ⟨since, hj⟩ := h
          exact ⟨s, since, rfl, hj, .stream hr _⟩
  | ended d =>
      cases hstep with
      | ended s =>
          obtain ⟨since, hj⟩ := h
          exact ⟨s, since, rfl, hj, .stream hr _⟩
  | unlimited s limit err | unsubscribed s queue tag err | notAcked s tag err
  | notNacked s tag requeue err =>
      refine hasked s _ _ rfl ?_
      cases hstep with
      | prepared _ _ hk => exact hk.elim
      | _ => rfl

/-- Something fails on a session that was opened, and whatever is asked of such a session
after that, is asked of one that was opened in between. -/
theorem reopened_of_fails (he : Fails e)
    (h : Path (Standing.Step c) (.first old) (pre ++ e :: post) z) :
    ∃ s, With c pre s e ∧ ⟨.source .connect, .ok s⟩ ∈ pre ∧
      ∀ mid k a rest, post = mid ++ ⟨.source (.ask s k), a⟩ :: rest →
        ⟨.source .connect, .ok s⟩ ∈ mid := by
  obtain ⟨x, y, hrecalls, hremembers, hstep, hpost⟩ := standings_of_path h
  obtain ⟨s, since, rfl, hj, hwith⟩ := spoiled_of_fails he hstep hrecalls hremembers
  refine ⟨s, hwith, hj.mem, ?_⟩
  rintro mid k a rest rfl
  -- from here on, as if the relay had begun with the session that failed
  have hagain : Path (Standing.Step c) (.first (some s))
      (mid ++ ⟨.source (.ask s k), a⟩ :: rest) z := hpost
  obtain ⟨x', y', -, hremembers', hstep', -⟩ := standings_of_path hagain
  obtain ⟨since', hj'⟩ := joined_of_asks hstep' hremembers'
  exact hj'.mem

/-- A session is opened where there is none that would have to be closed. -/
theorem parted_of_connects {a : Except LinkError σ}
    (h : Path (Standing.Step c) (.first old) (pre ++ ⟨.source .connect, a⟩ :: post) z)
    (hh : Held old pre s since) : Parted s since := by
  obtain ⟨x, y, -, hremembers, hstep, -⟩ := standings_of_path h
  have hvacant : x.Vacant := by
    cases hstep <;> assumption
  cases hvacant with
  | apart => exact hremembers s since hh
  | lapsed s' =>
      obtain ⟨since', hh', hparted⟩ := hremembers
      obtain ⟨rfl, rfl⟩ := hh'.unique hh
      exact hparted

end Path

theorem With.unique (h : With c t s e) (h' : With c t s' e) : s = s' := by
  cases h with
  | session => cases h'; rfl
  | stream ho =>
      cases h' with
      | stream ho' => exact ho.unique ho'

/-! ### Every run -/

/-- **A session is used for one subscription.**  A consumer is only ever started on a session
that was opened before, on which no consumer was started since then, and right after it was
limited to one delivery.  After something failed on a session, be it the stream or a call,
nothing at all is asked of it, until it is opened anew.  And when a session is opened, the
last that was heard of the one in use is that it was not open, or it was closed.  So where no
two sessions are the same, no session ever has a second consumer, and none is asked for
anything once something failed on it. -/
theorem sessions_used_once (n : Nat) (r : State σ δ)
    {q : Program (calls σ δ) (Option Finish × State σ δ)} (h : (run c n r).Leads t q) :
    (∀ pre s queue tag a post,
      t = pre ++ ⟨.source (.ask s (.consume queue tag)), a⟩ :: post →
        ∃ before since, pre = before ++ [⟨.source (.ask s (.setPrefetch 1)), .ok ()⟩] ∧
          Joined before s since ∧ ∀ e ∈ since, ¬ e.call.Consumes) ∧
    (∀ pre e post, t = pre ++ e :: post → Fails e →
      (∃ s, With c pre s e) ∧
        ∀ s, With c pre s e → ∀ mid k a rest, post = mid ++ ⟨.source (.ask s k), a⟩ :: rest →
          ⟨.source .connect, .ok s⟩ ∈ mid) ∧
    (∀ pre a post s since, t = pre ++ ⟨.source .connect, a⟩ :: post →
      Held r.source.session pre s since → Parted s since) ∧
    ((opened t).Nodup →
      (∀ pre s queue tag a post,
        t = pre ++ ⟨.source (.ask s (.consume queue tag)), a⟩ :: post →
          ∀ queue' tag' b, ⟨.source (.ask s (.consume queue' tag')), b⟩ ∉ pre) ∧
      ∀ pre e post s, t = pre ++ e :: post → Fails e → With c pre s e →
        ∀ k a, ⟨.source (.ask s k), a⟩ ∉ post) := by
  obtain ⟨z, hpath, -⟩ := standing_of_leads h
  refine ⟨?_, ?_, ?_, ?_⟩
  · rintro pre s queue tag a post rfl
    exact consume_follows hpath
  · rintro pre e post rfl he
    obtain ⟨s, hwith, -, hreopened⟩ := reopened_of_fails he hpath
    refine ⟨⟨s, hwith⟩, ?_⟩
    intro s' hwith'
    obtain rfl := hwith.unique hwith'
    exact hreopened
  · rintro pre a post s since rfl hh
    exact parted_of_connects hpath hh
  · intro hnew
    constructor
    · rintro pre s queue tag a post rfl
      have hnew' : (opened pre).Nodup := by
        rw [opened_append] at hnew
        exact (List.nodup_append.1 hnew).1
      exact not_consumed_before hnew' hpath
    · rintro pre e post s rfl he hwith k a hm
      obtain ⟨s', hwith', hpre, hreopened⟩ := reopened_of_fails he hpath
      obtain rfl := hwith.unique hwith'
      obtain ⟨mid, rest, rfl⟩ := List.append_of_mem hm
      have hmid := hreopened mid k a rest rfl
      exact not_mem_of_opened hnew hpre (by simp [hmid])

/-- After its stream was lost a relay subscribes on a second session, and asks nothing more
of the first. -/
theorem sessions_used_once_after_loss :
    let c : Settings := { queue := "reports" }
    let begun : List (calls Nat Unit).Exchange :=
      [⟨.source .connect, .ok 0⟩, ⟨.establish, .ok ()⟩, ⟨.source (.isOpen 0), true⟩,
        ⟨.source (.ask 0 (.setPrefetch 1)), .ok ()⟩,
        ⟨.source (.ask 0 (.consume c.queue c.consumerTag)), .ok ()⟩]
    let renewed : List (calls Nat Unit).Exchange :=
      [⟨.pause .zero, .elapsed⟩, ⟨.source (.isOpen 0), true⟩,
        ⟨.source (.close 0), .ok ()⟩, ⟨.source .connect, .ok 1⟩,
        ⟨.source (.ask 1 (.setPrefetch 1)), .ok ()⟩,
        ⟨.source (.ask 1 (.consume c.queue c.consumerTag)), .ok ()⟩]
    let t := begun ++ ⟨.next (), .ended⟩ :: renewed
    ∃ q, (run c 2 {}).Leads t q ∧ (opened t).Nodup ∧
      ∀ k a, ⟨.source (.ask 0 k), a⟩ ∉ renewed := by
  intro c begun renewed t
  have hrun : ∃ q, (run (σ := Nat) (δ := Unit) c 2 {}).Leads t q :=
    ⟨_, .call _ (.call _ (.call _ (.call _ (.call _ (.call _ (.call _ (.call _ (.call _
      (.call _ (.call _ (.call _ (.here _))))))))))))⟩
  obtain ⟨q, hq⟩ := hrun
  have hnew : (opened t).Nodup := by decide
  obtain ⟨-, -, -, hdistinct⟩ := sessions_used_once 2 {} hq
  obtain ⟨-, hnone⟩ := hdistinct hnew
  have hopened : Opened c begun 0 () := ⟨begun.take 4, [], rfl, List.forall_mem_nil _⟩
  exact ⟨q, hq, hnew, hnone begun _ renewed 0 rfl (.ended ()) (.stream hopened _)⟩

end QueueRelay.Relay

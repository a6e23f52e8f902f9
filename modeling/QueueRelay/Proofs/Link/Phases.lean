/-
What the phase of a link says.

A link keeps its phase beside the session that it holds, and an attempt to open a session takes
the old one away before it is known whether there will be a new one.  Whenever something that
was done with a link is over, the two agree: a connected link holds a session, and one that is
disconnected holds none.  A degraded link may or may not hold one, so its phase says something
else, that a session was opened and the link was not released since.

A link is not always told what becomes of its session, which may end at any time.  So nothing
is claimed of that, and nothing is needed: of all that is exchanged for a link only the answers
to its attempts to open a session change it, apart from what its owner says.  At most one
attempt is made at a time.  `Change` lists what can come of it, and the rest is read off that
list.

An attempt that its owner gives up before it is answered is never over.  It leaves a link that
may be connected and hold nothing, which is to be released.
-/
import Mathlib.Data.List.Induction
import QueueRelay.Proofs.Link.Own
import QueueRelay.Proofs.Link.Tenure
import QueueRelay.Proofs.Program.Yielding

namespace QueueRelay.Link

open Program

variable {C : Interface} {σ α : Type} {l l' m : Link σ} {d : Deed C} {deeds : List (Deed C)}
  {t u v : List (calls C σ).Exchange} {r : Except LinkError σ}

/-! ### Attempts -/

/-- The answer, if an exchange is an attempt to open a session. -/
def attempt? (e : (calls C σ).Exchange) : Option (Except LinkError σ) :=
  match e with
  | ⟨.connect, r⟩ => some r
  | _ => none

/-- The answers to the attempts to open a session, in order. -/
def attempts (t : List (calls C σ).Exchange) : List (Except LinkError σ) := t.filterMap attempt?

theorem attempts_append (t u : List (calls C σ).Exchange) :
    attempts (t ++ u) = attempts t ++ attempts u :=
  List.filterMap_append

/-- What opens no session makes no attempt to. -/
theorem attempts_of_idle {p : Program (calls C σ) α} {a : α} (hp : p.Only Idle)
    (h : p.Yields t a) : attempts t = [] := by
  refine List.filterMap_eq_nil_iff.2 fun e he => ?_
  have hidle := Only.of_yields hp h e he
  obtain ⟨c, a⟩ := e
  cases c with
  | connect => exact hidle.elim
  | isOpen | close | ask => rfl

/-- After an attempt to open a session was answered. -/
def answered (l : Link σ) : Except LinkError σ → Link σ
  | .ok s => l.opened s
  | .error e => l.refused e

/-! ### What is done with a link -/

/-- A link is live only while it is connected and holds a session. -/
theorem session_of_live (h : (l.isLive (C := C)).Yields t true) :
    l.phase = .connected ∧ ∃ s, l.session = some s := by
  unfold isLive at h
  split at h
  · rename_i hactive
    split at h
    · rename_i s hs
      exact ⟨Phase.isActive_iff.1 hactive, s, hs⟩
    · cases (yields_pure.1 h).2
  · cases (yields_pure.1 h).2

/-- To establish a link is one attempt, whose answer is the result. -/
theorem yields_establish (h : (l.establish (C := C)).Yields t (r, l')) :
    attempts t = [r] ∧ l' = l.answered r := by
  obtain ⟨u, v, _, rfl, hdiscard, hrest⟩ := h.of_bind
  obtain ⟨a, w, rfl, hdone⟩ := hrest.of_perform_bind
  rw [attempts_append, attempts_of_idle l.idle_discard hdiscard]
  cases a with
  | ok s =>
      obtain ⟨rfl, hr⟩ := yields_pure.1 hdone
      cases hr
      exact ⟨rfl, rfl⟩
  | error e =>
      obtain ⟨rfl, hr⟩ := yields_pure.1 hdone
      cases hr
      exact ⟨rfl, rfl⟩

/-- A link that is live is left as it is, and its session is the result.  One that is not is
established. -/
theorem yields_ensureLive (h : (l.ensureLive (C := C)).Yields t (r, l')) :
    (l.isLive (C := C)).Yields t true ∧ attempts t = [] ∧
        (∃ s, l.session = some s ∧ r = .ok s) ∧ l' = l ∨
      (∃ u, u <+: t ∧ (l.isLive (C := C)).Yields u false) ∧ attempts t = [r] ∧
        l' = l.answered r := by
  obtain ⟨u, v, live, rfl, hlive, hrest⟩ := h.of_bind
  have hnone : attempts u = [] := attempts_of_idle l.idle_isLive hlive
  cases live with
  | false =>
      obtain ⟨hattempts, hl'⟩ := yields_establish hrest
      refine .inr ⟨⟨u, List.prefix_append u v, hlive⟩, ?_, hl'⟩
      rw [attempts_append, hnone, hattempts]
      rfl
  | true =>
      obtain ⟨-, s, hs⟩ := session_of_live hlive
      rw [if_pos rfl, hs] at hrest
      obtain ⟨rfl, hr⟩ := yields_pure.1 hrest
      cases hr
      rw [List.append_nil]
      exact .inl ⟨hlive, hnone, ⟨s, hs, rfl⟩, rfl⟩

/-- What an attempt to have a live link leaves, by its result. -/
def Leaves (r : Except LinkError σ) (l : Link σ) : Prop :=
  match r with
  | .ok s => l.session = some s ∧ l.phase = .connected
  | .error _ => l.session = none ∧ l.phase ≠ .connected

theorem leaves_answered (l : Link σ) (r : Except LinkError σ) : Leaves r (l.answered r) := by
  cases r with
  | ok s => exact ⟨rfl, rfl⟩
  | error e => exact ⟨rfl, Phase.failed_ne_connected _⟩

theorem leaves_ensureLive (h : (l.ensureLive (C := C)).Yields t (r, l')) : Leaves r l' := by
  obtain ⟨hlive, -, ⟨s, hs, rfl⟩, rfl⟩ | ⟨-, -, rfl⟩ := yields_ensureLive h
  · exact ⟨hs, (session_of_live hlive).1⟩
  · exact leaves_answered l r

theorem yields_release (h : (l.release (C := C)).Yields t l') :
    attempts t = [] ∧ l' = l.released := by
  refine ⟨attempts_of_idle l.idle_release h, ?_⟩
  unfold release at h
  split at h
  · obtain ⟨a, w, rfl, hdone⟩ := h.of_perform_bind
    exact (yields_pure.1 hdone).2
  · exact (yields_pure.1 h).2

/-- What is done on the session alone leaves the link as it is. -/
theorem yields_onSession {act : σ → Program (calls C σ) α}
    (hact : ∀ s u a, (act s).Yields u a → attempts u = [])
    (h : (l.onSession act).Yields t l') : attempts t = [] ∧ l' = l := by
  unfold onSession at h
  split at h
  · obtain ⟨a, ha, rfl⟩ := yields_map.1 h
    exact ⟨hact _ _ _ ha, rfl⟩
  · obtain ⟨rfl, rfl⟩ := yields_pure.1 h
    exact ⟨rfl, rfl⟩

/-- What comes of a link that is not released, by the attempts that were made. -/
inductive Change (l : Link σ) : List (Except LinkError σ) → Link σ → Prop
  | kept : Change l [] l
  | degraded (reason : String) : Change l [] (l.degraded reason)
  | answered (r : Except LinkError σ) : Change l [r] (l.answered r)

/-- **Whatever is done with a link but to release it is one of these changes.** -/
theorem change_of_yields (hd : d ≠ .release) (h : (doing d l).Yields t l') :
    Change l (attempts t) l' := by
  cases d with
  | establish =>
      obtain ⟨⟨r, m⟩, hm, rfl⟩ := yields_map.1 h
      obtain ⟨ha, rfl⟩ := yields_establish hm
      rw [ha]
      exact .answered r
  | ensureLive =>
      obtain ⟨⟨r, m⟩, hm, rfl⟩ := yields_map.1 h
      obtain ⟨-, ha, -, rfl⟩ | ⟨-, ha, rfl⟩ := yields_ensureLive hm
      · rw [ha]
        exact .kept
      · rw [ha]
        exact .answered r
  | look =>
      obtain ⟨live, hlive, rfl⟩ := yields_map.1 h
      rw [attempts_of_idle (idle_isLive _) hlive]
      exact .kept
  | degrade reason =>
      obtain ⟨rfl, rfl⟩ := yields_pure.1 h
      exact .degraded reason
  | release => exact absurd rfl hd
  | ask c =>
      obtain ⟨ha, rfl⟩ := yields_onSession (fun s u a ha => by rw [yields_perform.1 ha]; rfl) h
      rw [ha]
      exact .kept
  | closeSession =>
      obtain ⟨ha, rfl⟩ := yields_onSession (fun s u a ha => by rw [yields_perform.1 ha]; rfl) h
      rw [ha]
      exact .kept

/-! ### What a change keeps -/

/-- The phase of a link agrees with the session that it holds. -/
structure Agrees (l : Link σ) : Prop where
  connected : l.phase = .connected → ∃ s, l.session = some s
  disconnected : l.phase = .disconnected → l.session = none

theorem agrees_released (l : Link σ) : l.released.Agrees :=
  ⟨fun h => Phase.noConfusion h, fun _ => rfl⟩

theorem Leaves.agrees (h : Leaves r l) : l.Agrees := by
  cases r with
  | ok s => exact ⟨fun _ => ⟨s, h.1⟩, fun hd => Phase.noConfusion (h.2.symm.trans hd)⟩
  | error e => exact ⟨fun hc => absurd hc h.2, fun _ => h.1⟩

theorem Change.agrees {as : List (Except LinkError σ)} (h : Change l as l') (hl : l.Agrees) :
    l'.Agrees := by
  cases h with
  | kept => exact hl
  | degraded reason =>
      exact ⟨fun h => absurd h (Phase.failed_ne_connected _),
        fun h => hl.disconnected (Phase.failed_eq_disconnected_iff.1 h)⟩
  | answered r => exact (leaves_answered l r).agrees

/-- A link that is not released is disconnected just if it was, and no session was opened. -/
theorem Change.disconnected_iff {as : List (Except LinkError σ)} (h : Change l as l') :
    l'.phase = .disconnected ↔ l.phase = .disconnected ∧ ∀ s, .ok s ∉ as := by
  cases h with
  | kept => simp
  | degraded reason => simp [Link.degraded, Phase.failed_eq_disconnected_iff]
  | answered r =>
      cases r with
      | ok s => simp [Link.answered, opened, Phase.established]
      | error e => simp [Link.answered, refused, Phase.failed_eq_disconnected_iff]

/-- A link has counted the sessions that were opened. -/
structure Counts (l : Link σ) (as : List (Except LinkError σ)) : Prop where
  connects : l.connects = as.countP Except.isOk
  reconnects : l.reconnects = as.countP Except.isOk - 1

theorem Change.counts {as bs : List (Except LinkError σ)} (h : Change l as l')
    (hl : l.Counts bs) : l'.Counts (bs ++ as) := by
  cases h with
  | kept | degraded reason =>
      rw [List.append_nil]
      exact ⟨hl.connects, hl.reconnects⟩
  | answered r =>
      have hcount : (bs ++ [r]).countP Except.isOk =
          bs.countP Except.isOk + if r.isOk then 1 else 0 := by
        rw [List.countP_append, List.countP_singleton]
      cases r with
      | error e =>
          exact ⟨hl.connects.trans hcount.symm, hl.reconnects.trans (congrArg (· - 1) hcount.symm)⟩
      | ok s =>
          have hreconnects := reconnects_opened hl.connects hl.reconnects s
          exact ⟨(congrArg (· + 1) hl.connects).trans hcount.symm,
            hreconnects.trans (congrArg (· - 1) hcount.symm)⟩

/-! ### Since the link was last released -/

/-- A session was opened in the course of some deeds, after the last one that released the
link. -/
def OpenedSince (deeds : List (Deed C)) (t : List (calls C σ).Exchange) (l : Link σ) : Prop :=
  ∃ before after u v m, deeds = before ++ after ∧ t = u ++ v ∧
    (course doing before {}).Yields u m ∧ (course doing after m).Yields v l ∧
    .release ∉ after ∧ ∃ s, .ok s ∈ attempts v

theorem OpenedSince.snoc (h : OpenedSince deeds t l) (hd : d ≠ .release)
    (hl : (doing d l).Yields u l') : OpenedSince (deeds ++ [d]) (t ++ u) l' := by
  obtain ⟨before, after, t₁, t₂, m, rfl, rfl, hbefore, hafter, hkept, s, hs⟩ := h
  refine ⟨before, after ++ [d], t₁, t₂ ++ u, m, List.append_assoc .., List.append_assoc ..,
    hbefore, yields_course_concat.2 ⟨t₂, u, l, rfl, hafter, hl⟩, ?_, s, ?_⟩
  · intro hmem
    rcases List.mem_append.1 hmem with hmem | hmem
    · exact hkept hmem
    · exact hd (List.mem_singleton.1 hmem).symm
  · rw [attempts_append]
    exact List.mem_append_left _ hs

/-- A session that is opened by the last deed was opened since. -/
theorem openedSince_last (h : (course doing deeds {}).Yields t l) (hd : d ≠ .release)
    (hl : (doing d l).Yields u l') {s : σ} (hs : .ok s ∈ attempts u) :
    OpenedSince (deeds ++ [d]) (t ++ u) l' := by
  refine ⟨deeds, [] ++ [d], t, u, l, rfl, rfl, h, ?_, ?_, s, hs⟩
  · exact yields_course_concat.2 ⟨[], u, l, rfl, .done l, hl⟩
  · intro hmem
    exact hd (List.mem_singleton.1 hmem).symm

/-- Deeds that do not release a link leave it disconnected just if it was, and none of them
opened a session. -/
theorem disconnected_course_iff {after : List (Deed C)} (hkept : .release ∉ after)
    (h : (course doing after l).Yields t l') :
    l'.phase = .disconnected ↔ l.phase = .disconnected ∧ ∀ s, .ok s ∉ attempts t := by
  induction after using List.reverseRecOn generalizing t l' with
  | nil =>
      obtain ⟨rfl, rfl⟩ := yields_pure.1 h
      simp [attempts]
  | append_singleton after d ih =>
      obtain ⟨u, v, m, rfl, hu, hv⟩ := yields_course_concat.1 h
      have hbefore := ih (fun hmem => hkept (List.mem_append_left _ hmem)) hu
      have hd : d ≠ .release := by
        rintro rfl
        exact hkept (List.mem_append_right _ List.mem_cons_self)
      rw [(change_of_yields hd hv).disconnected_iff, hbefore, attempts_append]
      simp [forall_and, and_assoc]

theorem OpenedSince.not_disconnected (h : OpenedSince deeds t l) : l.phase ≠ .disconnected := by
  obtain ⟨before, after, u, v, m, -, -, -, hafter, hkept, s, hs⟩ := h
  intro hdisconnected
  exact ((disconnected_course_iff hkept hafter).1 hdisconnected).2 s hs

/-! ### Whatever is done with a link -/

/-- What holds of a link after some deeds, by what was exchanged for them. -/
structure Kept (deeds : List (Deed C)) (t : List (calls C σ).Exchange) (l : Link σ) : Prop where
  agrees : l.Agrees
  counts : l.Counts (attempts t)
  opened : l.phase ≠ .disconnected → OpenedSince deeds t l

theorem Kept.snoc (h : Kept deeds t l) (ht : (course doing deeds {}).Yields t l)
    (hl : (doing d l).Yields u l') : Kept (deeds ++ [d]) (t ++ u) l' := by
  by_cases hd : d = .release
  · subst hd
    obtain ⟨hnone, rfl⟩ := yields_release hl
    refine ⟨agrees_released l, ?_, fun hne => absurd rfl hne⟩
    rw [attempts_append, hnone, List.append_nil]
    exact ⟨h.counts.connects, h.counts.reconnects⟩
  · have hchange := change_of_yields hd hl
    refine ⟨hchange.agrees h.agrees, ?_, fun hne => ?_⟩
    · rw [attempts_append]
      exact hchange.counts h.counts
    · by_cases hbefore : l.phase = .disconnected
      · -- it was disconnected, so it is this deed that opened a session
        by_contra hnot
        refine hne (hchange.disconnected_iff.2 ⟨hbefore, fun s hs => hnot ?_⟩)
        exact openedSince_last ht hd hl hs
      · exact (h.opened hbefore).snoc hd hl

theorem kept_course (h : (course doing deeds ({} : Link σ)).Yields t l) : Kept deeds t l := by
  induction deeds using List.reverseRecOn generalizing t l with
  | nil =>
      obtain ⟨rfl, rfl⟩ := yields_pure.1 h
      exact ⟨agrees_released {}, ⟨rfl, rfl⟩, fun hne => absurd rfl hne⟩
  | append_singleton deeds d ih =>
      obtain ⟨u, v, m, rfl, hu, hv⟩ := yields_course_concat.1 h
      exact (ih hu).snoc hu hv

/-- **The phase of a link agrees with the session that it holds and with what was opened since
it was last released.**  An attempt that fails leaves no session, and one that works leaves the
link connected.  A live link makes no attempt and any other makes one, and the sessions that
were opened are counted. -/
theorem phase_agrees (h : (course doing deeds ({} : Link σ)).Yields t l) :
    (l.phase = .connected → ∃ s, l.session = some s) ∧
      (l.phase = .disconnected → l.session = none) ∧
      (l.phase = .degraded → OpenedSince deeds t l) ∧
      (OpenedSince deeds t l → l.phase ≠ .disconnected) ∧
      (∀ u r l', (l.establish (C := C)).Yields u (r, l') ∨
          (l.ensureLive (C := C)).Yields u (r, l') → Leaves r l') ∧
      (∀ u r l', (l.ensureLive (C := C)).Yields u (r, l') →
        (l.isLive (C := C)).Yields u true ∧ attempts u = [] ∧
            (∃ s, l.session = some s ∧ r = .ok s) ∨
          (∃ v, v <+: u ∧ (l.isLive (C := C)).Yields v false) ∧ attempts u = [r]) ∧
      l.reconnects = (attempts t).countP Except.isOk - 1 := by
  have hkept := kept_course h
  refine ⟨hkept.agrees.connected, hkept.agrees.disconnected, fun hd => ?_,
    OpenedSince.not_disconnected, ?_, ?_, hkept.counts.reconnects⟩
  · exact hkept.opened (by simp [hd])
  · rintro u r l' (hu | hu)
    · obtain ⟨-, rfl⟩ := yields_establish hu
      exact leaves_answered l r
    · exact leaves_ensureLive hu
  · intro u r l' hu
    obtain ⟨hlive, hnone, hs, -⟩ | ⟨hlive, hone, -⟩ := yields_ensureLive hu
    · exact .inl ⟨hlive, hnone, hs⟩
    · exact .inr ⟨hlive, hone⟩

/-- A link is established, released, established again and told of a failure, and the attempt to
replace its session is refused.  It is degraded and holds nothing. -/
theorem phase_agrees_while_degraded :
    let deeds : List (Deed (Channel.calls Unit)) :=
      [.establish, .release, .establish, .degrade "heartbeat missed", .ensureLive]
    let t : List (BrokerLink Nat Unit).Exchange :=
      [⟨.connect, .ok 0⟩, ⟨.close 0, .ok ()⟩, ⟨.connect, .ok 1⟩, ⟨.isOpen 1, false⟩,
        ⟨.connect, .error (.connectionFailed "connection refused")⟩]
    ∃ l, (course doing deeds ({} : Link Nat)).Yields t l ∧ l.phase = .degraded ∧
      l.session = none ∧ OpenedSince deeds t l ∧ l.reconnects = 1 := by
  intro deeds t
  have hrun : ∃ l, (course doing deeds ({} : Link Nat)).Yields t l ∧ l.phase = .degraded ∧
      l.session = none :=
    ⟨_, .call _ (.call _ (.call _ (.call _ (.call _ (.done _))))), rfl, rfl⟩
  obtain ⟨l, hl, hphase, hsession⟩ := hrun
  obtain ⟨-, -, hopened, -, -, -, hcount⟩ := phase_agrees hl
  exact ⟨l, hl, hphase, hsession, hopened hphase, hcount⟩

end QueueRelay.Link

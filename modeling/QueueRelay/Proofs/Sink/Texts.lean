/-
What a sink asks of the cloud services.

The services carry text, so a payload is either the bytes of a text or it cannot be handed
over at all.  Which of the two it is, is found out before anything else is.  A payload that is
no text is refused with an error that does not speak of the link, so that nothing is
established for it and nothing is counted: the sink is what it was.

A payload that is a text is handed over as it is.  The call is made of that text and of the
route the sink was made with, and no part of sending changes the route.  How often the call is
made follows from how often a message is transmitted: at most one call is made for an attempt,
and the attempt is accepted just if the call is.
-/
import QueueRelay.Proofs.Link.Own
import QueueRelay.Proofs.Sink.Attempts
import QueueRelay.Proofs.Sink.Counters
import QueueRelay.Proofs.Url.Encoding

namespace QueueRelay

open Program

/-! ### Calls on a session -/

namespace Link

variable {C : Interface} {σ α : Type} {t u : List (calls C σ).Exchange}

/-- The call that is made on a session in an exchange, with its answer. -/
def asked? (e : (calls C σ).Exchange) : Option C.Exchange :=
  match e with
  | ⟨.ask _ c, a⟩ => some ⟨c, a⟩
  | _ => none

/-- The calls that are made on sessions, with their answers. -/
def asked (t : List (calls C σ).Exchange) : List C.Exchange := t.filterMap asked?

theorem asked_append : asked (t ++ u) = asked t ++ asked u := List.filterMap_append

theorem asked_eq_nil (h : ∀ e ∈ t, Own e.call) : asked t = [] := by
  refine List.filterMap_eq_nil_iff.2 fun e he => ?_
  obtain ⟨c, a⟩ := e
  cases c with
  | connect | isOpen | close => rfl
  | ask => exact (h _ he).elim

end Link

namespace Sink

variable {P σ : Type} {C : Interface} {s s' : Sink P σ} {r : Except LinkError Unit}
  {t : List (Link.calls C σ).Exchange}

/-- To establish a sink makes no call on a session, and leaves it its place. -/
theorem asked_establish (h : s.establish.Yields t (r, s')) :
    Link.asked t = [] ∧ s'.place = s.place := by
  obtain ⟨u, v, ⟨a, l⟩, rfl, hu, hdone⟩ := h.of_bind
  obtain ⟨rfl, heq⟩ := yields_pure.1 hdone
  cases heq
  rw [List.append_nil]
  exact ⟨Link.asked_eq_nil (s.link.only_establish.of_yields hu), rfl⟩

theorem asked_close (h : s.close.Yields t s') : Link.asked t = [] ∧ s'.place = s.place := by
  obtain ⟨u, v, l, rfl, hu, hdone⟩ := h.of_bind
  obtain ⟨rfl, rfl⟩ := yields_pure.1 hdone
  rw [List.append_nil]
  exact ⟨Link.asked_eq_nil (s.link.only_release.of_yields hu), rfl⟩

/-- What is done over a live link follows a look at the link; over another nothing is done. -/
theorem overLiveLink_of_yields
    {act : σ → Program (Link.calls C σ) (Except LinkError Unit × Sink P σ)}
    (h : (s.overLiveLink act).Yields t (r, s')) :
    ∃ u v, t = u ++ v ∧ Link.asked u = [] ∧
      ((∃ session, (act session).Yields v (r, s')) ∨ v = [] ∧ r = .error .closed ∧ s' = s) := by
  obtain ⟨u, v, live, rfl, hu, hrest⟩ := h.of_bind
  refine ⟨u, v, rfl, Link.asked_eq_nil (s.link.only_isLive.of_yields hu), ?_⟩
  split at hrest
  · split at hrest
    · exact .inl ⟨_, hrest⟩
    · obtain ⟨rfl, heq⟩ := yields_pure.1 hrest
      cases heq
      exact .inr ⟨rfl, rfl, rfl⟩
  · obtain ⟨rfl, heq⟩ := yields_pure.1 hrest
    cases heq
    exact .inr ⟨rfl, rfl, rfl⟩

end Sink

/-! ### Payloads and texts -/

namespace Message

variable {m : Message} {body : String}

theorem text?_eq_some_iff : m.text? = some body ↔ body.toUTF8 = m.payload :=
  Url.fromUTF8?_eq_some_iff

theorem text?_eq_none_iff : m.text? = none ↔ ¬ m.payload.IsValidUTF8 := by
  refine dite_eq_right_iff.trans ⟨fun h hv => ?_, fun h hv => absurd hv h⟩
  cases h hv

end Message

/-! ### Attempts -/

namespace Sink

variable {m : Message} {u : List Attempt.calls.Exchange}

/-- An attempt to transmit. -/
def transmits (e : Attempt.calls.Exchange) : Bool :=
  match e with
  | ⟨.transmit _, _⟩ => true
  | _ => false

/-- An attempt to transmit that is accepted. -/
def lands (e : Attempt.calls.Exchange) : Bool :=
  match e with
  | ⟨.transmit _, .ok _⟩ => true
  | _ => false

theorem Answers.transmits_le (r : Answers) (m : Message) :
    (r.exchanges m).countP transmits ≤ 2 := by
  obtain ⟨first, between, second⟩ := r
  cases between <;> cases second <;> simp [exchanges, transmits, List.countP_cons]

theorem Answers.lands_eq (r : Answers) (m : Message) :
    (r.exchanges m).countP lands = r.landings := by
  obtain ⟨first, between, second⟩ := r
  cases first <;> cases between <;> rcases second with _ | _ | _ <;>
    simp [exchanges, landings, lands, List.countP_cons]

end Sink

/-! ### A sink for the cloud services -/

namespace Cloud

/-- `route.HandsOver body c` holds when `c` hands a text to the place of the route, by the
operation for it, with the origin of the route. -/
inductive Route.HandsOver (route : Route) (body : String) : Call → Prop
  | toQueue {url : String} (h : route.place = .queue url) :
      HandsOver route body (.sendToQueue url body route.origin)
  | toTopic {arn : String} (h : route.place = .topic arn) :
      HandsOver route body (.publishToTopic arn body route.origin)

theorem Route.handsOver_handOver (route : Route) (body : String) :
    route.HandsOver body (route.handOver body) := by
  unfold Route.handOver
  cases h : route.place with
  | queue url => exact .toQueue h
  | topic arn => exact .toTopic h

end Cloud

namespace CloudSink

open Sink

variable {σ : Type} {s s' : CloudSink σ} {m : Message} {body : String} {o : Outcome}
  {r : Except LinkError Unit} {t : List (Link.calls Cloud.calls σ).Exchange}
  {u : List Attempt.calls.Exchange}

/-! ### A payload that is no text -/

theorem transmit_not_text (h : m.text? = none) (s : CloudSink σ) :
    transmit m s = pure (.error (s.notText m), s) := by
  unfold transmit
  rw [h]

/-- A payload that is no text is refused without a call, and nothing comes of it. -/
theorem send_not_text (h : m.text? = none) (s : CloudSink σ) :
    send m s = pure (.unknownFailure (s.notText m).message, s) := by
  unfold send Sink.sendThrough
  show (transmit m s >>= _) = _
  rw [transmit_not_text h]
  rfl

/-! ### A payload that is a text -/

theorem settle_fst (s : CloudSink σ) (a : Except LinkError Unit) : (s.settle a).1 = a := by
  cases a <;> rfl

theorem place_settle (s : CloudSink σ) (a : Except LinkError Unit) :
    (s.settle a).2.place = s.place := by
  cases a with
  | ok v => rfl
  | error e =>
      show ((if e.isConnection then s.degraded e else s).rejected e).place = s.place
      split <;> rfl

theorem transmit_text (h : m.text? = some body) (s : CloudSink σ) :
    transmit m s = s.overLiveLink fun session => do
      return s.settle (← Link.ask (C := Cloud.calls) session (s.place.handOver body)) := by
  unfold transmit
  rw [h]

/-- A transmission makes the call of its text and comes to its answer, or makes no call and
fails. -/
theorem asked_transmit (hm : m.text? = some body) (h : (transmit m s).Yields t (r, s')) :
    s'.place = s.place ∧ (Link.asked t = [⟨s.place.handOver body, r⟩] ∨
      Link.asked t = [] ∧ r = .error .closed) := by
  rw [transmit_text hm] at h
  obtain ⟨u, v, rfl, hu, ⟨session, hact⟩ | ⟨rfl, rfl, rfl⟩⟩ := overLiveLink_of_yields h
  · obtain ⟨a, w, rfl, hdone⟩ := hact.of_perform_bind
    obtain ⟨rfl, heq⟩ := yields_pure.1 hdone
    have hr : r = a := (congrArg Prod.fst heq).trans (settle_fst s a)
    have hs : s' = (s.settle a).2 := congrArg Prod.snd heq
    subst hr
    rw [hs, Link.asked_append, hu]
    exact ⟨place_settle s r, .inl rfl⟩
  · rw [List.append_nil]
    exact ⟨rfl, .inr ⟨hu, rfl⟩⟩

/-- The services accept what is asked. -/
def accepts (e : Cloud.calls.Exchange) : Bool := e.answer.isOk

/-- What is asked while a message is attempted to be handed over: no more calls than attempts
to transmit it, each of its text, and accepted only where the attempt is. -/
theorem asked_of_carried (hm : m.text? = some body)
    (h : Carried (carryOut Sink.establish transmit) s u t s')
    (hu : ∀ e ∈ u, e.call = .establish ∨ e.call = .transmit m) :
    s'.place = s.place ∧ (∀ e ∈ Link.asked t, s.place.HandsOver body e.call) ∧
      (Link.asked t).length ≤ u.countP transmits ∧
      (Link.asked t).countP accepts ≤ u.countP lands := by
  induction h with
  | here s => exact ⟨rfl, nofun, Nat.le_refl _, Nat.le_refl _⟩
  | @step s s₁ s' c a u t t' hstep _ ih =>
      obtain ⟨hc, hu⟩ := List.forall_mem_cons.1 hu
      obtain ⟨hplace, hcalls, hlength, hcount⟩ := ih hu
      rw [Link.asked_append]
      rcases hc with rfl | rfl
      · obtain ⟨hnil, hs₁⟩ := asked_establish hstep
        rw [hnil, ← hs₁]
        exact ⟨hplace, hcalls, hlength, hcount⟩
      · obtain ⟨hs₁, hone | ⟨hnil, rfl⟩⟩ := asked_transmit hm hstep
        · rw [hone, ← hs₁]
          refine ⟨hplace, ?_, ?_, ?_⟩
          · refine List.forall_mem_cons.2 ⟨?_, hcalls⟩
            exact Cloud.Route.handsOver_handOver _ _
          · simpa [transmits, List.countP_cons] using hlength
          · cases a <;>
              simpa [accepts, lands, List.countP_cons, Except.isOk, Except.toBool] using hcount
        · rw [hnil, ← hs₁]
          refine ⟨hplace, hcalls, ?_, ?_⟩
          · simpa [transmits, List.countP_cons] using Nat.le_succ_of_le hlength
          · simpa [lands, List.countP_cons] using hcount

/-- What comes of sending a message over a route: the exchanges, the outcome and the sink
after it. -/
structure Handed (route : Cloud.Route) (m : Message) (s : CloudSink σ)
    (t : List (Link.calls Cloud.calls σ).Exchange) (o : Outcome) (s' : CloudSink σ) : Prop where
  /-- What is no text is refused: nothing is exchanged and nothing changes. -/
  refused : ¬ m.payload.IsValidUTF8 → t = [] ∧ s' = s ∧ ∃ reason, o = .unknownFailure reason
  /-- What is asked on a session is asked of the very bytes of the payload. -/
  exact : ∀ e ∈ Link.asked t, ∃ body : String, body.toUTF8 = m.payload ∧
    route.HandsOver body e.call
  twice : (Link.asked t).length ≤ 2
  once : (Link.asked t).countP accepts ≤ 1

theorem handed_of_yields (h : (send m s).Yields t (o, s')) :
    s'.place = s.place ∧ Handed s.place m s t o s' := by
  cases hm : m.text? with
  | none =>
      rw [send_not_text hm] at h
      obtain ⟨rfl, heq⟩ := yields_pure.1 h
      cases heq
      exact ⟨rfl, fun _ => ⟨rfl, rfl, _, rfl⟩, nofun, Nat.zero_le _, Nat.zero_le _⟩
  | some body =>
      obtain ⟨u, hsends, hcarried⟩ := yields_sendThrough_iff.1 h
      obtain ⟨r, rfl, hjudged⟩ := hsends.judged
      have hcalls : ∀ e ∈ r.exchanges m, e.call = .establish ∨ e.call = .transmit m := by
        obtain ⟨first, between, second⟩ := r
        cases between <;> cases second <;> simp [Answers.exchanges]
      obtain ⟨hplace, hexact, hlength, hcount⟩ := asked_of_carried hm hcarried hcalls
      refine ⟨hplace, ?_, ?_, hlength.trans (r.transmits_le m), ?_⟩
      · intro hinvalid
        rw [Message.text?_eq_none_iff.2 hinvalid] at hm
        cases hm
      · intro e he
        exact ⟨body, Message.text?_eq_some_iff.1 hm, hexact e he⟩
      · rw [r.lands_eq m] at hcount
        exact hcount.trans hjudged.at_most_once

/-! ### A sink at work -/

variable {d : Deed} {deeds : List Deed} {done done' : List Outcome}

/-- Whatever is done with a sink, it asks nothing on a session but to hand a text to its place,
which it keeps. -/
theorem asked_doing (h : (doing transmit send d (s, done)).Yields t (s', done')) :
    s'.place = s.place ∧ ∀ e ∈ Link.asked t, ∃ body, s.place.HandsOver body e.call := by
  cases d with
  | establish =>
      obtain ⟨⟨r, s₁⟩, hrun, heq⟩ := yields_map.1 h
      cases heq
      obtain ⟨hnil, hplace⟩ := asked_establish hrun
      rw [hnil]
      exact ⟨hplace, nofun⟩
  | close =>
      obtain ⟨s₁, hrun, heq⟩ := yields_map.1 h
      cases heq
      obtain ⟨hnil, hplace⟩ := asked_close hrun
      rw [hnil]
      exact ⟨hplace, nofun⟩
  | send m =>
      obtain ⟨⟨o, s₁⟩, hrun, heq⟩ := yields_map.1 h
      cases heq
      obtain ⟨hplace, hhanded⟩ := handed_of_yields hrun
      refine ⟨hplace, fun e he => ?_⟩
      obtain ⟨body, -, hover⟩ := hhanded.exact e he
      exact ⟨body, hover⟩
  | transmit m =>
      obtain ⟨⟨r, s₁⟩, hrun, heq⟩ := yields_map.1 h
      cases heq
      cases hm : m.text? with
      | none =>
          rw [transmit_not_text hm] at hrun
          obtain ⟨rfl, heq⟩ := yields_pure.1 hrun
          cases heq
          exact ⟨rfl, nofun⟩
      | some body =>
          obtain ⟨hplace, hone | ⟨hnil, -⟩⟩ := asked_transmit hm hrun
          · rw [hone]
            refine ⟨hplace, fun e he => ⟨body, ?_⟩⟩
            rw [List.mem_singleton.1 he]
            exact Cloud.Route.handsOver_handOver _ _
          · rw [hnil]
            exact ⟨hplace, nofun⟩

theorem asked_course (h : (course (doing transmit send) deeds (s, done)).Yields t (s', done')) :
    s'.place = s.place ∧ ∀ e ∈ Link.asked t, ∃ body, s.place.HandsOver body e.call := by
  induction deeds generalizing s done t with
  | nil =>
      obtain ⟨rfl, heq⟩ := yields_pure.1 h
      cases heq
      exact ⟨rfl, nofun⟩
  | cons d deeds ih =>
      rw [course_cons] at h
      obtain ⟨u, v, ⟨s₁, done₁⟩, rfl, hfirst, hrest⟩ := h.of_bind
      obtain ⟨hplace, hcalls⟩ := asked_doing hfirst
      obtain ⟨hplace', hcalls'⟩ := ih hrest
      rw [hplace] at hplace' hcalls'
      refine ⟨hplace', fun e he => ?_⟩
      rw [Link.asked_append] at he
      exact (List.mem_append.1 he).elim (hcalls e) (hcalls' e)

/-! ### The route of a sink -/

/-- The place that a target selects, out of its two. -/
inductive Selects (target : CloudTarget) : Place → Prop
  | queue {url : String} (hq : target.useQueue = true) (h : target.queueUrl = some url) :
      Selects target (.queue url)
  | topic {arn : String} (ht : target.useQueue = false) (h : target.topicArn = some arn) :
      Selects target (.topic arn)

theorem eq_some_of_given {value : Option String} {name : String}
    (h : Place.given? value = some name) : value = some name := by
  cases value with
  | none => cases h
  | some v =>
      simp only [Place.given?] at h
      split at h
      · cases h
      · exact h

theorem selects_of_ofCloudTarget {target : CloudTarget} {place : Place}
    (h : Place.ofCloudTarget target = .ok place) : Selects target place := by
  unfold Place.ofCloudTarget at h
  split at h
  · next hq =>
      split at h
      · next url hu =>
          cases h
          exact .queue hq (eq_some_of_given hu)
      · cases h
  · next hq =>
      split at h
      · next arn ha =>
          cases h
          exact .topic (Bool.eq_false_iff.2 hq) (eq_some_of_given ha)
      · cases h

/-- A sink that was made for a target has its origin and the place that it selects. -/
theorem route_of_ofTarget {name : String} {target : CloudTarget}
    (h : ofTarget name target = .ok s) :
    s.place.origin = target.origin ∧ Selects target s.place.place := by
  unfold ofTarget at h
  cases hp : Place.ofCloudTarget target with
  | error e =>
      rw [hp] at h
      cases h
  | ok place =>
      rw [hp] at h
      cases h
      exact ⟨rfl, selects_of_ofCloudTarget hp⟩

/-- **A cloud service is handed the very text of a message, over the route that the sink was
made with.**  Whatever is done with a sink, all it asks on a session is to hand a text to the
place of its route, with the origin of the route; and a sink that was made for a target has the
route of the target.  A message that is sent in the course of it is handed over as it is, at
most twice, and accepted at most once; one that is no text is refused without a word to anyone,
and leaves the sink as it was. -/
theorem texts_handed_over {s s' : CloudSink σ}
    (h : (course (doing transmit send) deeds (s, [])).Yields t (s', done)) :
    (∀ e ∈ Link.asked t, ∃ body, s.place.HandsOver body e.call) ∧
      (∀ name target, ofTarget name target = .ok s →
        s.place.origin = target.origin ∧ Selects target s.place.place) ∧
      ∀ before m after, deeds = before ++ .send m :: after →
        ∃ t₁ t₂ t₃ s₁ s₂ outcomes o, t = t₁ ++ t₂ ++ t₃ ∧
          (course (doing transmit send) before (s, [])).Yields t₁ (s₁, outcomes) ∧
          (send m s₁).Yields t₂ (o, s₂) ∧ Handed s.place m s₁ t₂ o s₂ ∧
          (course (doing transmit send) after (s₂, outcomes ++ [o])).Yields t₃ (s', done) := by
  refine ⟨(asked_course h).2, fun name target => route_of_ofTarget, ?_⟩
  rintro before m after rfl
  rw [course_append] at h
  obtain ⟨t₁, rest, ⟨s₁, outcomes⟩, rfl, hbefore, hrest⟩ := h.of_bind
  rw [course_cons] at hrest
  obtain ⟨t₂, t₃, r, rfl, hsend, hafter⟩ := hrest.of_bind
  obtain ⟨⟨o, s₂⟩, hrun, rfl⟩ := yields_map.1 hsend
  obtain ⟨-, hhanded⟩ := handed_of_yields hrun
  rw [(asked_course hbefore).1] at hhanded
  exact ⟨t₁, t₂, t₃, s₁, s₂, outcomes, o, (List.append_assoc _ _ _).symm, hbefore, hrun, hhanded,
    hafter⟩

/-- A payload in an overlong form is refused before the sink was ever established; a text is
handed over in the second attempt, for which the sink is. -/
theorem texts_handed_over_after_refusal :
    let bad : Message := { payload := ⟨#[0xC0, 0xAF]⟩, tag := ⟨1⟩ }
    let good : Message := { payload := ⟨#[0xC3, 0xA9]⟩, tag := ⟨2⟩ }
    let route : Cloud.Route := ⟨.queue "jobs", "relay"⟩
    let made : CloudSink Nat := ofRoute "k" "d" route
    let t : List (Link.calls Cloud.calls Nat).Exchange :=
      [⟨.connect, .ok 0⟩, ⟨.isOpen 0, true⟩, ⟨.ask 0 (.sendToQueue "jobs" "é" "relay"), .ok ()⟩]
    ¬ bad.payload.IsValidUTF8 ∧
      (∃ s' refusal, (course (doing transmit send) [.send bad, .send good] (made, [])).Yields t
        (s', [refusal, .delivered])) ∧
      ∃ t₁ t₂ t₃ s₁ s₂ o, t = t₁ ++ t₂ ++ t₃ ∧ Handed route good s₁ t₂ o s₂ := by
  intro bad good route made t
  have hbad : bad.text? = none := by decide
  have hgood : good.text? = some "é" := by decide
  let opened : CloudSink Nat := { made with link := made.link.opened 0 }
  -- What a payload reads as is rewritten at each step: reading bytes does not unfold here.
  have hrefused : (send bad made).Yields [] (.unknownFailure (made.notText bad).message, made) := by
    rw [send_not_text hbad]
    exact .done _
  have hclosed : (transmit good made).Yields [] (.error .closed, made) := by
    rw [transmit_text hgood]
    exact .done _
  have hopened : (Sink.establish (C := Cloud.calls) made).Yields [⟨.connect, .ok 0⟩]
      (.ok (), opened) := .call _ (.done _)
  have hagain : (transmit good opened).Yields
      [⟨.isOpen 0, true⟩, ⟨.ask 0 (.sendToQueue "jobs" "é" "relay"), .ok ()⟩]
      (.ok (), opened.accepted) := by
    rw [transmit_text hgood]
    exact .call _ (.call _ (.done _))
  have hcarried : Carried (carryOut Sink.establish transmit) made
      [⟨.transmit good, .error .closed⟩, ⟨.establish, .ok ()⟩, ⟨.transmit good, .ok ()⟩]
      ([] ++ ([⟨.connect, .ok 0⟩] ++
        ([⟨.isOpen 0, true⟩, ⟨.ask 0 (.sendToQueue "jobs" "é" "relay"), .ok ()⟩] ++ [])))
      opened.accepted :=
    .step hclosed (.step hopened (.step hagain (.here _)))
  have hdelivered : (send good made).Yields t (.delivered, opened.accepted) :=
    yields_sendThrough_iff.2 ⟨_, .again rfl () (.ok ()), hcarried⟩
  have hrun : (course (doing transmit send) [.send bad, .send good] (made, [])).Yields t
      (opened.accepted, [.unknownFailure (made.notText bad).message, .delivered]) :=
    yields_bind.2 ⟨[], t, _, rfl, yields_map.2 ⟨_, hrefused, rfl⟩,
      yields_bind.2 ⟨t, [], _, rfl, yields_map.2 ⟨_, hdelivered, rfl⟩, .done _⟩⟩
  obtain ⟨-, -, hsends⟩ := texts_handed_over hrun
  obtain ⟨t₁, t₂, t₃, s₁, s₂, -, o, ht, -, -, hhanded, -⟩ := hsends [.send bad] good [] rfl
  exact ⟨Message.text?_eq_none_iff.1 hbad, ⟨_, _, hrun⟩, t₁, t₂, t₃, s₁, s₂, o, ht, hhanded⟩

end CloudSink

end QueueRelay

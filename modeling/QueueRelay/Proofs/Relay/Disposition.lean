/-
Every message is disposed of once, where it came from.

Since a relay keeps to the steps of its standing, it is enough to look at the steps.  What
the exchanges so far must have been can be read off the standing: while a message is in
hand it was the last thing to come, and the stream it came from was opened on the session
in the standing, with no connect, close or consume since then.  `Recalls` says this, and
every step keeps it.

That nothing is left out is the other half.  What remains of a relay that holds a message
can only begin with handing it over, and after that only with the one call that disposes
of it, because the steps from these two standings allow nothing else.
-/
import QueueRelay.Proofs.Relay.Course

namespace QueueRelay.Relay

open Program

variable {σ δ : Type} {c : Settings}

/-- A call after which a stream that was open is no longer the latest of an open session. -/
def Call.Unties : Call σ δ → Prop
  | .source .connect | .source (.close _) | .source (.ask _ (.consume _ _)) => True
  | _ => False

/-- A call that disposes of a delivery. -/
def Call.Disposes : Call σ δ → Prop
  | .source (.ask _ (.ack _)) | .source (.ask _ (.nack _ _)) => True
  | _ => False

/-- The stream `d` was opened on the session `s`, and nothing was connected, closed or
consumed since then. -/
def Opened (c : Settings) (t : List (calls σ δ).Exchange) (s : σ) (d : δ) : Prop :=
  ∃ t₁ t₂, t = t₁ ++ ⟨.source (.ask s (.consume c.queue c.consumerTag)), .ok d⟩ :: t₂ ∧
    ∀ e ∈ t₂, ¬ e.call.Unties

/-- The message `m` is handed over, then disposed of on `s` as the backend's word wants it,
as far as the exchanges `t` after it go; `q` is what remains after them. -/
inductive Disposed {α : Type} (s : σ) (m : Message) (q : Program (calls σ δ) α) :
    List (calls σ δ).Exchange → Prop
  | held (hq : q.Asks (.send m)) : Disposed s m q []
  | judged (h : Handed) (hq : q.Asks (.source (.ask s (disposition m h)))) :
      Disposed s m q [⟨.send m, h⟩]
  | disposed (h : Handed) (e : (calls σ δ).Exchange)
      (he : e.call = .source (.ask s (disposition m h))) (rest : List (calls σ δ).Exchange) :
      Disposed s m q (⟨.send m, h⟩ :: e :: rest)

/-! ### What the exchanges must have been -/

theorem Opened.snoc {t : List (calls σ δ).Exchange} {s : σ} {d : δ} (h : Opened c t s d)
    (e : (calls σ δ).Exchange) (he : ¬ e.call.Unties) : Opened c (t ++ [e]) s d := by
  obtain ⟨t₁, t₂, rfl, ht⟩ := h
  refine ⟨t₁, t₂ ++ [e], ?_, ?_⟩
  · rw [List.append_assoc, List.cons_append]
  · intro e' he'
    rcases List.mem_append.1 he' with hm | hm
    · exact ht e' hm
    · rw [List.mem_singleton.1 hm]
      exact he

/-- What the exchanges so far were, as far as the standing tells. -/
def Standing.Recalls (c : Settings) :
    Standing σ δ → List (calls σ δ).Exchange → Prop
  | .consuming s d, t => Opened c t s d
  | .holding s d m, t => ∃ pre, t = pre ++ [⟨.next d, .message m⟩] ∧ Opened c pre s d
  | .judged s d m h, t =>
    ∃ pre, t = pre ++ [⟨.next d, .message m⟩, ⟨.send m, h⟩] ∧ Opened c pre s d
  | _, _ => True

/-- A message that was disposed of leaves its stream as it was. -/
theorem opened_of_disposed {pre : List (calls σ δ).Exchange} {s : σ} {d : δ} {m : Message}
    {h : Handed} {e : (calls σ δ).Exchange} (ho : Opened c pre s d) (he : ¬ e.call.Unties) :
    Opened c (pre ++ [⟨.next d, .message m⟩, ⟨.send m, h⟩] ++ [e]) s d := by
  have hmessage : Opened c (pre ++ [⟨.next d, .message m⟩]) s d := ho.snoc _ id
  have hword : Opened c (pre ++ [⟨.next d, .message m⟩] ++ [⟨.send m, h⟩]) s d :=
    hmessage.snoc _ id
  rw [List.append_assoc] at hword
  exact hword.snoc e he

/-- Every step keeps what the exchanges must have been. -/
theorem recalls_step (x : Standing σ δ) (e : (calls σ δ).Exchange) (y : Standing σ δ)
    (t : List (calls σ δ).Exchange) (hstep : x.Step c e y) (h : x.Recalls c t) :
    y.Recalls c (t ++ [e]) := by
  cases hstep with
  | connected | refused | foundOpen | foundSpoiled | foundAgain | foundClosed | closed
  | prepared | established | limited | unlimited | unsubscribed | lost | ended | notAcked
  | notNacked => trivial
  | subscribed s d => exact ⟨t, [], rfl, by simp⟩
  | stopped s d => exact Opened.snoc h _ id
  | took s d m => exact ⟨t, rfl, h⟩
  | handed s d m w =>
      obtain ⟨pre, rfl, ho⟩ := h
      exact ⟨pre, by simp, ho⟩
  | acked s d m w hd u =>
      obtain ⟨pre, rfl, ho⟩ := h
      exact opened_of_disposed ho id
  | nacked s d m w hd u =>
      obtain ⟨pre, rfl, ho⟩ := h
      exact opened_of_disposed ho id
  | rested hr d p =>
      cases hr with
      | consuming s d => exact Opened.snoc h _ id
      | apart | joined | spoiled => trivial
  | backendClosed hr u =>
      cases hr with
      | consuming s d => exact Opened.snoc h _ id
      | apart | joined | spoiled => trivial

/-! ### What remains to be done -/

/-- The standing of a relay that has not asked for anything yet. -/
def Standing.first : Option σ → Standing σ δ
  | none => .apart
  | some s => .spoiled s

theorem renewable_first (session : Option σ) :
    (Standing.first (δ := δ) session).Renewable session := by
  cases session with
  | none => exact .apart
  | some s => exact .attached (.spoiled s)

theorem recalls_first (session : Option σ) :
    (Standing.first (δ := δ) session).Recalls c [] := by
  cases session <;> trivial

/-- Every call can be answered somehow. -/
theorem nonempty_answer (k : Call σ δ) : Nonempty ((calls σ δ).Answer k) := by
  cases k with
  | source k =>
      cases k with
      | connect => exact ⟨.error .closed⟩
      | isOpen s => exact ⟨true⟩
      | close s => exact ⟨.ok ()⟩
      | ask s k => cases k <;> exact ⟨.error .closed⟩
  | next d => exact ⟨.stop⟩
  | establish => exact ⟨.ok ()⟩
  | send m => exact ⟨.panicked ""⟩
  | closeBackend => exact ⟨()⟩
  | pause d => exact ⟨.stop⟩

/-- A relay that has ended holds no message. -/
theorem resting_of_ended {a : Option Finish × State σ δ} {x : Standing σ δ} (h : Ended a x) :
    x.Resting := by
  obtain ⟨f, r⟩ := a
  rcases f with _ | _ | _ | _
  · exact h.releasable.resting
  · obtain ⟨rfl, -⟩ := h
    exact .apart
  · obtain ⟨rfl, -⟩ := h
    exact .apart
  · exact h.releasable.resting

/-- While a message is held the relay goes on, and its next call is one of the steps. -/
theorem step_of_keeps {q : Program (calls σ δ) (Option Finish × State σ δ)} {x : Standing σ δ}
    (hx : ¬ x.Resting) (h : q.Keeps (Standing.Step c) Ended x) :
    ∃ k answer y, q.Asks k ∧ x.Step c ⟨k, answer⟩ y := by
  cases q with
  | done a => exact absurd (resting_of_ended h) hx
  | call k next =>
      obtain ⟨answer⟩ := nonempty_answer k
      obtain ⟨y, hstep, -⟩ := h answer
      exact ⟨k, answer, y, ⟨next, rfl⟩, hstep⟩

/-- Whoever holds a message can only hand it over. -/
theorem step_of_holding {s : σ} {d : δ} {m : Message} {y : Standing σ δ}
    {e : (calls σ δ).Exchange} (h : (Standing.holding s d m).Step c e y) :
    ∃ w, e = ⟨.send m, w⟩ ∧ y = .judged s d m w := by
  cases h with
  | handed _ _ _ w => exact ⟨w, rfl, rfl⟩
  | rested hr | backendClosed hr => cases hr
  | connected hv | refused hv => cases hv
  | foundClosed ha => cases ha
  | closed hc => cases hc

/-- Whoever has word on a message can only dispose of it. -/
theorem step_of_judged {s : σ} {d : δ} {m : Message} {w : Handed} {y : Standing σ δ}
    {e : (calls σ δ).Exchange} (h : (Standing.judged s d m w).Step c e y) :
    e.call = .source (.ask s (disposition m w)) := by
  cases h with
  | acked _ _ _ _ hd | notAcked _ _ _ _ hd => simp [disposition, hd]
  | nacked _ _ _ _ hd | notNacked _ _ _ _ hd => simp [disposition, hd]
  | rested hr | backendClosed hr => cases hr
  | connected hv | refused hv => cases hv
  | foundClosed ha => cases ha
  | closed hc => cases hc

/-- A delivery is disposed of only by one who has word on it. -/
theorem judged_of_disposes {x y : Standing σ δ} {e : (calls σ δ).Exchange}
    (h : x.Step c e y) (he : e.call.Disposes) :
    ∃ s d m w, x = .judged s d m w := by
  cases h with
  | acked s d m w | notAcked s d m w | nacked s d m w | notNacked s d m w =>
      exact ⟨s, d, m, w, rfl⟩
  | prepared s k hk => cases k <;> first | exact he.elim | exact hk.elim
  | _ => exact he.elim

theorem disposed_of_path {s : σ} {d : δ} {m : Message} {x : Standing σ δ}
    {t : List (calls σ δ).Exchange} {q : Program (calls σ δ) (Option Finish × State σ δ)}
    (ht : Path (Standing.Step c) (.holding s d m) t x) (hq : q.Keeps (Standing.Step c) Ended x) :
    Disposed s m q t := by
  cases ht with
  | here =>
      obtain ⟨k, answer, y, hask, hstep⟩ := step_of_keeps (fun h => by cases h) hq
      obtain ⟨w, he, -⟩ := step_of_holding hstep
      cases he
      exact .held hask
  | step hstep rest =>
      obtain ⟨w, rfl, rfl⟩ := step_of_holding hstep
      cases rest with
      | here =>
          obtain ⟨k, answer, y, hask, hstep⟩ := step_of_keeps (fun h => by cases h) hq
          have hk : k = _ := step_of_judged hstep
          exact .judged w (hk ▸ hask)
      | step hstep rest => exact .disposed w _ (step_of_judged hstep) _

/-! ### Every run -/

/-- At every moment of a run the exchanges lead to a standing, which recalls them and from
which the rest of the relay goes on. -/
theorem standing_of_leads {n : Nat} {r : State σ δ} {t : List (calls σ δ).Exchange}
    {q : Program (calls σ δ) (Option Finish × State σ δ)} (h : (run c n r).Leads t q) :
    ∃ x, Path (Standing.Step c) (.first r.source.session) t x ∧
      q.Keeps (Standing.Step c) Ended x :=
  (keeps_run (renewable_first r.source.session) n).leads h

theorem recalls_of_path {session : Option σ} {t : List (calls σ δ).Exchange}
    {x : Standing σ δ} (h : Path (Standing.Step c) (.first session) t x) : x.Recalls c t := by
  have hrecalls := Path.preserves (P := Standing.Recalls c) recalls_step h []
    (recalls_first session)
  rw [List.nil_append] at hrecalls
  exact hrecalls

/-- A disposition is made right after a message and the backend's word on it. -/
theorem disposition_follows {n : Nat} {r : State σ δ} {t : List (calls σ δ).Exchange}
    {q : Program (calls σ δ) (Option Finish × State σ δ)} (h : (run c n r).Leads t q)
    {pre post : List (calls σ δ).Exchange} {e : (calls σ δ).Exchange}
    (ht : t = pre ++ e :: post) (he : e.call.Disposes) :
    ∃ before s d m w, pre = before ++ [⟨.next d, .message m⟩, ⟨.send m, w⟩] ∧
      Opened c before s d ∧ e.call = .source (.ask s (disposition m w)) := by
  subst ht
  obtain ⟨x, hpath, -⟩ := standing_of_leads h
  obtain ⟨y, hpre, hrest⟩ := path_append.1 hpath
  have hrecalls := recalls_of_path hpre
  cases hrest with
  | step hstep hpost =>
      obtain ⟨s, d, m, w, rfl⟩ := judged_of_disposes hstep he
      obtain ⟨before, hbefore, hopened⟩ := hrecalls
      exact ⟨before, s, d, m, w, hbefore, hopened, step_of_judged hstep⟩

/-- An element before the last two of a list is before both of them. -/
theorem mem_of_append_cons_eq {α : Type} {pre mid before : List α} {e a b : α}
    (h : pre ++ e :: mid = before ++ [a, b]) (ha : e ≠ a) (hb : e ≠ b) : a ∈ mid := by
  rcases List.append_eq_append_iff.1 h with ⟨as, rfl, has⟩ | ⟨bs, rfl, hbs⟩
  · cases as with
    | nil => exact absurd (List.cons.inj has).1 ha
    | cons a' as => simp [(List.cons.inj has).2]
  · match bs with
    | [] => exact absurd (List.cons.inj hbs).1.symm ha
    | [_] => exact absurd (List.cons.inj (List.cons.inj hbs).2).1.symm hb
    | _ :: _ :: _ => simp at hbs

/-- **Every message is disposed of once, and nothing else ever is.**  A message that came
from a stream is handed over next and disposed of after that, on the session on which the
stream was opened, with the message's own tag: acknowledged if the backend took charge of
it, given back in every other case.  After the backend's word the disposition is what the
relay asks for next, whatever it was: it never finds itself without a session then.  A
disposition is never made but right after a message and the backend's word on it, so
between two of them another message came. -/
theorem disposes_once (n : Nat) (r : State σ δ) {t : List (calls σ δ).Exchange}
    {q : Program (calls σ δ) (Option Finish × State σ δ)} (h : (run c n r).Leads t q) :
    (∀ pre d m post, t = pre ++ ⟨.next d, .message m⟩ :: post →
      ∃ s, Opened c pre s d ∧ Disposed s m q post) ∧
    (∀ pre e post, t = pre ++ e :: post → e.call.Disposes →
      ∃ before s d m w, pre = before ++ [⟨.next d, .message m⟩, ⟨.send m, w⟩] ∧
        Opened c before s d ∧ e.call = .source (.ask s (disposition m w))) ∧
    (∀ pre e mid e' post, t = pre ++ e :: mid ++ e' :: post →
      e.call.Disposes → e'.call.Disposes → ∃ d m, ⟨.next d, .message m⟩ ∈ mid) := by
  refine ⟨?_, ?_, ?_⟩
  · rintro pre d m post rfl
    obtain ⟨x, hpath, hkeeps⟩ := standing_of_leads h
    obtain ⟨y, hpre, hrest⟩ := path_append.1 hpath
    have hrecalls := recalls_of_path hpre
    cases hrest with
    | step hstep hpost =>
        cases hstep with
        | took s => exact ⟨s, hrecalls, disposed_of_path hpost hkeeps⟩
  · intro pre e post ht he
    exact disposition_follows h ht he
  · intro pre e mid e' post ht he he'
    obtain ⟨before, s, d, m, w, hbefore, -, -⟩ := disposition_follows h ht he'
    refine ⟨d, m, mem_of_append_cons_eq hbefore ?_ ?_⟩ <;> rintro rfl <;> exact he

/-- A message whose backend panics is given back, and that is what is asked for next. -/
theorem disposes_once_after_panic :
    let c : Settings := { queue := "reports" }
    let m : Message := { payload := ⟨#[7]⟩, tag := ⟨1⟩ }
    let begun : List (calls Unit Unit).Exchange :=
      [⟨.source .connect, .ok ()⟩, ⟨.establish, .ok ()⟩, ⟨.source (.isOpen ()), true⟩,
        ⟨.source (.ask () (.setPrefetch prefetch)), .ok ()⟩,
        ⟨.source (.ask () (.consume c.queue c.consumerTag)), .ok ()⟩]
    ∃ q, (run c 1 {}).Leads
        (begun ++ [⟨.next (), .message m⟩, ⟨.send m, .panicked "boom"⟩]) q ∧
      Disposed () m q [⟨.send m, .panicked "boom"⟩] := by
  intro c m begun
  have hrun : ∃ q, (run (σ := Unit) (δ := Unit) c 1 {}).Leads
      (begun ++ [⟨.next (), .message m⟩, ⟨.send m, .panicked "boom"⟩]) q :=
    ⟨_, .call _ (.call _ (.call _ (.call _ (.call _ (.call _ (.call _ (.here _)))))))⟩
  obtain ⟨q, hq⟩ := hrun
  obtain ⟨s, -, hs⟩ := (disposes_once 1 {} hq).1 begun () m _ rfl
  exact ⟨q, hq, hs⟩

end QueueRelay.Relay

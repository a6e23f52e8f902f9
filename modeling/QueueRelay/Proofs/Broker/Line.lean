/-
The line of a queue: what is out of it, as it would come back, and what is ready behind it.

While at most one copy of a queue is out, what a channel gives back changes nothing of the
line, since it comes to stand where the line has it.  New copies join at the end.  So a copy
moves up only when the one in front of it is gone, and a copy that was never delivered stays
unmarked until it is in front.  That ties the marks on the copies to the events: each first
delivery marks one copy, the one in front, and each acknowledgement takes a marked one away.

One move does one thing to a queue at most.  `Effect` lists what that can be.
-/
import QueueRelay.Proofs.Broker.Moves

namespace QueueRelay.Broker

variable {b b' : Broker} {s : Session} {queue : String} {events : List Event} {copy : Copy}

/-! ### Events of a queue -/

/-- The event is about no delivery from the queue. -/
def Event.Aside (queue : String) (e : Event) : Prop :=
  ∀ d, e.about? = some d → d.queue ≠ queue

/-- A copy of the queue goes out. -/
def Event.delivers (queue : String) : Event → Bool
  | delivered _ _ d => d.queue = queue
  | _ => false

/-- A copy of the queue goes out that is not marked as redelivered. -/
def Event.deliversFirst (queue : String) : Event → Bool
  | delivered _ _ d => d.queue = queue && !d.copy.redelivered
  | _ => false

/-- A copy of the queue goes out that is marked as redelivered. -/
def Event.redelivers (queue : String) : Event → Bool
  | delivered _ _ d => d.queue = queue && d.copy.redelivered
  | _ => false

/-- A copy of the queue is acknowledged. -/
def Event.acknowledges (queue : String) : Event → Bool
  | acked _ _ d => d.queue = queue
  | _ => false

/-- A copy of the queue is returned by its consumer. -/
def Event.returns (queue : String) : Event → Bool
  | nacked _ _ d _ => d.queue = queue
  | _ => false

/-- Events that are aside from a queue are not among those counted for it. -/
theorem countP_aside {p : Event → Bool} (h : ∀ e ∈ events, e.Aside queue)
    (hp : ∀ e, p e = true → ∃ d, e.about? = some d ∧ d.queue = queue) :
    events.countP p = 0 := by
  refine List.countP_eq_zero.2 fun e he hpe => ?_
  obtain ⟨d, hd, hq⟩ := hp e hpe
  exact h e he d hd hq

/-- What delivers, acknowledges or gives back for a queue is about a delivery of the queue. -/
theorem about?_of_handles {e : Event} (h : e.delivers queue = true ∨
    e.acknowledges queue = true ∨ e.returns queue = true) :
    ∃ d, e.about? = some d ∧ d.queue = queue := by
  cases e with
  | delivered channel tag d | acked channel tag d | nacked channel tag d requeue =>
      exact ⟨d, rfl, by simpa [Event.delivers, Event.acknowledges, Event.returns] using h⟩
  | _ => simp [Event.delivers, Event.acknowledges, Event.returns] at h

theorem delivers_of_deliversFirst {e : Event} (h : e.deliversFirst queue = true) :
    e.delivers queue = true := by
  cases e with
  | delivered channel tag d => exact (Bool.and_eq_true_iff.1 h).1
  | _ => cases h

theorem delivers_of_redelivers {e : Event} (h : e.redelivers queue = true) :
    e.delivers queue = true := by
  cases e with
  | delivered channel tag d => exact (Bool.and_eq_true_iff.1 h).1
  | _ => cases h

/-- A delivery is the first of its copy, or another one. -/
theorem countP_delivers (queue : String) (events : List Event) :
    events.countP (Event.delivers queue) =
      events.countP (Event.redelivers queue) + events.countP (Event.deliversFirst queue) := by
  rw [List.countP_eq_countP_filter_add events (Event.delivers queue)
    fun e => e.redelivers queue, List.countP_filter, List.countP_filter]
  refine congrArg₂ (· + ·) ?_ ?_
  · refine List.countP_congr fun e _ => ?_
    rw [Bool.and_eq_true]
    exact ⟨And.right, fun h => ⟨delivers_of_redelivers h, h⟩⟩
  · refine List.countP_congr fun e _ => ?_
    cases e with
    | delivered channel tag d => cases hd : d.copy.redelivered <;>
        simp [Event.delivers, Event.redelivers, Event.deliversFirst, hd]
    | _ => simp [Event.delivers, Event.deliversFirst]

/-! ### Loans, up to their order -/

/-- A delivery left its channel. -/
theorem perm_loans_settle (h : b.Placed) {lane : Lane} {tag : DeliveryTag} {d : Delivery}
    (hl : b.channels.get? s.channel = some lane) (hd : lane.unacked.get? tag.value = some d)
    (hc : b'.channels = (b.settle s tag).channels) :
    b.loans.Perm (⟨s.channel, tag.value, d⟩ :: b'.loans) := by
  obtain ⟨before, after, hb, -, hset⟩ := loans_around h.sound hl
  have hb' := hset b' _ (hc.trans (channels_modifyLane h.sound hl _))
  have hlane : (lane.loans s.channel).Perm (⟨s.channel, tag.value, d⟩ ::
      (lane.unacked.erase tag.value).entries.map fun e => ⟨s.channel, e.1, e.2⟩) :=
    (Table.perm_erase (h.tags _ lane hl) hd).map _
  rw [hb, hb', List.append_assoc, List.append_assoc]
  exact ((hlane.append_right after).append_left before).trans List.perm_middle

theorem copiesFrom_cons (x : Loan) (l : List Loan) : copiesFrom queue (x :: l) =
    (if x.delivery.queue = queue then [x.delivery.copy] else []) ++ copiesFrom queue l := by
  by_cases hx : x.delivery.queue = queue <;> simp [copiesFrom, hx]

theorem perm_outstanding (queue : String) {l : List Loan} (h : b.loans.Perm l) :
    (b.outstanding queue).Perm (copiesFrom queue l) :=
  (h.filter _).map _

/-- At most one element has no order. -/
theorem eq_of_perm {α : Type} {l l' : List α} (h : l.Perm l') (hl : l.length ≤ 1) : l = l' := by
  match l, hl with
  | [], _ => exact h.nil_eq
  | [a], _ => exact List.perm_singleton.1 h.symm |>.symm

/-! ### What a move does to a queue -/

/-- What one move can do to the copies of a queue. -/
inductive Effect (queue : String) (b : Broker) (events : List Event) (b' : Broker) : Prop
  /-- Nothing, or a channel gives back what it had. -/
  | gaveBack (back : List Copy) (hout : (b.outstanding queue).Perm (back ++ b'.outstanding queue))
      (hready : b'.ready queue = back.map Copy.returned ++ b.ready queue)
      (he : ∀ e ∈ events, e.Aside queue)
  | arrived (copy : Copy) (hnew : copy.redelivered = false)
      (hout : b'.outstanding queue = b.outstanding queue)
      (hready : b'.ready queue = b.ready queue ++ [copy]) (he : ∀ e ∈ events, e.Aside queue)
      (hnumber : copy.number = b.copies)
  | wentOut (copy : Copy) (channel tag : Nat)
      (hout : (b'.outstanding queue).Perm (copy :: b.outstanding queue))
      (hready : b.ready queue = copy :: b'.ready queue)
      (he : events = [.delivered channel tag ⟨queue, copy⟩])
  | acked (copy : Copy) (channel tag : Nat)
      (hout : (b.outstanding queue).Perm (copy :: b'.outstanding queue))
      (hready : b'.ready queue = b.ready queue) (he : events = [.acked channel tag ⟨queue, copy⟩])
  | returned (copy : Copy) (channel tag : Nat) (requeue : Bool)
      (hout : (b.outstanding queue).Perm (copy :: b'.outstanding queue))
      (hready : b'.ready queue = (if requeue then [copy.returned] else []) ++ b.ready queue)
      (he : events = [.nacked channel tag ⟨queue, copy⟩ requeue])

/-- The copies of the queue are where they were. -/
theorem Effect.kept (hout : (b.outstanding queue).Perm (b'.outstanding queue))
    (hready : b'.ready queue = b.ready queue) (he : ∀ e ∈ events, e.Aside queue) :
    Effect queue b events b' :=
  .gaveBack [] hout hready he

theorem aside_of_about? {e : Event} (h : e.about? = none) : e.Aside queue := by
  intro d hd
  rw [h] at hd
  cases hd

theorem aside_singleton {e : Event} {d : Delivery} (h : e.about? = some d) (hd : d.queue ≠ queue) :
    ∀ e' ∈ [e], e'.Aside queue := by
  intro e' he' d' hd'
  rw [List.mem_singleton.1 he', h] at hd'
  exact Option.some.inj hd' ▸ hd

/-- The copies that one channel has out are apart from those of the others. -/
theorem perm_copiesFrom (k : Nat) (l : List Loan) : (copiesFrom queue l).Perm
    (copiesFrom queue (l.filter fun x => x.channel = k) ++
      copiesFrom queue (l.filter fun x => x.channel ≠ k)) := by
  rw [← copiesFrom_append]
  refine List.Perm.map _ (List.Perm.filter _ ?_)
  have hsplit := (List.filter_append_perm (fun x : Loan => x.channel = k) l).symm
  simpa using hsplit

/-- **A move does one of these things to a queue.** -/
theorem effect_of_move (h : b.Placed) (m : Move b events b') (queue : String) :
    Effect queue b events b' := by
  cases m with
  | beside hs hc hq hn hj he =>
      refine .kept ?_ ?_ fun e hm => aside_of_about? (he e hm).2
      · unfold outstanding
        rw [loans_congr hc]
      · unfold ready
        rw [hq]
  | @created name q hn hq =>
      refine .kept (.refl _) ?_ nofun
      refine (quiet_newQueue ?_ hq).ready
      rw [Table.contains_eq_isSome] at hn
      simpa using hn
  | @enqueued name key payload hc =>
      let copy : Copy := { number := b.copies, payload := payload, key := key }
      have hqueues : (enqueue key payload b name).queues =
          b.queues.modify name fun q => { q with ready := q.ready ++ [copy] } := rfl
      have haside : ∀ e ∈ [Event.enqueued name copy], e.Aside queue :=
        fun e hm => aside_of_about? (by rw [List.mem_singleton.1 hm]; rfl)
      by_cases hname : name = queue
      · subst hname
        refine .arrived copy rfl rfl ?_ haside rfl
        exact ready_modify_self (g := fun l => l ++ [copy]) hqueues hc fun _ => rfl
      · exact .kept (.refl _) (ready_modify hqueues hname) haside
  | @opened c hc =>
      refine .kept ?_ rfl nofun
      unfold outstanding
      rw [loans_openChannel h.sound]
  | @limited s lane hl ho count =>
      refine .kept ?_ rfl nofun
      obtain ⟨before, after, hb, -, hset⟩ := loans_around h.sound hl
      have hb' := hset (b.modifyLane s _) _
        (channels_modifyLane h.sound hl fun lane => { lane with prefetch := count })
      unfold outstanding
      rw [hb', hb]
      exact .refl _
  | @closed k lane hl ho reason =>
      have hquiet : ∀ e ∈ [Event.channelClosed k reason], e.Aside queue :=
        fun e hm => aside_of_about? (by rw [List.mem_singleton.1 hm]; rfl)
      rcases givenBack_closeChannel h k reason with hsame | hback
      · refine .kept ?_ (hsame.ready queue) hquiet
        unfold outstanding
        rw [hsame.loans]
      · refine .gaveBack _ ?_ (hback.ready queue) hquiet
        unfold outstanding
        rw [hback.loans]
        exact perm_copiesFrom k b.loans
  | @delivered t lane copy rest hl ho hready =>
      have hloans := perm_outstanding queue (perm_loans_deliver h hl copy rest)
      rw [copiesFrom_cons] at hloans
      by_cases hq : t.queue = queue
      · subst hq
        rw [if_pos rfl] at hloans
        refine .wentOut copy _ _ hloans ?_ rfl
        rw [ready_deliver hready, hready]
      · have hqueues : (b.deliver t lane copy rest).2.queues =
            b.queues.modify t.queue fun q => { q with ready := rest } := rfl
        rw [if_neg hq] at hloans
        exact .kept hloans.symm (ready_modify hqueues hq) (aside_singleton rfl hq)
  | @acked s lane tag d hl ho hd =>
      have hsettled : b.loans.Perm (_ :: (b.acknowledged s tag d).loans) :=
        perm_loans_settle h hl hd rfl
      have hloans := perm_outstanding queue hsettled
      rw [copiesFrom_cons] at hloans
      by_cases hq : d.queue = queue
      · subst hq
        rw [if_pos rfl] at hloans
        exact .acked d.copy _ _ hloans rfl rfl
      · rw [if_neg hq] at hloans
        exact .kept hloans rfl (aside_singleton rfl hq)
  | @nacked s lane tag d hl ho hd requeue =>
      have hroot : b.queues.contains d.queue = true :=
        h.rooted _ (mem_loans_of_get? hl (Table.mem_of_get? hd))
      have hsettled : b.loans.Perm (_ :: (b.gaveUp s tag d requeue).loans) :=
        perm_loans_settle h hl hd (channels_gaveUp tag d requeue)
      have hloans := perm_outstanding queue hsettled
      have hready : (b.gaveUp s tag d requeue).ready queue = _ :=
        ready_gaveUp (fun hq => hq ▸ hroot) requeue
      rw [copiesFrom_cons] at hloans
      by_cases hq : d.queue = queue
      · subst hq
        rw [if_pos rfl] at hloans
        refine .returned d.copy _ _ requeue hloans ?_ rfl
        rw [hready]
        simp
      · rw [if_neg hq] at hloans
        refine .kept hloans ?_ (aside_singleton rfl hq)
        rw [hready, if_neg fun hr => hq hr.2]
        rfl

/-! ### The line -/

/-- The copies of a queue that are out, as they would come back, and those that are ready. -/
def line (b : Broker) (queue : String) : List Copy :=
  (b.outstanding queue).map Copy.returned ++ b.ready queue

/-- One if the first copy is marked as redelivered, else zero. -/
def markOf : List Copy → Nat
  | c :: _ => if c.redelivered then 1 else 0
  | [] => 0

/-- At most one copy of the queue is out, and only the first of its line is marked. -/
structure Tidy (b : Broker) (queue : String) : Prop where
  single : (b.outstanding queue).length ≤ 1
  plain : ∀ c ∈ (b.line queue).tail, c.redelivered = false

/-- The line stays as it is when what is out comes back. -/
theorem line_gaveBack {back : List Copy} (hs : (b.outstanding queue).length ≤ 1)
    (hout : (b.outstanding queue).Perm (back ++ b'.outstanding queue))
    (hready : b'.ready queue = back.map Copy.returned ++ b.ready queue) :
    b'.line queue = b.line queue := by
  have hlen := hout.length_eq
  have heq := eq_of_perm hout hs
  unfold line
  rw [hready, heq]
  rw [heq] at hs
  have hcut : ([] ++ back ++ b'.outstanding queue).length ≤ 1 := by simpa using hs
  rcases nil_or_nil_of_length_le_one hcut with hnil | ⟨-, hnil⟩
  · simp [hnil]
  · simp [hnil]

/-- A first delivery makes a mark, and an acknowledgement takes one away. -/
structure Marks (queue : String) (b : Broker) (events : List Event) (b' : Broker) : Prop where
  tidy : b'.Tidy queue
  marks : events.countP (Event.deliversFirst queue) + markOf (b.line queue) =
    events.countP (Event.acknowledges queue) + markOf (b'.line queue)

namespace Marks

theorem refl (h : b.Tidy queue) : Marks queue b [] b := ⟨h, rfl⟩

theorem trans {b'' : Broker} {events' : List Event} (h : Marks queue b events b')
    (h' : Marks queue b' events' b'') : Marks queue b (events ++ events') b'' where
  tidy := h'.tidy
  marks := by
    rw [List.countP_append, List.countP_append]
    have hfirst := h.marks
    have hsecond := h'.marks
    omega

end Marks

/-- What is aside from the queue leaves its line in order. -/
theorem marks_of_aside (he : ∀ e ∈ events, e.Aside queue) (ht : b'.Tidy queue)
    (hm : markOf (b'.line queue) = markOf (b.line queue)) : Marks queue b events b' where
  tidy := ht
  marks := by
    rw [countP_aside he fun e h => about?_of_handles (.inl (delivers_of_deliversFirst h)),
      countP_aside he fun _ h => about?_of_handles (.inr (.inl h)), hm]

theorem marks_arrived (h : b.Tidy queue) (hnew : copy.redelivered = false)
    (hout : b'.outstanding queue = b.outstanding queue)
    (hready : b'.ready queue = b.ready queue ++ [copy]) (he : ∀ e ∈ events, e.Aside queue) :
    Marks queue b events b' := by
  have hline : b'.line queue = b.line queue ++ [copy] := by
    unfold line
    rw [hout, hready, List.append_assoc]
  refine marks_of_aside he ⟨hout ▸ h.single, ?_⟩ ?_
  · rw [hline]
    have hplain := h.plain
    cases hl : b.line queue with
    | nil => nofun
    | cons first rest =>
        rw [hl] at hplain
        intro c hc
        rcases List.mem_append.1 hc with hc | hc
        · exact hplain c hc
        · rw [List.mem_singleton.1 hc]
          exact hnew
  · rw [hline]
    cases hl : b.line queue with
    | nil => exact if_neg (by simp [hnew])
    | cons first rest => rfl

/-- The one copy that is out is the only one, and stands in front. -/
theorem line_of_out (hs : (b.outstanding queue).length ≤ 1) {l : List Copy}
    (hout : (b.outstanding queue).Perm (copy :: l)) :
    l = [] ∧ b.outstanding queue = [copy] ∧ b.line queue = copy.returned :: b.ready queue := by
  have hlen := hout.length_eq
  rw [List.length_cons] at hlen
  have hl : l = [] := List.length_eq_zero_iff.1 (by omega)
  rw [hl] at hout
  have heq := eq_of_perm hout hs
  refine ⟨hl, heq, ?_⟩
  unfold line
  rw [heq]
  rfl

theorem line_of_nil (h : b.outstanding queue = []) : b.line queue = b.ready queue := by
  unfold line
  rw [h]
  rfl

/-- **What a move does to the marks of a queue**, as long as at most one copy is out and none
is returned for good. -/
theorem Effect.marks (e : Effect queue b events b') (h : b.Tidy queue)
    (hs : (b'.outstanding queue).length ≤ 1)
    (hkept : ∀ channel tag d, .nacked channel tag d false ∈ events → d.queue ≠ queue) :
    Marks queue b events b' := by
  cases e with
  | gaveBack back hout hready he =>
      have hline := line_gaveBack h.single hout hready
      exact marks_of_aside he ⟨hs, hline ▸ h.plain⟩ (by rw [hline])
  | arrived copy hnew hout hready he => exact marks_arrived h hnew hout hready he
  | wentOut copy channel tag hout hready he =>
      obtain ⟨hnone, -, hline'⟩ := line_of_out hs hout
      have hplain := h.plain
      rw [line_of_nil hnone, hready] at hplain
      refine ⟨⟨hs, by rw [hline']; exact hplain⟩, ?_⟩
      rw [line_of_nil hnone, hready, hline', he]
      cases hc : copy.redelivered <;>
        simp [Event.deliversFirst, Event.acknowledges, markOf, Copy.returned, hc]
  | acked copy channel tag hout hready he =>
      obtain ⟨hnone, -, hline⟩ := line_of_out h.single hout
      have hplain := h.plain
      rw [hline] at hplain
      have hline' : b'.line queue = b.ready queue := by rw [line_of_nil hnone, hready]
      have hfirst : markOf (b.ready queue) = 0 := by
        cases hr : b.ready queue with
        | nil => rfl
        | cons first rest =>
            rw [hr] at hplain
            exact if_neg (by simp [hplain first List.mem_cons_self])
      refine ⟨⟨hs, fun c hc => hplain c ?_⟩, ?_⟩
      · rw [hline'] at hc
        exact List.mem_of_mem_tail hc
      · rw [hline, hline', hfirst, he]
        simp [Event.deliversFirst, Event.acknowledges, markOf, Copy.returned]
  | returned copy channel tag requeue hout hready he =>
      obtain ⟨hnone, -, hline⟩ := line_of_out h.single hout
      cases requeue with
      | false =>
          refine absurd rfl (hkept channel tag ⟨queue, copy⟩ ?_)
          rw [he]
          exact List.mem_singleton.2 rfl
      | true =>
          have hline' : b'.line queue = b.line queue := by
            rw [line_of_nil hnone, hready, hline]
            rfl
          refine ⟨⟨hs, hline' ▸ h.plain⟩, ?_⟩
          rw [hline', he]
          simp [Event.deliversFirst, Event.acknowledges]

/-- Without a delivery no more of the queue is out. -/
theorem Effect.single (e : Effect queue b events b') (h : (b.outstanding queue).length ≤ 1)
    (he : ∀ e ∈ events, e.delivers queue = false) : (b'.outstanding queue).length ≤ 1 := by
  cases e with
  | gaveBack back hout hready _ =>
      have hlen := hout.length_eq
      rw [List.length_append] at hlen
      omega
  | arrived copy hnew hout => rwa [hout]
  | wentOut copy channel tag hout hready heq =>
      subst heq
      have hnot := he _ List.mem_cons_self
      simp [Event.delivers] at hnot
  | acked copy channel tag hout | returned copy channel tag requeue hout =>
      have hlen := hout.length_eq
      rw [List.length_cons] at hlen
      omega

theorem delivers_of_aside {e : Event} (h : e.Aside queue) : e.delivers queue = false := by
  rw [Bool.eq_false_iff]
  intro hd
  obtain ⟨d, hd, hq⟩ := about?_of_handles (.inl hd)
  exact h d hd hq

/-- As long as no delivery from the queue is made or ended, its line stays in order. -/
theorem Goes.marks (h : Goes (fun d => d.queue ≠ queue) b b') (hb : b.Placed)
    (ht : b.Tidy queue) : ∃ events, b'.journal = b.journal ++ events ∧
      (∀ e ∈ events, e.Aside queue) ∧ Marks queue b events b' := by
  induction h with
  | refl => exact ⟨[], (List.append_nil _).symm, nofun, .refl ht⟩
  | @snoc b₁ b₂ more h m he ih =>
      obtain ⟨events, hj, haside, hmarks⟩ := ih
      have heffect := effect_of_move (h.placed hb) m queue
      have hsingle := heffect.single hmarks.tidy.single fun e hm => delivers_of_aside (he e hm)
      have hmore := heffect.marks hmarks.tidy hsingle fun _ _ d hm => he _ hm d rfl
      refine ⟨events ++ more, ?_, ?_, hmarks.trans hmore⟩
      · rw [m.journal, hj, List.append_assoc]
      · exact fun e hm => (List.mem_append.1 hm).elim (haside e) (he e)

/-! ### Marks and the journal -/

/-- The journal has a delivery of the copy. -/
def WasDelivered (b : Broker) (copy : Copy) : Prop :=
  ∃ channel tag d, .delivered channel tag d ∈ b.journal ∧ d.copy.number = copy.number

/-- What is out of the queue was delivered, and so was what is marked. -/
structure Recalls (b : Broker) (queue : String) : Prop where
  out : ∀ c ∈ b.outstanding queue, b.WasDelivered c
  marked : ∀ c ∈ b.ready queue, c.redelivered = true → b.WasDelivered c

theorem Effect.recalls (e : Effect queue b events b') (h : b.Recalls queue)
    (hj : b'.journal = b.journal ++ events) : b'.Recalls queue := by
  have hmore : ∀ c, b.WasDelivered c → b'.WasDelivered c := by
    rintro c ⟨channel, tag, d, hd, hc⟩
    refine ⟨channel, tag, d, ?_, hc⟩
    rw [hj]
    exact List.mem_append_left _ hd
  cases e with
  | gaveBack back hout hready he =>
      refine ⟨fun c hc => ?_, fun c hc hm => ?_⟩
      · exact hmore c (h.out c (hout.mem_iff.2 (List.mem_append_right _ hc)))
      · rw [hready] at hc
        rcases List.mem_append.1 hc with hc | hc
        · obtain ⟨given, hgiven, rfl⟩ := List.mem_map.1 hc
          exact hmore _ (h.out given (hout.mem_iff.2 (List.mem_append_left _ hgiven)))
        · exact hmore c (h.marked c hc hm)
  | arrived copy hnew hout hready he =>
      refine ⟨fun c hc => hmore c (h.out c (hout ▸ hc)), fun c hc hm => ?_⟩
      rw [hready] at hc
      rcases List.mem_append.1 hc with hc | hc
      · exact hmore c (h.marked c hc hm)
      · rw [List.mem_singleton.1 hc, hnew] at hm
        cases hm
  | wentOut copy channel tag hout hready he =>
      refine ⟨fun c hc => ?_, fun c hc hm => ?_⟩
      · rcases List.mem_cons.1 (hout.mem_iff.1 hc) with rfl | hc
        · refine ⟨channel, tag, ⟨queue, c⟩, ?_, rfl⟩
          rw [hj, he]
          exact List.mem_append_right _ List.mem_cons_self
        · exact hmore c (h.out c hc)
      · refine hmore c (h.marked c ?_ hm)
        rw [hready]
        exact List.mem_cons_of_mem _ hc
  | acked copy channel tag hout hready he =>
      refine ⟨fun c hc => ?_, fun c hc hm => hmore c (h.marked c (hready ▸ hc) hm)⟩
      exact hmore c (h.out c (hout.mem_iff.2 (List.mem_cons_of_mem _ hc)))
  | returned copy channel tag requeue hout hready he =>
      refine ⟨fun c hc => ?_, fun c hc hm => ?_⟩
      · exact hmore c (h.out c (hout.mem_iff.2 (List.mem_cons_of_mem _ hc)))
      · rw [hready] at hc
        rcases List.mem_append.1 hc with hc | hc
        · split at hc
          · rw [List.mem_singleton.1 hc]
            exact hmore _ (h.out copy (hout.mem_iff.2 List.mem_cons_self))
          · cases hc
        · exact hmore c (h.marked c hc hm)

theorem Goes.recalls {P : Delivery → Prop} (h : Goes P b b') (hb : b.Placed)
    (hr : b.Recalls queue) : b'.Recalls queue := by
  induction h with
  | refl => exact hr
  | snoc h m _ ih => exact (effect_of_move (h.placed hb) m queue).recalls ih m.journal

/-- **A copy that is marked as redelivered was delivered before**, whatever was done to its
broker. -/
theorem recalls_after (deeds : List Deed) (queue : String) : (after deeds).Recalls queue :=
  (goes_after deeds).recalls placed_new ⟨nofun, nofun⟩

/-- No copy that is in the queue or out of it was ever delivered. -/
def Undelivered (b : Broker) (queue : String) : Prop :=
  ∀ c ∈ b.outstanding queue ++ b.ready queue, ¬ b.WasDelivered c

/-- Of a queue whose copies were never delivered nothing is out, and nothing is marked. -/
theorem tidy_of_undelivered (hr : b.Recalls queue) (h : b.Undelivered queue) :
    b.outstanding queue = [] ∧ b.Tidy queue ∧ markOf (b.line queue) = 0 := by
  have hout : b.outstanding queue = [] := by
    refine List.eq_nil_iff_forall_not_mem.2 fun c hc => ?_
    exact h c (List.mem_append_left _ hc) (hr.out c hc)
  have hplain : ∀ c ∈ b.ready queue, c.redelivered = false := by
    intro c hc
    cases hm : c.redelivered with
    | false => rfl
    | true => exact absurd (hr.marked c hc hm) (h c (List.mem_append_right _ hc))
  have hline := line_of_nil hout
  refine ⟨hout, ⟨by simp [hout], fun c hc => hplain c ?_⟩, ?_⟩
  · rw [hline] at hc
    exact List.mem_of_mem_tail hc
  · rw [hline]
    cases hready : b.ready queue with
    | nil => rfl
    | cons first rest =>
        rw [hready] at hplain
        exact if_neg (by simp [hplain first List.mem_cons_self])

end QueueRelay.Broker

/-
The places where a copy can be.

A copy that was put on a queue waits there, is out with a channel, or is gone: it was
acknowledged, or returned for good.  With one consumer the copies also stay in their order;
with any number of them nothing is left of the order, but a copy is still in one place only.
So what is kept is said of the copies as a collection, each with the queue it belongs to and
as it was when it was made: those that are gone, out and waiting are those ever made, up to
the order.

Three more things have to hold for that.  The queue that a copy has to go back to is there,
and its name stands once in the broker's list.  The tags on a channel are at most the latest
one, so that the tag of a new delivery is not taken.  And the copies ever made have numbers
of their own.
-/
import Mathlib.Data.List.Basic
import QueueRelay.Proofs.Broker.Calls

namespace QueueRelay.Broker

/-! ### Views -/

/-- What becomes of a delivery when its channel gives it back. -/
def Delivery.returned (d : Delivery) : Delivery := { d with copy := d.copy.returned }

/-- The delivery with its copy as it was when it was made. -/
def Delivery.fresh (d : Delivery) : Delivery := { d with copy := d.copy.fresh }

@[simp] theorem Delivery.fresh_returned (d : Delivery) : d.returned.fresh = d.fresh := rfl

/-- The copy that an event puts on a queue. -/
def Event.made? : Event → Option Delivery
  | enqueued queue copy => some ⟨queue, copy⟩
  | _ => none

/-- The delivery whose copy an event says is gone. -/
def Event.gone? : Event → Option Delivery
  | acked _ _ d => some d
  | nacked _ _ d requeue => if requeue then none else some d
  | _ => none

/-- The copies ever put on a queue, in order. -/
def made (b : Broker) : List Delivery := b.journal.filterMap Event.made?

/-- The events by which a copy went, in order. -/
def settlements (b : Broker) : List Event := b.journal.filter fun e => e.gone?.isSome

/-- The copies that are gone, in order. -/
def gone (b : Broker) : List Delivery := b.settlements.filterMap Event.gone?

/-- The copies that are out. -/
def lent (b : Broker) : List Delivery := b.loans.map Loan.delivery

/-- The copies that are ready, queue by queue. -/
def waiting (b : Broker) : List Delivery :=
  b.queues.entries.flatMap fun e => e.2.ready.map (Delivery.mk e.1)

/-! ### What is kept -/

/-- Every copy ever made is in one place. -/
structure Placed (b : Broker) : Prop where
  sound : b.Sound
  /-- No queue is listed twice. -/
  names : b.queues.keys.Nodup
  /-- What is out has a queue to go back to. -/
  rooted : ∀ x ∈ b.loans, b.queues.contains x.delivery.queue = true
  /-- A channel has no tag out twice. -/
  tags : ∀ k lane, b.channels.get? k = some lane → lane.unacked.keys.Nodup
  /-- Tags are given out in order. -/
  tagged : ∀ k lane, b.channels.get? k = some lane →
    ∀ tag ∈ lane.unacked.keys, tag ≤ lane.lastTag
  /-- Copies are numbered in the order in which they are made. -/
  numbered : (b.made.map fun d => d.copy.number) = List.range b.copies
  /-- Gone, out and ready copies are those ever made. -/
  conserved : ((b.gone ++ b.lent ++ b.waiting).map Delivery.fresh).Perm
    (b.made.map Delivery.fresh)

/-- A change of the broker that leaves every copy in one place, and by which those go that
`settled` says. -/
structure Shifts (settled : List Event) (b b' : Broker) : Prop where
  placed : b'.Placed
  settlements : b'.settlements = b.settlements ++ settled

variable {b b' b'' : Broker} {settled settled' : List Event}

namespace Shifts

theorem refl (h : b.Placed) : Shifts [] b b where
  placed := h
  settlements := (List.append_nil _).symm

theorem trans (h : Shifts settled b b') (h' : Shifts settled' b' b'') :
    Shifts (settled ++ settled') b b'' where
  placed := h'.placed
  settlements := by rw [h'.settlements, h.settlements, List.append_assoc]

/-- Changes made one after the other. -/
theorem foldl {α : Type} {f : Broker → α → Broker}
    (hf : ∀ b a, b.Placed → Shifts [] b (f b a)) (as : List α) (h : b.Placed) :
    Shifts [] b (as.foldl f b) := by
  induction as generalizing b with
  | nil => exact .refl h
  | cons a as ih =>
      have ha := hf b a h
      exact ha.trans (ih ha.placed)

end Shifts

theorem gone_congr (h : b'.settlements = b.settlements) : b'.gone = b.gone := by
  unfold gone
  rw [h]

theorem lent_congr (h : b'.channels = b.channels) : b'.lent = b.lent := by
  unfold lent
  rw [loans_congr h]

theorem waiting_congr (h : b'.queues = b.queues) : b'.waiting = b.waiting := by
  unfold waiting
  rw [h]

theorem placed_new : Placed {} where
  sound := ⟨List.nodup_nil, nofun, nofun, nofun⟩
  names := List.nodup_nil
  rooted := nofun
  tags := nofun
  tagged := nofun
  numbered := rfl
  conserved := .refl _

/-! ### Where a queue's copies stand -/

/-- The ready copies of a queue have a place of their own among all that are ready. -/
theorem waiting_around (h : b.queues.keys.Nodup) {name : String} {q : Queue}
    (hq : b.queues.get? name = some q) :
    ∃ before after, b.waiting = before ++ q.ready.map (Delivery.mk name) ++ after ∧
      ∀ (b' : Broker) (f : Queue → Queue), b'.queues = b.queues.modify name f →
        b'.waiting = before ++ (f q).ready.map (Delivery.mk name) ++ after := by
  obtain ⟨l₁, l₂, hes, -, hset⟩ := Table.entries_around h hq
  refine ⟨l₁.flatMap fun e => e.2.ready.map (Delivery.mk e.1),
    l₂.flatMap fun e => e.2.ready.map (Delivery.mk e.1), ?_, ?_⟩
  · simp [waiting, hes]
  · intro b' f hb'
    rw [Table.modify_eq_set h hq f] at hb'
    simp [waiting, hb', hset (f q)]

/-- What comes to stand in front of a queue is ready from then on. -/
theorem waiting_giveBack (h : b.queues.keys.Nodup) {d : Delivery}
    (hc : b.queues.contains d.queue = true) (hb : b'.queues = giveBack d b.queues) :
    b'.waiting.Perm (d.returned :: b.waiting) := by
  obtain ⟨q, hq⟩ := Table.exists_get?_of_contains hc
  obtain ⟨before, after, hbefore, hafter⟩ := waiting_around h hq
  rw [hafter b' _ hb, hbefore, List.append_assoc, List.append_assoc]
  exact List.perm_middle

theorem keys_giveBack (d : Delivery) (queues : Table String Queue) :
    (giveBack d queues).keys = queues.keys :=
  Table.keys_modify _

theorem keys_giveBackAll (ds : List Delivery) (queues : Table String Queue) :
    (giveBackAll ds queues).keys = queues.keys := by
  induction ds with
  | nil => rfl
  | cons d ds ih => exact (keys_giveBack d (giveBackAll ds queues)).trans ih

theorem waiting_giveBackAll (h : b.queues.keys.Nodup) {ds : List Delivery}
    (hc : ∀ d ∈ ds, b.queues.contains d.queue = true)
    (hb : b'.queues = giveBackAll ds b.queues) :
    b'.waiting.Perm (ds.map Delivery.returned ++ b.waiting) := by
  induction ds generalizing b' with
  | nil =>
      rw [waiting_congr (b := b) hb]
      exact .refl _
  | cons d ds ih =>
      have hrest := @ih { b with queues := giveBackAll ds b.queues }
        (fun d hd => hc d (List.mem_cons_of_mem _ hd)) rfl
      have hnames : (giveBackAll ds b.queues).keys.Nodup := by
        rw [keys_giveBackAll]
        exact h
      have hroot : (giveBackAll ds b.queues).contains d.queue = true :=
        (contains_giveBackAll ds b.queues).trans (hc d List.mem_cons_self)
      have hfirst : b'.waiting.Perm _ :=
        waiting_giveBack (b := { b with queues := giveBackAll ds b.queues }) hnames hroot hb
      exact hfirst.trans (hrest.cons _)

/-- What one channel has out is apart from what the others have. -/
theorem lent_around (h : b.Sound) {k : Nat} {lane : Lane}
    (hl : b.channels.get? k = some lane) :
    ∃ rest, b.lent.Perm (lane.unacked.entries.map Prod.snd ++ rest) ∧
      ∀ (b' : Broker) (lane' : Lane), b'.channels = b.channels.set k lane' →
        b'.lent.Perm (lane'.unacked.entries.map Prod.snd ++ rest) := by
  obtain ⟨before, after, hb, -, hset⟩ := loans_around h hl
  have hswap : ∀ (b' : Broker) (lane' : Lane), b'.loans = before ++ lane'.loans k ++ after →
      b'.lent.Perm (lane'.unacked.entries.map Prod.snd ++
        (before.map Loan.delivery ++ after.map Loan.delivery)) := by
    intro b' lane' hb'
    have hdeliveries : (lane'.loans k).map Loan.delivery =
        lane'.unacked.entries.map Prod.snd := List.map_map
    rw [lent, hb', List.map_append, List.map_append, hdeliveries, ← List.append_assoc]
    exact List.perm_append_comm.append_right _
  exact ⟨_, hswap b lane hb, fun b' lane' hb' => hswap b' lane' (hset b' lane' hb')⟩

/-! ### The copies of one queue -/

/-- The copies of a queue among some deliveries. -/
def copiesIn (queue : String) (l : List Delivery) : List Copy :=
  (l.filter fun d => d.queue = queue).map Delivery.copy

variable {queue : String}

@[simp] theorem copiesIn_append (l l' : List Delivery) :
    copiesIn queue (l ++ l') = copiesIn queue l ++ copiesIn queue l' := by
  simp [copiesIn]

theorem copiesIn_fresh (l : List Delivery) :
    copiesIn queue (l.map Delivery.fresh) = (copiesIn queue l).map Copy.fresh := by
  simp only [copiesIn, List.filter_map, List.map_map]
  rfl

theorem copiesIn_lent : copiesIn queue b.lent = b.outstanding queue := by
  simp only [copiesIn, lent, outstanding, copiesFrom, List.filter_map, List.map_map]
  rfl

/-- The copies of a queue among what some events tell. -/
theorem copiesIn_filterMap {f : Event → Option Delivery} {g : Event → Option Copy}
    {events : List Event}
    (h : ∀ e ∈ events, ((f e).filter fun d => d.queue = queue).map Delivery.copy = g e) :
    copiesIn queue (events.filterMap f) = events.filterMap g := by
  unfold copiesIn
  rw [List.filter_filterMap, List.map_filterMap]
  exact List.filterMap_congr h

theorem copiesIn_made : copiesIn queue b.made = b.enqueuedOn queue := by
  refine copiesIn_filterMap fun e _ => ?_
  cases e with
  | enqueued name copy =>
      by_cases hname : name = queue <;> simp [Event.made?, Event.enqueuedOn?, Option.filter, hname]
  | _ => rfl

/-- What is gone from a queue was acknowledged, if none of it was returned for good. -/
theorem copiesIn_gone (h : ∀ channel tag d, .nacked channel tag d false ∈ b.settlements →
    d.queue ≠ queue) : copiesIn queue b.gone = b.ackedFrom queue := by
  rw [gone, settlements, List.filterMap_filter]
  refine copiesIn_filterMap fun e he => ?_
  cases e with
  | acked channel tag d =>
      by_cases hd : d.queue = queue <;> simp [Event.gone?, Event.ackedFrom?, Option.filter, hd]
  | nacked channel tag d requeue =>
      cases requeue with
      | true => rfl
      | false =>
          have hd : d.queue ≠ queue := h channel tag d (List.mem_filter.2 ⟨he, rfl⟩)
          simp [Event.gone?, Event.ackedFrom?, Option.filter, hd]
  | _ => rfl

theorem copiesIn_waiting (h : b.queues.keys.Nodup) :
    copiesIn queue b.waiting = b.ready queue := by
  have hother : ∀ l : List (String × Queue), (∀ e ∈ l, e.1 ≠ queue) →
      copiesIn queue (l.flatMap fun e => e.2.ready.map (Delivery.mk e.1)) = [] := by
    intro l hl
    rw [copiesIn, List.map_eq_nil_iff, List.filter_eq_nil_iff]
    intro d hd
    obtain ⟨e, he, hd⟩ := List.mem_flatMap.1 hd
    obtain ⟨copy, -, rfl⟩ := List.mem_map.1 hd
    simpa using hl e he
  cases hq : b.queues.get? queue with
  | none =>
      have hnone : ∀ e ∈ b.queues.entries, e.1 ≠ queue := by
        rintro e he rfl
        cases hq.symm.trans (Table.get?_of_mem h he)
      rw [waiting, hother _ hnone]
      unfold ready
      rw [hq]
  | some q =>
      obtain ⟨l₁, l₂, hes, hout, -⟩ := Table.entries_around h hq
      have hself : copiesIn queue (q.ready.map (Delivery.mk queue)) = q.ready := by
        simp [copiesIn, List.filter_map, Function.comp_def]
      rw [waiting, hes, List.flatMap_append, List.flatMap_cons, copiesIn_append, copiesIn_append,
        hother l₁ fun e he => hout e (List.mem_append_left _ he),
        hother l₂ fun e he => hout e (List.mem_append_right _ he), hself]
      unfold ready
      rw [hq]
      simp

namespace Placed

/-- The copies of a queue that are gone, out and ready are those ever put there. -/
theorem conservedOn (h : b.Placed) (queue : String) :
    ((copiesIn queue b.gone ++ b.outstanding queue ++ b.ready queue).map Copy.fresh).Perm
      ((b.enqueuedOn queue).map Copy.fresh) := by
  have hqueue : (copiesIn queue ((b.gone ++ b.lent ++ b.waiting).map Delivery.fresh)).Perm
      (copiesIn queue (b.made.map Delivery.fresh)) :=
    (h.conserved.filter _).map _
  rwa [copiesIn_fresh, copiesIn_fresh, copiesIn_append, copiesIn_append, copiesIn_lent,
    copiesIn_waiting h.names, copiesIn_made] at hqueue

/-- No copy of a queue is in two places. -/
theorem nodupOn (h : b.Placed) (queue : String) :
    ((copiesIn queue b.gone ++ b.outstanding queue ++ b.ready queue).map Copy.number).Nodup := by
  have hfresh : ∀ l : List Copy, (l.map Copy.fresh).map Copy.number = l.map Copy.number :=
    fun _ => List.map_map
  have hmade : ((b.enqueuedOn queue).map Copy.number).Sublist (List.range b.copies) := by
    rw [← h.numbered, ← copiesIn_made, copiesIn, List.map_map]
    exact List.filter_sublist.map _
  have hperm := (h.conservedOn queue).map Copy.number
  rw [hfresh, hfresh] at hperm
  exact hperm.nodup_iff.2 (hmade.nodup List.nodup_range)

end Placed

end QueueRelay.Broker

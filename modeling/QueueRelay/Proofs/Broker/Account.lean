/-
Where the copies of a queue are.

A copy that was put on a queue is acknowledged, out with a channel, or ready, and the three
lists put one behind the other are the copies in the order in which they came.  A broker
keeps this order by itself only as long as one copy at a time is out: two that are out come
back in the order of their tags if one channel had them, but in any order if two had them.
`Balanced` therefore asks for both, the order and that at most one copy is out.

What the broker knows about its channels has to hang together as well: `Sound`.  Both are
kept by nearly everything that happens to a broker, and so is who has what.  `Follows`
collects what such a change leaves as it was, so that changes can be put together.
-/
import QueueRelay.Broker
import QueueRelay.Proofs.Table

namespace QueueRelay.Broker

/-! ### Views -/

/-- A delivery that is neither acknowledged nor returned. -/
structure Loan where
  channel : Nat
  tag : Nat
  delivery : Delivery

/-- What a channel has out. -/
def Lane.loans (lane : Lane) (channel : Nat) : List Loan :=
  lane.unacked.entries.map fun e => ⟨channel, e.1, e.2⟩

/-- What all channels have out. -/
def loans (b : Broker) : List Loan :=
  b.channels.entries.flatMap fun e => e.2.loans e.1

/-- The copies among the loans that came from a queue. -/
def copiesFrom (queue : String) (l : List Loan) : List Copy :=
  (l.filter fun x => x.delivery.queue = queue).map fun x => x.delivery.copy

/-- The copies of a queue that are out, over all channels. -/
def outstanding (b : Broker) (queue : String) : List Copy := copiesFrom queue b.loans

/-- The copy that an event puts on a queue. -/
def Event.enqueuedOn? (queue : String) : Event → Option Copy
  | enqueued name copy => if name = queue then some copy else none
  | _ => none

/-- The copy of a queue that an event says is acknowledged. -/
def Event.ackedFrom? (queue : String) : Event → Option Copy
  | acked _ _ d => if d.queue = queue then some d.copy else none
  | _ => none

/-- The copies ever put on a queue, in order. -/
def enqueuedOn (b : Broker) (queue : String) : List Copy :=
  b.journal.filterMap (Event.enqueuedOn? queue)

/-- The copies of a queue that were acknowledged, in order. -/
def ackedFrom (b : Broker) (queue : String) : List Copy :=
  b.journal.filterMap (Event.ackedFrom? queue)

/-- The copy as it was when it was made. -/
def Copy.fresh (c : Copy) : Copy := { c with redelivered := false }

/-! ### What is kept -/

/-- The copies of a queue are accounted for, and at most one of them is out. -/
structure Balanced (b : Broker) (queue : String) : Prop where
  /-- Acknowledged, out and ready copies are those ever put there, in order. -/
  conserved : (b.ackedFrom queue ++ b.outstanding queue ++ b.ready queue).map Copy.fresh =
    (b.enqueuedOn queue).map Copy.fresh
  /-- One copy at a time is out. -/
  single : (b.outstanding queue).length ≤ 1
  /-- What is out has a queue to go back to. -/
  rooted : b.outstanding queue ≠ [] → b.queues.contains queue = true

/-- What a broker knows about its channels hangs together. -/
structure Sound (b : Broker) : Prop where
  /-- No channel is listed twice. -/
  nodup : b.channels.keys.Nodup
  /-- Numbers are given out in order. -/
  known : ∀ k ∈ b.channels.keys, k ≤ b.lastId
  /-- A closed channel has nothing out. -/
  emptied : ∀ k lane, b.channels.get? k = some lane → lane.isOpen = false →
    lane.unacked.entries = []
  /-- An open channel belongs to an open connection. -/
  anchored : ∀ k lane, b.channels.get? k = some lane → lane.isOpen = true →
    lane.connection ∈ b.connections

/-- A session whose channel the broker knows as one of the session's connection. -/
def Owns (b : Broker) (s : Session) : Prop :=
  ∃ lane, b.channels.get? s.channel = some lane ∧ lane.connection = s.connection

/-- A change of the broker under which `queue` stays accounted for.  The copies in `gone`
were acknowledged, and what is out now was out before or is as `out` says. -/
structure Follows (queue : String) (out : Loan → Prop) (gone : List Copy) (b b' : Broker) :
    Prop where
  sound : b'.Sound
  balanced : b.Balanced queue → b'.Balanced queue
  loans : ∀ x ∈ b'.loans, x ∈ b.loans ∨ out x
  acked : b'.ackedFrom queue = b.ackedFrom queue ++ gone
  /-- No channel moves to another connection. -/
  lanes : ∀ k lane, b.channels.get? k = some lane →
    ∃ lane', b'.channels.get? k = some lane' ∧ lane'.connection = lane.connection
  lastId : b.lastId ≤ b'.lastId

/-- A change that nobody who consumes `queue` needs to notice: nothing of the queue is
acknowledged or goes out, and on the channels with `mine` nothing goes out at all. -/
abbrev Unnoticed (queue : String) (mine : Nat → Prop) (b b' : Broker) : Prop :=
  Follows queue (fun x => x.delivery.queue ≠ queue ∧ ¬ mine x.channel) [] b b'

variable {b b' b'' : Broker} {queue : String} {mine : Nat → Prop} {out : Loan → Prop}
  {gone gone' : List Copy}

namespace Follows

theorem refl (h : b.Sound) : Follows queue out [] b b where
  sound := h
  balanced := id
  loans := fun _ hx => .inl hx
  acked := (List.append_nil _).symm
  lanes := fun _ lane hl => ⟨lane, hl, rfl⟩
  lastId := Nat.le_refl _

theorem trans (h : Follows queue out gone b b') (h' : Follows queue out gone' b' b'') :
    Follows queue out (gone ++ gone') b b'' where
  sound := h'.sound
  balanced := fun hb => h'.balanced (h.balanced hb)
  loans := by
    intro x hx
    rcases h'.loans x hx with hx | hx
    · exact h.loans x hx
    · exact .inr hx
  acked := by rw [h'.acked, h.acked, List.append_assoc]
  lanes := by
    intro k lane hl
    obtain ⟨lane', hl', hc'⟩ := h.lanes k lane hl
    obtain ⟨lane'', hl'', hc''⟩ := h'.lanes k lane' hl'
    exact ⟨lane'', hl'', hc''.trans hc'⟩
  lastId := Nat.le_trans h.lastId h'.lastId

theorem owns (h : Follows queue out gone b b') {s : Session} (hs : b.Owns s) : b'.Owns s := by
  obtain ⟨lane, hl, hc⟩ := hs
  obtain ⟨lane', hl', hc'⟩ := h.lanes _ lane hl
  exact ⟨lane', hl', hc'.trans hc⟩

/-- Changes made one after the other. -/
theorem foldl {α : Type} {f : Broker → α → Broker}
    (hf : ∀ b a, b.Sound → Follows queue out [] b (f b a)) (as : List α) (h : b.Sound) :
    Follows queue out [] b (as.foldl f b) := by
  induction as generalizing b with
  | nil => exact .refl h
  | cons a as ih =>
      have ha := hf b a h
      exact ha.trans (ih ha.sound)

end Follows

/-! ### Loans and lanes -/

@[simp] theorem copiesFrom_append (l l' : List Loan) :
    copiesFrom queue (l ++ l') = copiesFrom queue l ++ copiesFrom queue l' := by
  simp [copiesFrom]

theorem copiesFrom_eq_nil {l : List Loan} (h : ∀ x ∈ l, x.delivery.queue ≠ queue) :
    copiesFrom queue l = [] := by
  simp only [copiesFrom, List.map_eq_nil_iff, List.filter_eq_nil_iff, decide_eq_true_eq]
  exact h

theorem copiesFrom_lane (lane : Lane) (k : Nat) :
    copiesFrom queue (lane.loans k) =
      ((lane.unacked.entries.map Prod.snd).filter fun d => d.queue = queue).map
        fun d => d.copy := by
  simp [copiesFrom, Lane.loans, List.filter_map, Function.comp_def]

theorem mem_loans_of_get? {k tag : Nat} {lane : Lane} {d : Delivery}
    (hl : b.channels.get? k = some lane) (hd : (tag, d) ∈ lane.unacked.entries) :
    ⟨k, tag, d⟩ ∈ b.loans := by
  have hlane : ⟨k, tag, d⟩ ∈ lane.loans k := List.mem_map.2 ⟨(tag, d), hd, rfl⟩
  exact List.mem_flatMap.2 ⟨(k, lane), Table.mem_of_get? hl, hlane⟩

theorem exists_lane_of_mem_loans (h : b.Sound) {x : Loan} (hx : x ∈ b.loans) :
    ∃ lane, b.channels.get? x.channel = some lane ∧
      (x.tag, x.delivery) ∈ lane.unacked.entries := by
  obtain ⟨⟨k, lane⟩, hmem, hx⟩ := List.mem_flatMap.1 hx
  obtain ⟨⟨tag, d⟩, hd, rfl⟩ := List.mem_map.1 hx
  exact ⟨lane, Table.get?_of_mem h.nodup hmem, hd⟩

/-- The loans of one channel have a place of their own among all loans. -/
theorem loans_around (h : b.Sound) {k : Nat} {lane : Lane}
    (hl : b.channels.get? k = some lane) :
    ∃ before after, b.loans = before ++ lane.loans k ++ after ∧
      (∀ x ∈ before ++ after, x.channel ≠ k) ∧
      ∀ (b' : Broker) (lane' : Lane), b'.channels = b.channels.set k lane' →
        b'.loans = before ++ lane'.loans k ++ after := by
  obtain ⟨l₁, l₂, hes, hout, hset⟩ := Table.entries_around h.nodup hl
  refine ⟨l₁.flatMap fun e => e.2.loans e.1, l₂.flatMap fun e => e.2.loans e.1, ?_, ?_, ?_⟩
  · simp [loans, hes]
  · intro x hx
    rw [← List.flatMap_append] at hx
    obtain ⟨e, he, hx⟩ := List.mem_flatMap.1 hx
    obtain ⟨p, -, rfl⟩ := List.mem_map.1 hx
    exact hout e he
  · intro b' lane' hb'
    simp [loans, hb', hset lane']

theorem loans_congr (h : b'.channels = b.channels) : b'.loans = b.loans := by
  unfold loans
  rw [h]

/-- A broker whose channels changed at most in one open place hangs together as before. -/
theorem Sound.set {k : Nat} {lane lane' : Lane} (h : b.Sound)
    (hl : b.channels.get? k = some lane) (hc : b'.channels = b.channels.set k lane')
    (hn : b'.connections = b.connections) (hi : b'.lastId = b.lastId)
    (hconn : lane'.connection = lane.connection)
    (hopen : lane'.isOpen = true → lane.isOpen = true)
    (hempty : lane'.isOpen = false → lane'.unacked.entries = []) : b'.Sound where
  nodup := by
    rw [hc, Table.keys_set hl]
    exact h.nodup
  known := by
    rw [hc, Table.keys_set hl, hi]
    exact h.known
  emptied := by
    rw [hc]
    exact Table.forall_get?_set h.emptied k hempty
  anchored := by
    rw [hc, hn]
    refine Table.forall_get?_set h.anchored k fun ho => ?_
    rw [hconn]
    exact h.anchored k lane hl (hopen ho)

theorem lanes_set {k : Nat} {lane lane' : Lane} (hl : b.channels.get? k = some lane)
    (hc : b'.channels = b.channels.set k lane') (hconn : lane'.connection = lane.connection)
    (j : Nat) (other : Lane) (hj : b.channels.get? j = some other) :
    ∃ other', b'.channels.get? j = some other' ∧ other'.connection = other.connection := by
  rw [hc, Table.get?_set]
  split
  · rename_i hkj
    subst hkj
    rw [hl] at hj
    cases hj
    exact ⟨lane', rfl, hconn⟩
  · exact ⟨other, hj, rfl⟩

end QueueRelay.Broker

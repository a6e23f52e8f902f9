/-
What a published message leaves behind.

Each queue that a message reaches gets one copy of it, at its end, and no other queue gets any.
From outside that is so of every message.  What is published on a session is not always taken;
if the broker does not confirm it, no queue gets a copy, though a channel that is closed for it
gives back what it had.

That a queue is reached once although it is bound many times, with bindings of other exchanges
in between, does not take a search for what was there before.  It would do to drop a queue only
where it follows itself.  The bindings are kept in order, and that of their queues comes first
in it; what is left of an ordered list is in order, so all bindings of one queue stand together,
whichever of them take the message.
-/
import Mathlib.Data.List.Destutter
import QueueRelay.Proofs.Broker.Bindings
import QueueRelay.Proofs.Broker.Fate

namespace QueueRelay.Broker

open Simulation

variable {b b' : Broker} {s : Session} {queue exchange key : String} {payload : ByteArray}
  {options : PublishOptions}

/-! ### Dropping what follows itself -/

/-- What is left of a list has the order of the list. -/
theorem eraseDups_sublist : (l : List String) → l.eraseDups.Sublist l
  | [] => List.Sublist.refl []
  | name :: l => by
      rw [List.eraseDups_cons]
      exact ((eraseDups_sublist (l.filter fun other => !other == name)).trans
        List.filter_sublist).cons_cons name
termination_by l => l.length
decreasing_by exact Nat.lt_succ_of_le (List.length_filter_le _ _)

/-- In an ordered list, what is there twice follows itself. -/
theorem eraseDups_eq_destutter {l : List String} (h : l.Pairwise (· ≤ ·)) :
    l.eraseDups = l.destutter (· ≠ ·) := by
  rw [h.destutter_eq_dedup]
  have hperm : l.eraseDups.Perm l.dedup :=
    (List.perm_ext_iff_of_nodup (nodup_eraseDups l) l.nodup_dedup).2 fun name =>
      List.mem_eraseDups.trans List.mem_dedup.symm
  exact hperm.eq_of_pairwise' (h.sublist (eraseDups_sublist l)) (h.sublist l.dedup_sublist)

theorem Binding.queue_le {x y : Binding} (h : x.place < y.place) : x.queue ≤ y.queue := by
  rcases Prod.Lex.toLex_lt_toLex.1 h with hlt | ⟨heq, -⟩
  · exact hlt.le
  · exact heq.le

/-- **In a broker that keeps its bindings in order, it would do to drop a queue only where it
follows itself.** -/
theorem route_eq_destutter (h : InOrder b.bindings) (hname : exchange ≠ "") {e : Exchange}
    (he : b.exchanges.get? exchange = some e) :
    b.route exchange key = (b.carriedTo exchange key e.kind).destutter (· ≠ ·) := by
  have hleft : InOrder (b.bindings.filter (b.carries exchange key e.kind)) :=
    h.sublist List.filter_sublist
  have hordered : (b.carriedTo exchange key e.kind).Pairwise (· ≤ ·) :=
    List.pairwise_map.2 (hleft.imp Binding.queue_le)
  rw [route_named hname, he]
  exact eraseDups_eq_destutter hordered

/-! ### Who gets a copy -/

/-- Each of some queues got one new copy of a message at its end, no other queue got anything,
and no other copy was made. -/
structure Posted (b : Broker) (names : List String) (key : String) (payload : ByteArray)
    (b' : Broker) : Prop where
  arrived : ∀ queue ∈ names, ∃ number, b'.ready queue =
    b.ready queue ++ [{ number := number, payload := payload, key := key }]
  elsewhere : ∀ queue, queue ∉ names → b'.ready queue = b.ready queue
  channels : b'.channels = b.channels
  made : ∃ copies : List Delivery, b'.made = b.made ++ copies ∧ copies.map Delivery.queue = names

/-- No copy was made, and no queue got anything but copies that came back to it. -/
structure Unposted (b b' : Broker) : Prop where
  returned : ∀ queue, ∃ back : List Copy, b'.ready queue = back ++ b.ready queue ∧
    ∀ c ∈ back, c.redelivered = true
  made : b'.made = b.made

theorem made_enqueueAll (names : List String) :
    ∃ copies : List Delivery, (b.enqueueAll key payload names).made = b.made ++ copies ∧
      copies.map Delivery.queue = names := by
  unfold enqueueAll
  induction names generalizing b with
  | nil => exact ⟨[], (List.append_nil _).symm, rfl⟩
  | cons name names ih =>
      let first : Delivery :=
        ⟨name, { number := b.copies, payload := payload, key := key }⟩
      have hfirst : (enqueue key payload b name).made = b.made ++ [first] := by
        simp [Broker.made, enqueue, Event.made?, first]
      obtain ⟨copies, hmade, hqueues⟩ := ih (b := enqueue key payload b name)
      refine ⟨first :: copies, ?_, congrArg (name :: ·) hqueues⟩
      rw [List.foldl_cons, hmade, hfirst, List.append_assoc]
      rfl

/-- Every queue that a message reaches gets one copy of it. -/
theorem posted_route (b : Broker) (exchange key : String) (payload : ByteArray) :
    Posted b (b.route exchange key) key payload
      (b.enqueueAll key payload (b.route exchange key)) where
  arrived := fun _ hq =>
    ready_enqueueAll (nodup_route b exchange key) hq (contains_of_mem_route hq)
  elsewhere := fun _ hq => ready_enqueueAll_of_not_mem hq
  channels := enqueueAll_congr (f := Broker.channels) (fun _ _ => rfl) _
  made := made_enqueueAll _

theorem Posted.record {names : List String} (h : Posted b names key payload b') {e : Event}
    (he : e.made? = none) : Posted b names key payload (b'.record e) where
  arrived := h.arrived
  elsewhere := h.elsewhere
  channels := h.channels
  made := by
    rw [made_record, he, Option.toList_none, List.append_nil]
    exact h.made

/-- What leaves the queues alone and makes no copy. -/
theorem unposted_of_eq (hq : b'.queues = b.queues) (hm : b'.made = b.made) : Unposted b b' where
  returned := by
    intro queue
    refine ⟨[], ?_, List.forall_mem_nil _⟩
    unfold ready
    rw [hq]
    rfl
  made := hm

theorem ready_of_not_contains (h : b.queues.contains queue = false) : b.ready queue = [] := by
  unfold ready
  rw [Table.contains_eq_isSome, Option.isSome_eq_false_iff, Option.isNone_iff_eq_none] at h
  rw [h]

/-- A channel that closes gives copies back, and they are marked. -/
theorem unposted_closeChannel (b : Broker) (k : Nat) (reason : String) :
    Unposted b (b.closeChannel k reason) where
  returned := by
    intro queue
    unfold closeChannel
    split
    · rename_i lane hl
      split
      · by_cases hq : b.queues.contains queue = true
        · refine ⟨_, ready_giveBackAll rfl fun _ _ _ => hq, fun c hc => ?_⟩
          obtain ⟨d, -, rfl⟩ := List.mem_map.1 hc
          rfl
        · have hnone := Bool.eq_false_iff.2 hq
          refine ⟨[], ?_, List.forall_mem_nil _⟩
          rw [ready_of_not_contains hnone, ready_of_not_contains]
          · rfl
          · exact (contains_giveBackAll _ _).trans hnone
      · exact ⟨[], rfl, List.forall_mem_nil _⟩
    · exact ⟨[], rfl, List.forall_mem_nil _⟩
  made := made_closeChannel k reason

/-- What it takes for a message that is published on a session to be confirmed. -/
structure Confirms (b : Broker) (s : Session) (exchange key : String) (options : PublishOptions) :
    Prop where
  isOpen : b.check s = .ok ()
  known : exchange ≠ "" → b.exchanges.contains exchange = true
  undisturbed : b.nacksDue = 0
  wanted : options.mandatory = true → b.route exchange key ≠ []

/-- A message that is confirmed was taken by every queue it reaches. -/
theorem posted_publish (h : Confirms b s exchange key options) (payload : ByteArray) :
    (b.publish s exchange key payload options).1 = .ok .confirmed ∧
      Posted b (b.route exchange key) key payload (b.publish s exchange key payload options).2 := by
  have hknown : ¬ (!exchange.isEmpty && !b.exchanges.contains exchange) = true := by
    simpa using h.known
  have hwanted : ¬ ((b.route exchange key).isEmpty && options.mandatory) = true := by
    simp only [Bool.and_eq_true, List.isEmpty_iff, not_and]
    exact fun hnil hm => h.wanted hm hnil
  have hpublish : b.publish s exchange key payload options =
      (.ok .confirmed, (b.enqueueAll key payload (b.route exchange key)).record
        (.published exchange key payload)) := by
    unfold publish guarded
    rw [h.isOpen]
    dsimp only
    rw [if_neg hknown, if_neg (Nat.not_lt.2 h.undisturbed.le), if_neg hwanted]
  rw [hpublish]
  exact ⟨rfl, (posted_route b exchange key payload).record rfl⟩

/-- A message that is not confirmed is taken by no queue. -/
theorem unposted_publish (h : ¬ Confirms b s exchange key options) (payload : ByteArray) :
    (b.publish s exchange key payload options).1 ≠ .ok .confirmed ∧
      Unposted b (b.publish s exchange key payload options).2 := by
  have herror : ∀ e : LinkError, (.error e : Except LinkError PublishStatus) ≠ .ok .confirmed := by
    intro e he
    cases he
  unfold publish guarded
  split
  · rename_i hopen
    dsimp only
    split
    · exact ⟨herror _, unposted_closeChannel b _ _⟩
    · rename_i hknown
      split
      · exact ⟨by simp, unposted_of_eq rfl rfl⟩
      · rename_i hnacks
        split
        · refine ⟨by simp, unposted_of_eq rfl ?_⟩
          rw [made_record]
          exact List.append_nil _
        · rename_i hwanted
          refine absurd ?_ h
          exact
            { isOpen := hopen
              known := by simpa using hknown
              undisturbed := Nat.eq_zero_of_not_pos hnacks
              wanted := by
                intro hm hnil
                exact hwanted (by rw [hm, hnil]; rfl) }
  · exact ⟨herror _, unposted_of_eq rfl rfl⟩

/-- **A message reaches each queue it is addressed to once, and leaves one copy there.**  From
outside that is so of every message, and on a session of those that the broker confirms; a
message that it does not confirm leaves no copy anywhere. -/
theorem reaches_once (b : Broker) (exchange key : String) :
    (b.route exchange key).Nodup ∧
      (∀ queue, queue ∈ b.route exchange key ↔ b.queues.contains queue = true ∧
        (exchange = "" ∧ queue = key ∨ exchange ≠ "" ∧ b.BoundTo exchange key queue)) ∧
      (InOrder b.bindings → exchange ≠ "" → ∀ e, b.exchanges.get? exchange = some e →
        b.route exchange key = (b.carriedTo exchange key e.kind).destutter (· ≠ ·)) ∧
      ∀ payload,
        ((b.publishOutside exchange key payload).1 = true ↔ b.route exchange key ≠ []) ∧
        Posted b (b.route exchange key) key payload (b.publishOutside exchange key payload).2 ∧
        ∀ s options,
          (Confirms b s exchange key options →
            (b.publish s exchange key payload options).1 = .ok .confirmed ∧
              Posted b (b.route exchange key) key payload
                (b.publish s exchange key payload options).2) ∧
          (¬ Confirms b s exchange key options →
            (b.publish s exchange key payload options).1 ≠ .ok .confirmed ∧
              Unposted b (b.publish s exchange key payload options).2) := by
  refine ⟨nodup_route b exchange key, mem_route_iff b exchange key,
    fun h hname e he => route_eq_destutter h hname he, fun payload => ⟨?_, ?_, ?_⟩⟩
  · simp [publishOutside]
  · exact posted_route b exchange key payload
  · exact fun s options => ⟨fun h => posted_publish h payload, fun h => unposted_publish h payload⟩

/-- A queue is bound to a topic exchange twice, with a binding to another exchange in between, a
second queue once, and a third one that does not exist.  A client connects. -/
def boundTwice : List Deed :=
  [.operated (.declareExchange "reports" .topic), .operated (.declareQueue "audit"),
    .operated (.declareQueue "jobs"), .operated (.bind ⟨"jobs", "reports", "done"⟩),
    .operated (.bind ⟨"audit", "reports", "done"⟩), .operated (.bind ⟨"audit", "reports", "#"⟩),
    .operated (.bind ⟨"audit", "reports", "failed"⟩), .operated (.bind ⟨"audit", "relay", "done"⟩),
    .operated (.bind ⟨"gone", "reports", "#"⟩), .connected]

/-- Two bindings of the first queue take the message and one of the second does, and each of
the two queues gets one copy. -/
theorem reaches_once_bound_twice :
    let b := after boundTwice
    InOrder b.bindings ∧ b.carriedTo "reports" "done" .topic = ["audit", "audit", "jobs"] ∧
      b.route "reports" "done" = ["audit", "jobs"] ∧ Confirms b ⟨1, 2⟩ "reports" "done" {} ∧
      Posted b ["audit", "jobs"] "done" ByteArray.empty
        (b.publish ⟨1, 2⟩ "reports" "done" ByteArray.empty {}).2 := by
  intro b
  obtain ⟨-, -, hneighbours, hpublished⟩ := reaches_once b "reports" "done"
  have hordered : InOrder b.bindings := inOrder_after boundTwice
  have hcarried : b.carriedTo "reports" "done" .topic = ["audit", "audit", "jobs"] := by decide
  have hroute : b.route "reports" "done" = ["audit", "jobs"] := by
    rw [hneighbours hordered (by decide) { kind := .topic } rfl, hcarried]
    decide
  have hconfirms : Confirms b ⟨1, 2⟩ "reports" "done" {} := by
    refine ⟨rfl, fun _ => rfl, rfl, fun _ => ?_⟩
    rw [hroute]
    exact List.cons_ne_nil _ _
  obtain ⟨-, -, hsession⟩ := hpublished ByteArray.empty
  have hposted := ((hsession ⟨1, 2⟩ {}).1 hconfirms).2
  rw [hroute] at hposted
  exact ⟨hordered, hcarried, hroute, hconfirms, hposted⟩

/-- A queue is bound to an exchange that was declared without a name.  The next message on a
session is not to be confirmed, and a client connects. -/
def boundToNameless : List Deed :=
  [.operated (.declareQueue "jobs"), .operated (.declareExchange "" .fanout),
    .operated (.bind ⟨"jobs", "", "done"⟩), .operated (.nackPublishes 1), .connected]

/-- Not every queue with a binding that takes a message is reached, since those of the exchange
without a name do not count; and not every queue that a message on an open session reaches gets
a copy of it. -/
theorem bound_but_not_reached :
    (¬ ∀ deeds exchange key queue, queue ∈ (after deeds).route exchange key ↔
        (after deeds).queues.contains queue = true ∧
          (exchange = "" ∧ queue = key ∨ (after deeds).BoundTo exchange key queue)) ∧
      ¬ ∀ deeds s exchange key payload options, (after deeds).check s = .ok () →
        Posted (after deeds) ((after deeds).route exchange key) key payload
          ((after deeds).publish s exchange key payload options).2 := by
  constructor
  · intro h
    have hbound : (after boundToNameless).BoundTo "" "done" "jobs" :=
      ⟨{ kind := .fanout }, rfl, ⟨"jobs", "", "done"⟩, List.mem_singleton_self _, rfl, rfl,
        .fanout _ _⟩
    have hmem := (h boundToNameless "" "done" "jobs").2 ⟨rfl, .inr hbound⟩
    exact absurd hmem (by decide)
  · intro h
    have hposted := h boundToNameless ⟨1, 2⟩ "" "jobs" ByteArray.empty {} rfl
    obtain ⟨number, hready⟩ := hposted.arrived "jobs" (by decide)
    cases hready

end QueueRelay.Broker

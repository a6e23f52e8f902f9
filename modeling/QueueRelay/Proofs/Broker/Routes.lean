/-
What a published message reaches.

A message is addressed to the queues that are bound to its exchange with a key which the kind of
the exchange takes, and it reaches those of them that exist.  The exchange without a name is
not like the others: it reaches the queue that is called like the key, and no binding adds to
that, even if an exchange of that name was declared.

A queue is reached once, however many of its bindings take the message: the queues that a
message reaches are listed without repetition, and each of them gets one copy at its end.
-/
import QueueRelay.Proofs.Broker.Change

namespace QueueRelay.Broker

variable {b : Broker} {queue exchange key : String} {kind : ExchangeKind} {payload : ByteArray}

/-! ### Who is addressed -/

/-- A binding takes a message from an exchange of some kind, by their keys. -/
inductive Takes : ExchangeKind → String → String → Prop
  | fanout (bound key : String) : Takes .fanout bound key
  | direct (key : String) : Takes .direct key key
  | topic (key : String) : Takes .topic key key
  | all (key : String) : Takes .topic "#" key

theorem accepts_iff {bound : String} : kind.accepts bound key = true ↔ Takes kind bound key := by
  constructor
  · intro h
    cases kind with
    | fanout => exact .fanout bound key
    | direct =>
        obtain rfl : bound = key := by simpa [ExchangeKind.accepts] using h
        exact .direct bound
    | topic =>
        obtain rfl | rfl : bound = "#" ∨ bound = key := by simpa [ExchangeKind.accepts] using h
        · exact .all key
        · exact .topic bound
  · intro h
    cases h <;> simp [ExchangeKind.accepts]

/-- Every kind of exchange takes a message whose key is the key of a binding. -/
theorem takes_self (kind : ExchangeKind) (key : String) : Takes kind key key := by
  cases kind with
  | direct => exact .direct key
  | fanout => exact .fanout key key
  | topic => exact .topic key

/-- The exchange exists, and some binding takes the message from it to the queue. -/
def BoundTo (b : Broker) (exchange key queue : String) : Prop :=
  ∃ e, b.exchanges.get? exchange = some e ∧
    ∃ x ∈ b.bindings, x.queue = queue ∧ x.exchange = exchange ∧ Takes e.kind x.key key

/-- The queues to which the bindings of an exchange carry a message, one for each binding. -/
def carriedTo (b : Broker) (exchange key : String) (kind : ExchangeKind) : List String :=
  (b.bindings.filter (b.carries exchange key kind)).map Binding.queue

theorem mem_carriedTo_iff :
    queue ∈ b.carriedTo exchange key kind ↔ b.queues.contains queue = true ∧
      ∃ x ∈ b.bindings, x.queue = queue ∧ x.exchange = exchange ∧ Takes kind x.key key := by
  constructor
  · intro h
    obtain ⟨x, hx, rfl⟩ := List.mem_map.1 h
    obtain ⟨hb, hcarries⟩ := List.mem_filter.1 hx
    simp only [carries, Bool.and_eq_true, decide_eq_true_eq] at hcarries
    exact ⟨hcarries.1.2, x, hb, rfl, hcarries.1.1, accepts_iff.1 hcarries.2⟩
  · rintro ⟨hq, x, hb, rfl, he, ht⟩
    refine List.mem_map.2 ⟨x, List.mem_filter.2 ⟨hb, ?_⟩, rfl⟩
    simp [carries, he, hq, accepts_iff.2 ht]

theorem route_nameless (key : String) :
    b.route "" key = if b.queues.contains key then [key] else [] := rfl

theorem route_named (hname : exchange ≠ "") :
    b.route exchange key = match b.exchanges.get? exchange with
      | none => []
      | some e => (b.carriedTo exchange key e.kind).eraseDups := by
  unfold route
  rw [if_neg (by simpa using hname)]
  rfl

/-- **A message reaches the queues it is addressed to.** -/
theorem mem_route_iff (b : Broker) (exchange key queue : String) :
    queue ∈ b.route exchange key ↔ b.queues.contains queue = true ∧
      (exchange = "" ∧ queue = key ∨ exchange ≠ "" ∧ b.BoundTo exchange key queue) := by
  by_cases hname : exchange = ""
  · subst hname
    rw [route_nameless]
    split
    · rename_i hk
      simp only [List.mem_singleton, true_and, ne_eq, not_true, false_and, or_false]
      refine ⟨?_, And.right⟩
      rintro rfl
      exact ⟨hk, rfl⟩
    · rename_i hk
      simp only [List.not_mem_nil, true_and, ne_eq, not_true, false_and, or_false, false_iff]
      rintro ⟨hq, rfl⟩
      exact hk hq
  · rw [route_named hname]
    simp only [hname, false_and, false_or, ne_eq, not_false_eq_true, true_and, BoundTo]
    cases b.exchanges.get? exchange with
    | none => simp
    | some e => simp [List.mem_eraseDups, mem_carriedTo_iff]

/-- An exchange with a name passes a message on to a queue that is bound to it with the
message's key. -/
theorem mem_route_of_bound (hname : exchange ≠ "") (hx : b.exchanges.contains exchange = true)
    (hq : b.queues.contains queue = true) (hb : ⟨queue, exchange, key⟩ ∈ b.bindings) :
    queue ∈ b.route exchange key := by
  obtain ⟨e, he⟩ := Table.exists_get?_of_contains hx
  have hbound : b.BoundTo exchange key queue :=
    ⟨e, he, ⟨queue, exchange, key⟩, hb, rfl, rfl, takes_self e.kind key⟩
  exact (mem_route_iff b exchange key queue).2 ⟨hq, .inr ⟨hname, hbound⟩⟩

/-! ### Once each -/

theorem nodup_eraseDups : (l : List String) → l.eraseDups.Nodup
  | [] => List.nodup_nil
  | name :: l => by
      rw [List.eraseDups_cons]
      refine List.nodup_cons.2 ⟨?_, nodup_eraseDups (l.filter fun other => !other == name)⟩
      intro hm
      have hne := (List.mem_filter.1 (List.mem_eraseDups.1 hm)).2
      simp at hne
termination_by l => l.length
decreasing_by exact Nat.lt_succ_of_le (List.length_filter_le _ _)

/-- A message reaches no queue twice. -/
theorem nodup_route (b : Broker) (exchange key : String) : (b.route exchange key).Nodup := by
  unfold route
  split
  · split
    · exact List.nodup_cons.2 ⟨List.not_mem_nil, List.nodup_nil⟩
    · exact List.nodup_nil
  · split
    · exact List.nodup_nil
    · exact nodup_eraseDups _

/-! ### What arrives -/

theorem contains_enqueue (name : String) :
    (enqueue key payload b name).queues.contains queue = b.queues.contains queue :=
  Table.contains_modify _

theorem queues_enqueue (name : String) :
    (enqueue key payload b name).queues = b.queues.modify name fun q =>
      { q with ready := q.ready ++ [{ number := b.copies, payload := payload, key := key }] } :=
  rfl

theorem ready_enqueue_of_ne {name : String} (h : name ≠ queue) :
    (enqueue key payload b name).ready queue = b.ready queue :=
  ready_modify (queues_enqueue name) h

theorem ready_enqueueAll_of_not_mem {names : List String} (h : queue ∉ names) :
    (b.enqueueAll key payload names).ready queue = b.ready queue := by
  unfold enqueueAll
  induction names generalizing b with
  | nil => rfl
  | cons name names ih =>
      have hname : name ≠ queue := by
        rintro rfl
        exact h List.mem_cons_self
      exact (ih fun hm => h (List.mem_cons_of_mem _ hm)).trans (ready_enqueue_of_ne hname)

/-- A queue among those that a message reaches gets one new copy of it. -/
theorem ready_enqueueAll {names : List String} (hn : names.Nodup) (h : queue ∈ names)
    (hq : b.queues.contains queue = true) :
    ∃ number, (b.enqueueAll key payload names).ready queue =
      b.ready queue ++ [{ number := number, payload := payload, key := key }] := by
  induction names generalizing b with
  | nil => cases h
  | cons name names ih =>
      obtain ⟨hname, hnames⟩ := List.nodup_cons.1 hn
      rcases List.mem_cons.1 h with rfl | h
      · let copy : Copy := { number := b.copies, payload := payload, key := key }
        refine ⟨b.copies, ?_⟩
        have hfirst : (enqueue key payload b queue).ready queue = b.ready queue ++ [copy] :=
          ready_modify_self (g := fun l => l ++ [copy]) (queues_enqueue queue) hq fun _ => rfl
        rw [← hfirst]
        exact ready_enqueueAll_of_not_mem (b := enqueue key payload b queue) hname
      · have hne : name ≠ queue := by
          rintro rfl
          exact hname h
        obtain ⟨number, hready⟩ := ih (b := enqueue key payload b name) hnames h
          ((contains_enqueue name).trans hq)
        exact ⟨number, hready.trans (by rw [ready_enqueue_of_ne hne])⟩

/-- **A message with the key of a binding reaches the queue of the binding**, once. -/
theorem reaches_of_bound (hname : exchange ≠ "") (hx : b.exchanges.contains exchange = true)
    (hq : b.queues.contains queue = true) (hb : ⟨queue, exchange, key⟩ ∈ b.bindings)
    (payload : ByteArray) :
    (b.publishOutside exchange key payload).1 = true ∧
      ∃ copy : Copy, copy.payload = payload ∧ copy.key = key ∧
        (b.publishOutside exchange key payload).2.ready queue = b.ready queue ++ [copy] := by
  have hmem := mem_route_of_bound hname hx hq hb
  constructor
  · unfold publishOutside
    simpa using List.ne_nil_of_mem hmem
  · obtain ⟨number, hready⟩ := ready_enqueueAll (nodup_route b exchange key) hmem hq
    exact ⟨_, rfl, rfl, hready⟩

end QueueRelay.Broker

/-
The account of clients that make sure of one topology on one broker.

Whatever order they take turns in, the broker differs from what it was at the start in four
respects only: some objects that were missing are there, some keys are bound, some clients
have lost the channel they began with, and what these had out is back in front of its queues.
`Tally` says so of any moment, for one client or many, and there is one lemma for each thing
that a client can bring about.

The clients that lost a channel are listed, the latest first, because that is the order in
which their deliveries stand in front of a queue.
-/
import QueueRelay.Proofs.Broker.Bindings
import QueueRelay.Proofs.Topology.Calls

namespace QueueRelay.Topology

open Broker

variable {ι : Type}

/-- What clients did so far. -/
structure Work (ι : Type) where
  /-- The objects that were made. -/
  made : Item → Bool := fun _ => false
  /-- The clients that lost a channel, the latest first. -/
  order : List ι := []
  /-- The keys that were bound, the latest first. -/
  keys : List String := []

namespace Work

/-- A client loses its channel. -/
def lose [DecidableEq ι] (k : Work ι) (i : ι) : Work ι :=
  if i ∈ k.order then k else { k with order := i :: k.order }

/-- An object is made. -/
def make (k : Work ι) (x : Item) : Work ι := { k with made := Function.update k.made x true }

/-- A key is bound. -/
def bind (k : Work ι) (key : String) : Work ι := { k with keys := key :: k.keys }

section

variable [DecidableEq ι] {k : Work ι} {i j : ι} {x y : Item}

@[simp] theorem made_lose : (k.lose i).made = k.made := by
  unfold lose
  split <;> rfl

@[simp] theorem keys_lose : (k.lose i).keys = k.keys := by
  unfold lose
  split <;> rfl

theorem order_lose : (k.lose i).order = if i ∈ k.order then k.order else i :: k.order := by
  unfold lose
  split <;> rfl

theorem mem_order_lose : j ∈ (k.lose i).order ↔ j = i ∨ j ∈ k.order := by
  rw [order_lose]
  split
  · rename_i hi
    constructor
    · exact .inr
    · rintro (rfl | hj)
      · exact hi
      · exact hj
  · exact List.mem_cons

theorem nodup_lose (h : k.order.Nodup) : (k.lose i).order.Nodup := by
  rw [order_lose]
  split
  · exact h
  · rename_i hi
    exact List.nodup_cons.2 ⟨hi, h⟩

end

theorem made_make {k : Work ι} {x y : Item} :
    (k.make x).made y = true ↔ y = x ∨ k.made y = true := by
  unfold make
  by_cases hyx : y = x
  · subst hyx
    simp
  · simp [hyx]

end Work

/-- What the clients in a list have out of a queue at the start, as it comes back. -/
def returns (b₀ : Broker) (s₀ : ι → Session) (order : List ι) (queue : String) : List Copy :=
  order.flatMap fun i => b₀.owed (s₀ i).channel queue

/-- The bindings of a topology under some keys. -/
def Binds (t : Topology) (keys : List String) (x : Binding) : Prop :=
  ∃ key ∈ keys, x = ⟨t.queue, t.exchange, key⟩

/-- The broker `b` and the sessions `ss` are what `b₀` and `s₀` become by some work. -/
structure Tally (t : Topology) (b₀ : Broker) (s₀ : ι → Session) (k : Work ι) (b : Broker)
    (ss : ι → Session) : Prop where
  placed : b.Placed
  ordered : InOrder b.bindings
  denies : b.deniesDeclarations = b₀.deniesDeclarations
  connections : b.connections = b₀.connections
  exchanges : b.exchanges =
    if k.made .exchange then
      b₀.exchanges.set t.exchange { kind := t.kind, durable := t.durable }
    else b₀.exchanges
  queues : b.queues =
    (if k.made .queue then b₀.queues.set t.queue { durable := t.durable }
      else b₀.queues).mapWith fun name q => q.behind (returns b₀ s₀ k.order name)
  bindings : ∀ x, x ∈ b.bindings ↔ x ∈ b₀.bindings ∨ t.Binds k.keys x
  /-- Only what was missing is made, and only where that is allowed. -/
  missing : ∀ x, k.made x = true → t.has b₀ x = false ∧ b₀.deniesDeclarations = false
  /-- Nothing is bound before the exchange and the queue are there. -/
  rooted : k.keys ≠ [] → ∀ x, t.has b x = true
  nodup : k.order.Nodup
  connection : ∀ i, (ss i).connection = (s₀ i).connection
  known : ∀ i, (ss i).channel ≤ b.lastId
  /-- No two clients have the same channel. -/
  apart : ∀ i j, (ss i).channel = (ss j).channel → i = j
  /-- Who lost a channel has nothing out. -/
  returned : ∀ i ∈ k.order, ∀ queue, b.owed (ss i).channel queue = []
  /-- Who did not lose a channel has out what it had. -/
  keeps : ∀ i, i ∉ k.order → ss i = s₀ i ∧
    ∀ queue, b.owed (s₀ i).channel queue = b₀.owed (s₀ i).channel queue

variable {t : Topology} {b₀ b : Broker} {s₀ ss : ι → Session} {k : Work ι} {x : Item}

/-- The account at the start. -/
theorem tally_start (hb : b₀.Placed) (ho : InOrder b₀.bindings)
    (hs : ∀ i, b₀.check (s₀ i) = .ok ())
    (hapart : ∀ i j, (s₀ i).channel = (s₀ j).channel → i = j) : t.Tally b₀ s₀ {} b₀ s₀ where
  placed := hb
  ordered := ho
  denies := rfl
  connections := rfl
  exchanges := rfl
  queues := (Table.mapWith_eq_self fun _ _ _ => rfl).symm
  bindings := by
    intro x
    simp [Binds]
  missing := by simp
  rooted := by simp
  nodup := List.nodup_nil
  connection := fun _ => rfl
  known := by
    intro i
    obtain ⟨lane, hl, -⟩ := lane_of_check (hs i)
    exact hb.sound.known _ (Table.mem_keys_of_get? hl)
  apart := hapart
  returned := by simp
  keeps := fun _ _ => ⟨rfl, fun _ => rfl⟩

namespace Tally

/-- An object is there if it was there or was made. -/
theorem has_eq (h : t.Tally b₀ s₀ k b ss) (x : Item) :
    t.has b x = true ↔ t.has b₀ x = true ∨ k.made x = true := by
  cases x with
  | exchange =>
      rw [has_exchange, h.exchanges, has_exchange]
      split
      · rename_i hmade
        simp [Table.contains_set, hmade]
      · rename_i hmade
        simp [hmade]
  | queue =>
      rw [has_queue, h.queues, Table.contains_mapWith, has_queue]
      split
      · rename_i hmade
        simp [Table.contains_set, hmade]
      · rename_i hmade
        simp [hmade]

/-- What was missing at the start and is there now is what the topology says. -/
theorem alike (h : t.Tally b₀ s₀ k b ss) (h₀ : t.has b₀ x = false) (hx : t.has b x = true) :
    t.Alike b x := by
  have hmade : k.made x = true := by
    rcases (h.has_eq x).1 hx with hx | hx
    · rw [h₀] at hx
      cases hx
    · exact hx
  cases x with
  | exchange =>
      unfold Alike
      rw [h.exchanges, if_pos hmade, Table.get?_set, if_pos rfl]
  | queue =>
      refine ⟨returns b₀ s₀ k.order t.queue ++ [], ?_⟩
      rw [h.queues, if_pos hmade, Table.get?_mapWith, Table.get?_set, if_pos rfl]
      rfl

/-- Once both objects are there, those that were missing were made. -/
theorem made_eq (h : t.Tally b₀ s₀ k b ss) (hall : ∀ x, t.has b x = true) (x : Item) :
    k.made x = !t.has b₀ x := by
  cases hx : t.has b₀ x with
  | true =>
      cases hk : k.made x with
      | false => rfl
      | true =>
          rw [(h.missing x hk).1] at hx
          cases hx
  | false => exact ((h.has_eq x).1 (hall x)).resolve_left (by rw [hx]; exact Bool.false_ne_true)

theorem exchanges_eq (h : t.Tally b₀ s₀ k b ss) (hall : ∀ x, t.has b x = true) :
    b.exchanges =
      if t.has b₀ .exchange then b₀.exchanges
      else b₀.exchanges.set t.exchange { kind := t.kind, durable := t.durable } := by
  rw [h.exchanges, h.made_eq hall]
  cases t.has b₀ .exchange <;> rfl

theorem queues_eq (h : t.Tally b₀ s₀ k b ss) (hall : ∀ x, t.has b x = true) :
    b.queues =
      (if t.has b₀ .queue then b₀.queues
        else b₀.queues.set t.queue { durable := t.durable }).mapWith fun name q =>
          q.behind (returns b₀ s₀ k.order name) := by
  rw [h.queues, h.made_eq hall]
  cases t.has b₀ .queue <;> rfl

/-- Writing down what is about no copy changes nothing. -/
theorem record (h : t.Tally b₀ s₀ k b ss) {e : Event} (hm : e.made? = none)
    (hg : e.gone? = none) : t.Tally b₀ s₀ k (b.record e) ss :=
  { h with placed := (shifts_record h.placed hm hg).placed }

theorem record_event (h : t.Tally b₀ s₀ k b ss) (x : Item) (how : Declaration) :
    t.Tally b₀ s₀ k (b.record (t.event x how)) ss := by
  cases x <;> exact h.record rfl rfl

/-- A client loses its channel, and what it had out goes back. -/
theorem lose [DecidableEq ι] (h : t.Tally b₀ s₀ k b ss) (i : ι) (reason : String) :
    t.Tally b₀ s₀ (k.lose i) (b.closeChannel (ss i).channel reason) ss := by
  have hne : ∀ j, j ≠ i → (ss j).channel ≠ (ss i).channel := fun j hj hc => hj (h.apart j i hc)
  exact
    { placed := (shifts_closeChannel h.placed _ reason).placed
      ordered := by
        rw [bindings_closeChannel]
        exact h.ordered
      denies := (denies_closeChannel _ _).trans h.denies
      connections := (connections_closeChannel _ _).trans h.connections
      exchanges := by rw [exchanges_closeChannel, Work.made_lose, h.exchanges]
      queues := by
        rw [queues_closeChannel h.placed.sound, h.queues, Work.made_lose, Work.order_lose,
          Table.mapWith_mapWith]
        refine Table.mapWith_congr fun name q _ => ?_
        rw [Queue.behind_behind]
        by_cases hi : i ∈ k.order
        · -- who lost a channel before has nothing to give back
          rw [h.returned i hi, List.nil_append, if_pos hi]
        · rw [(h.keeps i hi).1, (h.keeps i hi).2, if_neg hi]
          rfl
      bindings := by
        rw [bindings_closeChannel, Work.keys_lose]
        exact h.bindings
      missing := by
        rw [Work.made_lose]
        exact h.missing
      rooted := by
        rw [Work.keys_lose]
        intro hne x
        rw [has_closeChannel h.placed.sound]
        exact h.rooted hne x
      nodup := Work.nodup_lose h.nodup
      connection := h.connection
      known := by
        intro j
        rw [lastId_closeChannel]
        exact h.known j
      apart := h.apart
      returned := by
        intro j hj queue
        by_cases hji : j = i
        · subst hji
          exact owed_closeChannel_self h.placed.sound _ reason
        · rw [owed_closeChannel h.placed.sound reason (hne j hji)]
          exact h.returned j ((Work.mem_order_lose.1 hj).resolve_left hji) queue
      keeps := by
        intro j hj
        have hji : j ≠ i := fun hji => hj (Work.mem_order_lose.2 (.inl hji))
        obtain ⟨hs, howed⟩ := h.keeps j fun hjk => hj (Work.mem_order_lose.2 (.inr hjk))
        refine ⟨hs, fun queue => ?_⟩
        rw [owed_closeChannel h.placed.sound reason (hs ▸ hne j hji)]
        exact howed queue }

/-- A client that lost its channel gets a fresh one. -/
theorem openChannel [DecidableEq ι] (h : t.Tally b₀ s₀ k b ss) {i : ι} (hi : i ∈ k.order)
    (hc : (ss i).connection ∈ b.connections) :
    t.Tally b₀ s₀ k (b.openChannel (ss i).connection)
      (Function.update ss i ⟨(ss i).connection, b.lastId + 1⟩) :=
  { h with
    placed := (shifts_openChannel h.placed hc).placed
    connection := by
      intro j
      by_cases hj : j = i
      · subst hj
        rw [Function.update_self]
        exact h.connection j
      · rw [Function.update_of_ne hj]
        exact h.connection j
    known := by
      intro j
      by_cases hj : j = i
      · subst hj
        rw [Function.update_self]
        exact Nat.le_refl _
      · rw [Function.update_of_ne hj]
        exact Nat.le_succ_of_le (h.known j)
    apart := by
      -- the new channel has a number that none of the others has
      have hnew : ∀ j, (ss j).channel ≠ b.lastId + 1 := fun j => Nat.ne_of_lt
        (Nat.lt_succ_of_le (h.known j))
      intro j l hjl
      by_cases hj : j = i
      · by_cases hl : l = i
        · rw [hj, hl]
        · rw [hj, Function.update_self, Function.update_of_ne hl] at hjl
          exact absurd hjl.symm (hnew l)
      · by_cases hl : l = i
        · rw [hl, Function.update_self, Function.update_of_ne hj] at hjl
          exact absurd hjl (hnew j)
        · rw [Function.update_of_ne hj, Function.update_of_ne hl] at hjl
          exact h.apart j l hjl
    returned := by
      intro j hj queue
      rw [owed_openChannel h.placed.sound]
      by_cases hji : j = i
      · subst hji
        rw [Function.update_self]
        exact owed_eq_nil (not_mem_loans_of_lt h.placed.sound (Nat.lt_succ_self _))
      · rw [Function.update_of_ne hji]
        exact h.returned j hj queue
    keeps := by
      intro j hj
      have hji : j ≠ i := by
        rintro rfl
        exact hj hi
      rw [Function.update_of_ne hji]
      refine ⟨(h.keeps j hj).1, fun queue => ?_⟩
      rw [owed_openChannel h.placed.sound]
      exact (h.keeps j hj).2 queue }

/-- An object that is missing is made. -/
theorem put (h : t.Tally b₀ s₀ k b ss) (h₀ : b₀.Placed)
    (hd : b₀.deniesDeclarations = false) (hx : t.has b x = false) :
    t.Tally b₀ s₀ (k.make x) (t.put b x) ss := by
  have hnot : ¬ (t.has b₀ x = true ∨ k.made x = true) := by
    rw [← h.has_eq x, hx]
    exact Bool.false_ne_true
  obtain ⟨hx₀, hmade⟩ := not_or.1 hnot
  have hmissing : ∀ y, (k.make x).made y = true →
      t.has b₀ y = false ∧ b₀.deniesDeclarations = false := by
    intro y hy
    rcases Work.made_make.1 hy with rfl | hy
    · exact ⟨by simpa using hx₀, hd⟩
    · exact h.missing y hy
  have hrooted : (k.make x).keys ≠ [] → ∀ y, t.has (t.put b x) y = true :=
    fun hne y => has_put.2 (.inr (h.rooted hne y))
  cases x with
  | exchange =>
      have hshifts : Shifts [] b (t.put b .exchange) :=
        shifts_arranged h.placed rfl rfl rfl rfl rfl rfl
      exact
        { h with
          placed := hshifts.placed
          exchanges := by
            show b.exchanges.set _ _ = _
            rw [h.exchanges, if_neg hmade, if_pos (Work.made_make.2 (.inl rfl))]
          queues := h.queues
          missing := hmissing
          rooted := hrooted }
  | queue =>
      have hfree : t.queue ∉ b₀.queues.keys := by
        intro hk
        exact hx₀ (Table.contains_iff.2 hk)
      have hnothing : returns b₀ s₀ k.order t.queue = [] := by
        refine List.flatMap_eq_nil_iff.2 fun i _ => ?_
        exact owed_of_missing h₀ (by simpa [has] using hx₀)
      exact
        { h with
          placed := (shifts_newQueue h.placed hx rfl).placed
          exchanges := h.exchanges
          queues := by
            show b.queues.set _ _ = _
            rw [h.queues, if_neg hmade, if_pos (Work.made_make.2 (.inl rfl))]
            refine Table.mapWith_set hfree ?_
            rw [hnothing, Queue.behind_nil]
          missing := hmissing
          rooted := hrooted }

/-- A key is bound. -/
theorem bind (h : t.Tally b₀ s₀ k b ss) (hx : ∀ x, t.has b x = true) (key : String) :
    t.Tally b₀ s₀ (k.bind key) (b.addBinding ⟨t.queue, t.exchange, key⟩) ss :=
  { h with
    placed := (shifts_addBinding h.placed _).placed
    ordered := inOrder_insertBinding _ h.ordered
    bindings := by
      intro x
      show x ∈ insertBinding _ b.bindings ↔ _
      rw [mem_insertBinding, h.bindings]
      simp only [Binds, Work.bind, List.mem_cons, exists_eq_or_imp]
      exact or_left_comm
    rooted := fun _ => hx }

end Tally

end QueueRelay.Topology

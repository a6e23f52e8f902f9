/-
The bindings of a broker, in order.

A broker keeps its bindings in the order of queue, exchange and key, and none of them twice.
So the list of them says no more than which bindings there are: two brokers that have the
same bindings have the same list, in whatever order they came to them, and to add a binding
that is there changes nothing.

The order is that of the triples.  That insertion keeps it is an induction on the list; that
every broker has it is one on what was done to the broker, of which only binding touches the
list at all.
-/
import Mathlib.Data.Prod.Lex
import Mathlib.Data.String.Basic
import QueueRelay.Proofs.Broker.Deeds

namespace QueueRelay.Broker

open Simulation

variable {b b' : Broker} {s : Session} {x y z : Binding} {l l' : List Binding}

/-! ### The order -/

/-- Where a binding stands among others. -/
def Binding.place (x : Binding) : String ×ₗ String ×ₗ String :=
  toLex (x.queue, toLex (x.exchange, x.key))

theorem Binding.place_injective : Function.Injective Binding.place := by
  intro x y h
  obtain ⟨hq, h⟩ := Prod.mk.inj (toLex_inj.1 h)
  obtain ⟨he, hk⟩ := Prod.mk.inj (toLex_inj.1 h)
  cases x
  cases y
  cases hq
  cases he
  cases hk
  rfl

theorem Binding.before_iff : x.before y = true ↔ x.place < y.place := by
  unfold before place
  by_cases hq : x.queue = y.queue
  · by_cases he : x.exchange = y.exchange
    · simp [hq, he, Prod.Lex.toLex_lt_toLex]
    · simp [hq, he, Prod.Lex.toLex_lt_toLex]
  · simp [hq, Prod.Lex.toLex_lt_toLex]

/-- Each binding stands before those that follow it. -/
def InOrder (l : List Binding) : Prop := l.Pairwise fun x y => x.place < y.place

/-! ### Inserting -/

theorem mem_insertBinding : y ∈ insertBinding x l ↔ y = x ∨ y ∈ l := by
  induction l with
  | nil => exact List.mem_singleton.trans (by simp)
  | cons z l ih =>
      unfold insertBinding
      split
      · rename_i hxz
        subst hxz
        simp
      · split
        · exact List.mem_cons
        · rw [List.mem_cons, ih, List.mem_cons]
          exact or_left_comm

theorem inOrder_insertBinding (x : Binding) (h : InOrder l) : InOrder (insertBinding x l) := by
  induction l with
  | nil => exact List.pairwise_singleton _ _
  | cons z l ih =>
      obtain ⟨hz, hl⟩ := List.pairwise_cons.1 h
      unfold insertBinding
      split
      · exact h
      · rename_i hne
        split
        · rename_i hxz
          have hlt : x.place < z.place := Binding.before_iff.1 hxz
          refine List.pairwise_cons.2 ⟨?_, h⟩
          intro y hy
          rcases List.mem_cons.1 hy with rfl | hy
          · exact hlt
          · exact lt_trans hlt (hz y hy)
        · rename_i hxz
          -- what is not before another binding and is not that binding comes after it
          have hlt : z.place < x.place := by
            rcases lt_trichotomy x.place z.place with hlt | heq | hlt
            · exact absurd (Binding.before_iff.2 hlt) hxz
            · exact absurd (Binding.place_injective heq) hne
            · exact hlt
          refine List.pairwise_cons.2 ⟨?_, ih hl⟩
          intro y hy
          rcases mem_insertBinding.1 hy with rfl | hy
          · exact hlt
          · exact hz y hy

/-- **Ordered lists with the same bindings are the same.** -/
theorem InOrder.eq_of_mem (h : InOrder l) (h' : InOrder l') (hmem : ∀ x, x ∈ l ↔ x ∈ l') :
    l = l' := by
  have hnodup : ∀ {l : List Binding}, InOrder l → l.Nodup := by
    intro l hl
    refine hl.imp ?_
    rintro x y hxy rfl
    exact lt_irrefl _ hxy
  have hperm : l.Perm l' := (List.perm_ext_iff_of_nodup (hnodup h) (hnodup h')).2 hmem
  refine hperm.eq_of_pairwise ?_ h h'
  intro x y _ _ hxy hyx
  exact absurd hxy (lt_asymm hyx)

/-! ### Every broker -/

@[simp] theorem bindings_closeChannel (k : Nat) (reason : String) :
    (b.closeChannel k reason).bindings = b.bindings := by
  unfold closeChannel
  split
  · split <;> rfl
  · rfl

theorem bindings_closeConnection (c : Nat) (reason : String) :
    (b.closeConnection c reason).bindings = b.bindings := by
  have hall : ∀ (ks : List Nat) (b : Broker),
      (b.closeAll ks reason).bindings = b.bindings := by
    intro ks
    induction ks with
    | nil => exact fun _ => rfl
    | cons k ks ih => exact fun b => (ih _).trans (bindings_closeChannel k reason)
  rw [closeConnection_eq]
  exact hall _ b

theorem bindings_dropConnections : b.dropConnections.bindings = b.bindings := by
  unfold dropConnections
  generalize b.connections = cs
  induction cs generalizing b with
  | nil => rfl
  | cons c cs ih => exact ih.trans (bindings_closeConnection c _)

theorem bindings_enqueueAll (key : String) (payload : ByteArray) (names : List String) :
    (b.enqueueAll key payload names).bindings = b.bindings := by
  unfold enqueueAll
  induction names generalizing b with
  | nil => rfl
  | cons name names ih => exact ih

/-- What a call does to the bindings is what it does on an open session. -/
theorem bindings_guarded {α : Type} {act : Broker → Except LinkError α × Broker}
    (hact : (act b).2.bindings = b.bindings) : (b.guarded s act).2.bindings = b.bindings := by
  unfold guarded
  split
  · exact hact
  · rfl

theorem bindings_connect : b.connect.2.bindings = b.bindings := by
  unfold connect
  split <;> rfl

theorem bindings_take (t : Stream) : (b.take t).2.bindings = b.bindings := by
  unfold take
  split
  · split <;> rfl
  · rfl

theorem bindings_declareExchange (name : String) (kind : ExchangeKind) (how : Declaration) :
    (b.declareExchange s name kind how).2.bindings = b.bindings := by
  refine bindings_guarded ?_
  dsimp only
  split
  · exact bindings_closeChannel _ _
  · split <;> rfl

theorem bindings_declareQueue (name : String) (how : Declaration) :
    (b.declareQueue s name how).2.bindings = b.bindings := by
  refine bindings_guarded ?_
  dsimp only
  split
  · exact bindings_closeChannel _ _
  · split <;> rfl

theorem bindings_publish (exchange key : String) (payload : ByteArray)
    (options : PublishOptions) :
    (b.publish s exchange key payload options).2.bindings = b.bindings := by
  refine bindings_guarded ?_
  split
  · exact bindings_closeChannel _ _
  · split
    · rfl
    · dsimp only
      split
      · rfl
      · exact bindings_enqueueAll _ _ _

theorem bindings_consume (name : String) : (b.consume s name).2.bindings = b.bindings := by
  refine bindings_guarded ?_
  split
  · rfl
  · exact bindings_closeChannel _ _

theorem bindings_ack (tag : DeliveryTag) : (b.ack s tag).2.bindings = b.bindings := by
  refine bindings_guarded ?_
  split
  · rfl
  · exact bindings_closeChannel _ _

theorem bindings_nack (tag : DeliveryTag) (requeue : Bool) :
    (b.nack s tag requeue).2.bindings = b.bindings := by
  refine bindings_guarded ?_
  split
  · dsimp only
    split <;> rfl
  · exact bindings_closeChannel _ _

theorem bindings_reopen (s : Session) : (b.reopen s).2.2.bindings = b.bindings := by
  unfold reopen
  split
  · exact bindings_closeChannel _ _
  · rfl

theorem inOrder_bind (h : InOrder b.bindings) (x : Binding) :
    InOrder (b.bind s x).2.bindings := by
  unfold bind guarded
  split
  · dsimp only
    split
    · exact inOrder_insertBinding x h
    · rw [refuse, bindings_closeChannel]
      exact h
  · exact h

/-- A call on a session keeps the bindings in order. -/
theorem inOrder_answer (h : InOrder b.bindings) (s : Session) (k : Channel.Call) :
    InOrder (b.answer s k).2.2.bindings := by
  have hsame : ∀ b' : Broker, b'.bindings = b.bindings → InOrder b'.bindings := by
    intro b' hb
    rw [hb]
    exact h
  cases k with
  | declareExchange name kind how => exact hsame _ (bindings_declareExchange name kind how)
  | declareQueue name how => exact hsame _ (bindings_declareQueue name how)
  | bind queue exchange key => exact inOrder_bind h _
  | setPrefetch count =>
      exact hsame (b.setPrefetch s count).2 (bindings_guarded rfl)
  | publish exchange key payload options =>
      exact hsame _ (bindings_publish exchange key payload options)
  | consume queue tag => exact hsame _ (bindings_consume queue)
  | ack tag => exact hsame _ (bindings_ack tag)
  | nack tag requeue => exact hsame _ (bindings_nack tag requeue)
  | reopen => exact hsame _ (bindings_reopen s)

theorem inOrder_provision (h : InOrder b.bindings) : InOrder (provision b).bindings := by
  have hall : ∀ (keys : List String) (b : Broker), InOrder b.bindings →
      InOrder (keys.foldl (fun b key =>
        b.addBinding ⟨Topology.standard.queue, Topology.standard.exchange, key⟩) b).bindings := by
    intro keys
    induction keys with
    | nil => exact fun _ hb => hb
    | cons key keys ih => exact fun b hb => ih _ (inOrder_insertBinding _ hb)
  refine hall _ _ ?_
  have hqueue : ∀ (b : Broker) (name : String), (b.ensureQueue name).bindings = b.bindings := by
    intro b name
    unfold ensureQueue
    split <;> rfl
  rw [hqueue]
  unfold ensureExchange
  split <;> exact h

/-- What is done to a broker without a session keeps its bindings in order. -/
theorem inOrder_applyToBroker (h : InOrder b.bindings) (c : BrokerCall) :
    InOrder (applyToBroker c b).bindings := by
  cases c with
  | declareQueue name =>
      show InOrder (b.ensureQueue name).bindings
      unfold ensureQueue
      split <;> exact h
  | declareExchange name kind =>
      show InOrder (b.ensureExchange name kind).bindings
      unfold ensureExchange
      split <;> exact h
  | bind x => exact inOrder_insertBinding x h
  | provision => exact inOrder_provision h
  | refuseConnects | denyDeclarations | nackPublishes => exact h
  | dropConnections =>
      show InOrder b.dropConnections.bindings
      rw [bindings_dropConnections]
      exact h

theorem inOrder_doing (h : InOrder b.bindings) (d : Deed) : InOrder (b.doing d).bindings := by
  cases d with
  | published exchange key payload =>
      show InOrder (b.enqueueAll key payload _).bindings
      rw [bindings_enqueueAll]
      exact h
  | operated c => exact inOrder_applyToBroker h c
  | connected =>
      show InOrder b.connect.2.bindings
      rw [bindings_connect]
      exact h
  | asked s k => exact inOrder_answer h s k
  | took t =>
      show InOrder (b.take t).2.bindings
      rw [bindings_take]
      exact h
  | closed s =>
      show InOrder (b.closeConnection _ _).bindings
      rw [bindings_closeConnection]
      exact h

/-- **Whatever was done to a broker, its bindings are in order.** -/
theorem inOrder_after (deeds : List Deed) : InOrder (after deeds).bindings := by
  have hall : ∀ b : Broker, InOrder b.bindings → InOrder (deeds.foldl doing b).bindings := by
    induction deeds with
    | nil => exact fun _ hb => hb
    | cons d deeds ih => exact fun b hb => ih _ (inOrder_doing hb d)
  exact hall {} List.Pairwise.nil

end QueueRelay.Broker

/-
What has ended at a broker has ended for good.

Connections and channels get numbers that were never given before, and no number is given
twice.  So a connection that is gone does not come back, and neither does a channel that was
closed: what is open after anything that can happen was open before, or is new.  A session
that does not report itself open will never do so again.
-/
import QueueRelay.Proofs.Broker.Returns
import QueueRelay.Simulation.Perform

namespace QueueRelay.Broker

open Simulation

variable {b b' b'' : Broker} {s : Session} {α : Type}

/-- What is open after a change was open before, or has a number that was not given before; a
connection has one that is given by then. -/
structure Onward (b b' : Broker) : Prop where
  lastId : b.lastId ≤ b'.lastId
  connections : ∀ c ∈ b'.connections, c ∈ b.connections ∨ b.lastId < c ∧ c ≤ b'.lastId
  channels : ∀ k lane', b'.channels.get? k = some lane' → lane'.isOpen = true →
    (∃ lane, b.channels.get? k = some lane ∧ lane.isOpen = true) ∨ b.lastId < k

/-- A session whose numbers were given. -/
structure Given (b : Broker) (s : Session) : Prop where
  connection : s.connection ≤ b.lastId
  channel : s.channel ≤ b.lastId

/-- A session that was given and does not report itself open. -/
structure Ended (b : Broker) (s : Session) : Prop extends b.Given s where
  isOpen : b.isOpen s = false

theorem isOpen_iff : b.isOpen s = true ↔ s.connection ∈ b.connections ∧
    ∃ lane, b.channels.get? s.channel = some lane ∧ lane.isOpen = true := by
  unfold isOpen
  constructor
  · intro h
    split at h
    · rename_i u hu
      exact ⟨connected_of_check hu, lane_of_check hu⟩
    · cases h
  · rintro ⟨hc, lane, hl, ho⟩
    have hcheck : b.check s = .ok () := by
      unfold check
      simp [hc, hl, ho]
    rw [hcheck]

namespace Onward

theorem refl (b : Broker) : Onward b b :=
  ⟨Nat.le_refl _, fun _ hc => .inl hc, fun _ lane hl ho => .inl ⟨lane, hl, ho⟩⟩

theorem trans (h : Onward b b') (h' : Onward b' b'') : Onward b b'' where
  lastId := Nat.le_trans h.lastId h'.lastId
  connections := by
    intro c hc
    rcases h'.connections c hc with hc | ⟨hlt, hle⟩
    · exact (h.connections c hc).imp_right fun hc => ⟨hc.1, Nat.le_trans hc.2 h'.lastId⟩
    · exact .inr ⟨Nat.lt_of_le_of_lt h.lastId hlt, hle⟩
  channels := by
    intro k lane'' hl ho
    rcases h'.channels k lane'' hl ho with ⟨lane', hl', ho'⟩ | hk
    · exact h.channels k lane' hl' ho'
    · exact .inr (Nat.lt_of_le_of_lt h.lastId hk)

theorem given (h : Onward b b') (hs : b.Given s) : b'.Given s :=
  ⟨Nat.le_trans hs.connection h.lastId, Nat.le_trans hs.channel h.lastId⟩

/-- **A session that ended stays so.** -/
theorem ended (h : Onward b b') (hs : b.Ended s) : b'.Ended s where
  toGiven := h.given hs.toGiven
  isOpen := by
    rw [← Bool.not_eq_true, isOpen_iff]
    rintro ⟨hc, lane', hl, ho⟩
    have hclosed : ¬ b.isOpen s = true := by
      rw [hs.isOpen]
      exact Bool.false_ne_true
    refine hclosed (isOpen_iff.2 ⟨?_, ?_⟩)
    · exact (h.connections _ hc).resolve_right fun h => Nat.not_lt.2 hs.connection h.1
    · exact (h.channels _ lane' hl ho).resolve_right (Nat.not_lt.2 hs.channel)

/-! ### Connections and channels -/

/-- A change beside connections and channels. -/
theorem of_eq (hc : b'.channels = b.channels) (hn : b'.connections = b.connections)
    (hi : b'.lastId = b.lastId) : Onward b b' where
  lastId := Nat.le_of_eq hi.symm
  connections := fun _ h => .inl (hn ▸ h)
  channels := fun _ lane hl ho => .inl ⟨lane, hc ▸ hl, ho⟩

/-- A channel changes, but is not opened. -/
theorem of_lane {k : Nat} {lane : Lane} (lane' : Lane) (hl : b.channels.get? k = some lane)
    (ho : lane'.isOpen = true → lane.isOpen = true) (hc : b'.channels = b.channels.set k lane')
    (hn : b'.connections = b.connections) (hi : b'.lastId = b.lastId) : Onward b b' where
  lastId := Nat.le_of_eq hi.symm
  connections := fun c h => .inl (hn ▸ h)
  channels := by
    intro j lane'' hj hopen
    rw [hc, Table.get?_set] at hj
    split at hj
    · rename_i hkj
      cases hj
      exact .inl ⟨lane, hkj ▸ hl, ho hopen⟩
    · exact .inl ⟨lane'', hj, hopen⟩

theorem modifyLane {f : Lane → Lane} (hf : ∀ lane, (f lane).isOpen = lane.isOpen) :
    Onward b (b.modifyLane s f) where
  lastId := Nat.le_refl _
  connections := fun _ h => .inl h
  channels := by
    intro k lane' hl ho
    refine .inl ?_
    change (b.channels.modify s.channel f).get? k = some lane' at hl
    rw [Table.get?_modify] at hl
    split at hl
    · obtain ⟨lane, hlane, rfl⟩ := Option.map_eq_some_iff.1 hl
      exact ⟨lane, hlane, (hf lane) ▸ ho⟩
    · exact ⟨lane', hl, ho⟩

theorem closeChannel (b : Broker) (k : Nat) (reason : String) :
    Onward b (b.closeChannel k reason) where
  lastId := Nat.le_of_eq (lastId_closeChannel k reason).symm
  connections := fun c h => .inl (by rwa [connections_closeChannel] at h)
  channels := fun _ lane hl ho => .inl ⟨lane, (open_of_closeChannel hl ho).2, ho⟩

/-- What each of several changes keeps. -/
theorem foldl {γ : Type} {f : Broker → γ → Broker} (hf : ∀ b c, Onward b (f b c)) (l : List γ)
    (b : Broker) : Onward b (l.foldl f b) := by
  induction l generalizing b with
  | nil => exact .refl b
  | cons c l ih => exact (hf b c).trans (ih _)

theorem closeConnection (b : Broker) (c : Nat) (reason : String) :
    Onward b (b.closeConnection c reason) := by
  have hleft : Onward b { b with connections := b.connections.filter (· ≠ c) } :=
    { refl b with connections := fun _ h => .inl (List.mem_of_mem_filter h) }
  exact hleft.trans (foldl (fun b k => closeChannel b k reason) _ _)

theorem openChannel (b : Broker) (c : Nat) : Onward b (b.openChannel c) where
  lastId := Nat.le_succ _
  connections := fun _ h => .inl h
  channels := by
    intro k lane hl ho
    rw [get?_openChannel] at hl
    split at hl
    · rename_i hk
      exact .inr (hk ▸ Nat.lt_succ_self _)
    · exact .inl ⟨lane, hl, ho⟩

theorem connect (b : Broker) : Onward b b.connect.2 := by
  unfold Broker.connect
  split
  · exact of_eq rfl rfl rfl
  · have hnew : Onward b b.withConnection :=
      { refl b with
        lastId := Nat.le_succ _
        connections := by
          intro c hc
          rcases List.mem_append.1 hc with hc | hc
          · exact .inl hc
          · rw [List.mem_singleton.1 hc]
            exact .inr ⟨Nat.lt_succ_self _, Nat.le_refl _⟩ }
    exact hnew.trans (openChannel _ _)

theorem reopen (b : Broker) (s : Session) : Onward b (b.reopen s).2.2 := by
  unfold Broker.reopen
  split
  · exact (closeChannel b _ _).trans (openChannel _ _)
  · exact refl b

/-! ### Calls on a session -/

theorem guarded {act : Broker → Except LinkError α × Broker} (hact : Onward b (act b).2) :
    Onward b (b.guarded s act).2 := by
  unfold Broker.guarded
  split
  · exact hact
  · exact refl b

theorem refuse (reason : String) (e : LinkError) :
    Onward b (b.refuse (α := α) s reason e).2 :=
  closeChannel b _ _

theorem enqueueAll (b : Broker) (key : String) (payload : ByteArray) (names : List String) :
    Onward b (b.enqueueAll key payload names) :=
  foldl (f := enqueue key payload) (fun _ _ => of_eq rfl rfl rfl) names b

theorem declareExchange (name : String) (kind : ExchangeKind) (how : Declaration) :
    Onward b (b.declareExchange s name kind how).2 := by
  refine guarded ?_
  dsimp only
  split
  · exact refuse _ _
  · split <;> exact of_eq rfl rfl rfl

theorem declareQueue (name : String) (how : Declaration) :
    Onward b (b.declareQueue s name how).2 := by
  refine guarded ?_
  dsimp only
  split
  · exact refuse _ _
  · split <;> exact of_eq rfl rfl rfl

theorem bind (x : Binding) : Onward b (b.bind s x).2 := by
  refine guarded ?_
  split
  · exact of_eq rfl rfl rfl
  · exact refuse _ _

theorem setPrefetch (count : Nat) : Onward b (b.setPrefetch s count).2 :=
  guarded (modifyLane fun _ => rfl)

theorem publish (exchange key : String) (payload : ByteArray) (options : PublishOptions) :
    Onward b (b.publish s exchange key payload options).2 := by
  refine guarded ?_
  split
  · exact refuse _ _
  · split
    · exact of_eq rfl rfl rfl
    · dsimp only
      split
      · exact of_eq rfl rfl rfl
      · exact (enqueueAll b key payload _).trans (of_eq rfl rfl rfl)

theorem consume (queue : String) : Onward b (b.consume s queue).2 := by
  refine guarded ?_
  split
  · exact refl b
  · exact refuse _ _

theorem settle (tag : DeliveryTag) : Onward b (b.settle s tag) :=
  modifyLane fun _ => rfl

theorem ack (tag : DeliveryTag) : Onward b (b.ack s tag).2 := by
  refine guarded ?_
  split
  · exact (settle tag).trans (of_eq rfl rfl rfl)
  · exact refuse _ _

theorem nack (tag : DeliveryTag) (requeue : Bool) : Onward b (b.nack s tag requeue).2 := by
  refine guarded ?_
  split
  · dsimp only
    split <;> exact (settle tag).trans (of_eq rfl rfl rfl)
  · exact refuse _ _

theorem answer (b : Broker) (s : Session) (k : Channel.Call) : Onward b (b.answer s k).2.2 := by
  cases k with
  | declareExchange name kind how => exact declareExchange name kind how
  | declareQueue name how => exact declareQueue name how
  | bind queue exchange key => exact bind ⟨queue, exchange, key⟩
  | setPrefetch count => exact setPrefetch count
  | publish exchange key payload options => exact publish exchange key payload options
  | consume queue tag => exact consume queue
  | ack tag => exact ack tag
  | nack tag requeue => exact nack tag requeue
  | reopen => exact reopen b s

theorem take (b : Broker) (t : Stream) : Onward b (b.take t).2 := by
  unfold Broker.take
  split
  · rename_i lane hc hl
    split
    · exact of_lane { lane with
        lastTag := lane.lastTag + 1
        unacked := lane.unacked.set (lane.lastTag + 1) ⟨t.queue, _⟩ } hl id rfl rfl rfl
    · exact refl b
  · exact refl b

/-! ### Without a session -/

theorem ensureQueue (b : Broker) (name : String) : Onward b (b.ensureQueue name) := by
  unfold Broker.ensureQueue
  split <;> exact of_eq rfl rfl rfl

theorem ensureExchange (b : Broker) (name : String) (kind : ExchangeKind) :
    Onward b (b.ensureExchange name kind) := by
  unfold Broker.ensureExchange
  split <;> exact of_eq rfl rfl rfl

theorem provision (b : Broker) : Onward b (provision b) := by
  have hplaces : Onward b ((b.ensureExchange Topology.standard.exchange .direct).ensureQueue
      Topology.standard.queue) := (ensureExchange b _ _).trans (ensureQueue _ _)
  refine hplaces.trans ?_
  exact foldl (f := fun b key => b.addBinding ⟨Topology.standard.queue, _, key⟩)
    (fun _ _ => of_eq rfl rfl rfl) _ _

theorem applyToBroker (c : BrokerCall) (b : Broker) : Onward b (applyToBroker c b) := by
  cases c with
  | declareQueue name => exact ensureQueue b name
  | declareExchange name kind => exact ensureExchange b name kind
  | provision => exact provision b
  | bind | refuseConnects | denyDeclarations | nackPublishes => exact of_eq rfl rfl rfl
  | dropConnections => exact foldl (fun b c => closeConnection b c _) _ b

end Onward

/-! ### Sessions -/

theorem not_connected_closeSession (b : Broker) (s : Session) :
    s.connection ∉ (b.closeSession s).connections := by
  rw [closeSession, closeConnection_eq]
  simp

theorem given_connect (h : b.connect = (.ok s, b')) : b'.Given s := by
  unfold connect at h
  split at h
  · cases h
  · cases h
    exact ⟨Nat.le_succ _, Nat.le_refl _⟩

/-- The session after a call is the one before, or has a new channel on its connection. -/
theorem given_answer (h : b.Given s) (k : Channel.Call) :
    (b.answer s k).2.2.Given (b.answer s k).2.1 := by
  have hsame : (b.answer s k).2.2.Given s := (Onward.answer b s k).given h
  cases k with
  | reopen =>
      show (b.reopen s).2.2.Given (b.reopen s).2.1
      unfold reopen
      split
      · refine ⟨?_, Nat.le_refl _⟩
        refine Nat.le_trans h.connection ?_
        exact Nat.le_trans (Onward.closeChannel b _ _).lastId (Nat.le_succ _)
      · exact h
  | _ => exact hsame

end QueueRelay.Broker

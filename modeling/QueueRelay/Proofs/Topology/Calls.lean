/-
What a broker answers to one who makes sure of a topology.

The session is open whenever something is declared, so what counts is whether the object is
there, whether declarations are refused, and, when an object is declared that is there by
then, whether it is what was asked for.
-/
import QueueRelay.Proofs.Broker.Returns
import QueueRelay.Proofs.Topology.Course

namespace QueueRelay.Topology

open Broker

variable {t : Topology} {b : Broker} {s : Session} {x y : Item}

/-! ### Objects on a broker -/

/-- Whether a broker has an object of this name. -/
def has (t : Topology) (b : Broker) : Item → Bool
  | .exchange => b.exchanges.contains t.exchange
  | .queue => b.queues.contains t.queue

/-- The broker has the object, and it is what the topology says. -/
def Alike (t : Topology) (b : Broker) : Item → Prop
  | .exchange => b.exchanges.get? t.exchange = some { kind := t.kind, durable := t.durable }
  | .queue => ∃ ready, b.queues.get? t.queue = some { durable := t.durable, ready := ready }

/-- The broker with the object. -/
def put (t : Topology) (b : Broker) : Item → Broker
  | .exchange =>
    { b with exchanges := b.exchanges.set t.exchange { kind := t.kind, durable := t.durable } }
  | .queue => { b with queues := b.queues.set t.queue { durable := t.durable } }

/-- What is recorded of a declaration. -/
def event (t : Topology) (x : Item) (how : Declaration) : Event :=
  match x with
  | .exchange => .exchangeDeclared t.exchange how.isPassive
  | .queue => .queueDeclared t.queue how.isPassive

/-- Declares an object on a session. -/
def declareOn (t : Topology) (b : Broker) (s : Session) (x : Item) (how : Declaration) :
    Except LinkError Unit × Broker :=
  match x with
  | .exchange => b.declareExchange s t.exchange t.kind how
  | .queue => b.declareQueue s t.queue how

/-- The error of one who may not declare an object. -/
def denial (name : String) : LinkError := .rejected ("ACCESS_REFUSED: declare '" ++ name ++ "'")

theorem has_exchange : t.has b .exchange = b.exchanges.contains t.exchange := rfl

theorem has_queue : t.has b .queue = b.queues.contains t.queue := rfl

theorem has_put : t.has (t.put b x) y = true ↔ y = x ∨ t.has b y = true := by
  cases x with
  | exchange =>
      cases y with
      | exchange => simp [has_exchange, put, Table.contains_set]
      | queue => simp [has_queue, put]
  | queue =>
      cases y with
      | exchange => simp [has_exchange, put]
      | queue => simp [has_queue, put, Table.contains_set]

/-- No object is lost with a channel. -/
theorem has_closeChannel (h : b.Sound) (k : Nat) (reason : String) :
    t.has (b.closeChannel k reason) x = t.has b x := by
  cases x with
  | exchange => rw [has_exchange, exchanges_closeChannel, has_exchange]
  | queue => rw [has_queue, queues_closeChannel h, Table.contains_mapWith, has_queue]

/-! ### Answers -/

theorem guarded_of_check {α : Type} {act : Broker → Except LinkError α × Broker}
    (h : b.check s = .ok ()) : b.guarded s act = act b := by
  unfold guarded
  rw [h]

/-- What is answered to a declaration, and what becomes of the session and the broker. -/
theorem declareOn_of_declared {c : Channel.Call} {how : Declaration} {r : Except LinkError Unit}
    (h : ⟨c, (b.answer s c).1⟩ = t.declared (δ := Stream) x how r) :
    t.declareOn b s x how = (r, (b.answer s c).2.2) ∧ (b.answer s c).2.1 = s := by
  cases x <;>
    · cases h
      exact ⟨rfl, rfl⟩

theorem reopen_of_asked {c : Channel.Call} {r : Except LinkError Unit}
    (h : (⟨c, (b.answer s c).1⟩ : (Channel.calls Stream).Exchange) = ⟨.reopen, r⟩) :
    c = .reopen ∧ (b.reopen s).1 = r := by
  cases h
  exact ⟨rfl, rfl⟩

theorem bind_of_asked {c : Channel.Call} {z : Binding} {r : Except LinkError Unit}
    (h : (⟨c, (b.answer s c).1⟩ : (Channel.calls Stream).Exchange) =
      ⟨.bind z.queue z.exchange z.key, r⟩) :
    c = .bind z.queue z.exchange z.key ∧ (b.bind s z).1 = r := by
  cases h
  exact ⟨rfl, rfl⟩

/-- An object that is there is found. -/
theorem declareOn_found (h : b.check s = .ok ()) (hx : t.has b x = true) :
    t.declareOn b s x .passive = (.ok (), b.record (t.event x .passive)) := by
  cases x with
  | exchange =>
      obtain ⟨e, he⟩ := Table.exists_get?_of_contains hx
      simp [declareOn, declareExchange, guarded_of_check h, he, judge, Declaration.isPassive, event]
  | queue =>
      obtain ⟨q, hq⟩ := Table.exists_get?_of_contains hx
      simp [declareOn, declareQueue, guarded_of_check h, hq, judge, Declaration.isPassive, event]

/-- Who asks for an object that is not there loses the channel. -/
theorem declareOn_missed (h : b.check s = .ok ()) (hx : t.has b x = false) :
    t.declareOn b s x .passive =
      (.error (.notFound ("no object '" ++ t.nameOf x ++ "'")),
        b.closeChannel s.channel "NOT_FOUND") := by
  cases x with
  | exchange =>
      have he : b.exchanges.get? t.exchange = none := by
        simpa [has, Table.contains_eq_isSome] using hx
      simp [declareOn, declareExchange, guarded_of_check h, he, judge, Declaration.isPassive,
        refuse, nameOf]
  | queue =>
      have hq : b.queues.get? t.queue = none := by
        simpa [has, Table.contains_eq_isSome] using hx
      simp [declareOn, declareQueue, guarded_of_check h, hq, judge, Declaration.isPassive,
        refuse, nameOf]

/-- Where declarations are refused, who declares an object loses the channel. -/
theorem declareOn_denied (h : b.check s = .ok ()) (hd : b.deniesDeclarations = true) :
    t.declareOn b s x t.manner =
      (.error (denial (t.nameOf x)), b.closeChannel s.channel "ACCESS_REFUSED") := by
  cases x <;>
    simp [declareOn, declareExchange, declareQueue, guarded_of_check h, judge, manner, hd,
      Declaration.isPassive, refuse, nameOf, denial]

/-- An object that is not there is made. -/
theorem declareOn_made (h : b.check s = .ok ()) (hd : b.deniesDeclarations = false)
    (hx : t.has b x = false) :
    t.declareOn b s x t.manner = (.ok (), (t.put b x).record (t.event x t.manner)) := by
  cases x with
  | exchange =>
      have he : b.exchanges.get? t.exchange = none := by
        simpa [has, Table.contains_eq_isSome] using hx
      simp [declareOn, declareExchange, guarded_of_check h, he, judge, manner, hd,
        Declaration.isPassive, Declaration.durable, put, event]
  | queue =>
      have hq : b.queues.get? t.queue = none := by
        simpa [has, Table.contains_eq_isSome] using hx
      simp [declareOn, declareQueue, guarded_of_check h, hq, judge, manner, hd,
        Declaration.isPassive, Declaration.durable, put, event]

/-- An object that is there by now, and is what was asked for, is as good. -/
theorem declareOn_alike (h : b.check s = .ok ()) (hd : b.deniesDeclarations = false)
    (hx : t.Alike b x) :
    t.declareOn b s x t.manner = (.ok (), b.record (t.event x t.manner)) := by
  cases x with
  | exchange =>
      have he : b.exchanges.get? t.exchange = _ := hx
      simp [declareOn, declareExchange, guarded_of_check h, he, judge, manner, hd,
        Declaration.isPassive, Declaration.durable, event]
  | queue =>
      obtain ⟨ready, hq⟩ := hx
      simp [declareOn, declareQueue, guarded_of_check h, hq, judge, manner, hd,
        Declaration.isPassive, Declaration.durable, event]

/-- A queue that is there is bound to an exchange that is there. -/
theorem bind_bound (h : b.check s = .ok ()) (hx : ∀ x, t.has b x = true) (key : String) :
    b.bind s ⟨t.queue, t.exchange, key⟩ =
      (.ok (), (b.addBinding ⟨t.queue, t.exchange, key⟩).record
        (.bound ⟨t.queue, t.exchange, key⟩)) := by
  have hqueue : b.queues.contains t.queue = true := hx .queue
  have hexchange : b.exchanges.contains t.exchange = true := hx .exchange
  simp [Broker.bind, guarded_of_check h, hqueue, hexchange]

/-- A session on an open connection gets a fresh channel. -/
theorem reopen_connected (h : s.connection ∈ b.connections) :
    b.reopen s = (.ok (), ⟨s.connection, b.lastId + 1⟩,
      (b.closeChannel s.channel "reopened").openChannel s.connection) := by
  unfold reopen
  rw [if_pos (List.contains_iff_mem.2 h)]
  simp [openChannel, lastId_closeChannel]

end QueueRelay.Topology

/-
The course that making sure of a topology takes.

The exchange and the queue are treated alike.  Each is sought first; if it is not there the
channel is gone with the answer, so the channel is reopened and the object made on it.  Then
come the bindings, one by one.  A `Standing` says what comes next and what was made so far,
and `Step` is the table of which call is made in which standing and what follows from its
answer.

Nothing is assumed about the answers here.
-/
import Mathlib.Logic.Function.Basic
import QueueRelay.Proofs.Program.Rule
import QueueRelay.Topology.Ensure

namespace QueueRelay.Topology

open Program

variable {δ : Type}

/-! ### The two objects -/

/-- One of the two objects of a topology. -/
inductive Item where
  | exchange
  | queue
deriving DecidableEq

/-- The name of an object. -/
def nameOf (t : Topology) : Item → String
  | .exchange => t.exchange
  | .queue => t.queue

/-- Declares an object. -/
def declare (t : Topology) (x : Item) (how : Declaration) :
    Program (Channel.calls δ) (Except LinkError Unit) :=
  match x with
  | .exchange => Channel.declareExchange t.exchange t.kind how
  | .queue => Channel.declareQueue t.queue how

/-- The exchange in which an object is declared and `r` is the answer. -/
def declared (t : Topology) (x : Item) (how : Declaration) (r : Except LinkError Unit) :
    (Channel.calls δ).Exchange :=
  match x with
  | .exchange => ⟨.declareExchange t.exchange t.kind how, r⟩
  | .queue => ⟨.declareQueue t.queue how, r⟩

/-- How an object is made. -/
def manner (t : Topology) : Declaration := .active t.durable t.autoDelete

/-! ### Standings -/

/-- What comes next. -/
inductive Errand where
  /-- It is asked whether the object exists. -/
  | seeks (x : Item)
  /-- The object is not there, and the channel is to be reopened. -/
  | misses (x : Item)
  | makes (x : Item)
  /-- These keys are still to be bound. -/
  | binds (keys : List String)
  | failed (e : RelayError)

/-- Where the making sure of a topology stands. -/
structure Standing where
  /-- Whether an object had to be made. -/
  made : Item → Bool := fun _ => false
  errand : Errand := .seeks .exchange

/-- What comes next once an object is there. -/
def next (t : Topology) : Item → Errand
  | .exchange => .seeks .queue
  | .queue => .binds t.routingKeys

namespace Standing

/-- It is at another errand, and as much was made. -/
def doing (m : Standing) (k : Errand) : Standing := { m with errand := k }

/-- An object is there, and if `made` says so it had to be made. -/
def settled (m : Standing) (t : Topology) (x : Item) (made : Bool) : Standing where
  made := if made then Function.update m.made x true else m.made
  errand := t.next x

/-- It ends with an error about something. -/
def fails (m : Standing) (what : String) (e : LinkError) : Standing :=
  m.doing (.failed (.provisioning what e))

end Standing

/-- What is done in a standing, and where the answer leads. -/
inductive Step (t : Topology) : Standing → (Channel.calls δ).Exchange → Standing → Prop
  | found {m : Standing} (x : Item) (u : Unit) :
      Step t (m.doing (.seeks x)) (t.declared x .passive (.ok u)) (m.settled t x false)
  | missed {m : Standing} (x : Item) (text : String) :
      Step t (m.doing (.seeks x)) (t.declared x .passive (.error (.notFound text)))
        (m.doing (.misses x))
  | barred {m : Standing} (x : Item) {e : LinkError} (he : e.isNotFound = false) :
      Step t (m.doing (.seeks x)) (t.declared x .passive (.error e)) (m.fails (t.nameOf x) e)
  | reopened {m : Standing} (x : Item) (u : Unit) :
      Step t (m.doing (.misses x)) ⟨.reopen, .ok u⟩ (m.doing (.makes x))
  | stuck {m : Standing} (x : Item) (e : LinkError) :
      Step t (m.doing (.misses x)) ⟨.reopen, .error e⟩ (m.fails (t.nameOf x) e)
  | made {m : Standing} (x : Item) (u : Unit) :
      Step t (m.doing (.makes x)) (t.declared x t.manner (.ok u)) (m.settled t x true)
  | refused {m : Standing} (x : Item) (e : LinkError) :
      Step t (m.doing (.makes x)) (t.declared x t.manner (.error e)) (m.fails (t.nameOf x) e)
  | bound {m : Standing} {key : String} {keys : List String} (u : Unit) :
      Step t (m.doing (.binds (key :: keys))) ⟨.bind t.queue t.exchange key, .ok u⟩
        (m.doing (.binds keys))
  | unbound {m : Standing} {key : String} {keys : List String} (e : LinkError) :
      Step t (m.doing (.binds (key :: keys))) ⟨.bind t.queue t.exchange key, .error e⟩
        (m.fails ("binding '" ++ key ++ "'") e)

/-- What the result says of where it ends. -/
def Ends (t : Topology) : Except RelayError Report → Standing → Prop
  | .ok r, m => m.errand = .binds [] ∧
      r = ⟨m.made .exchange, m.made .queue, t.routingKeys.length⟩
  | .error e, m => m.errand = .failed e

/-- Exchanges that are left at most. -/
def left (t : Topology) (m : Standing) : Nat :=
  match m.errand with
  | .seeks .exchange => t.routingKeys.length + 6
  | .misses .exchange => t.routingKeys.length + 5
  | .makes .exchange => t.routingKeys.length + 4
  | .seeks .queue => t.routingKeys.length + 3
  | .misses .queue => t.routingKeys.length + 2
  | .makes .queue => t.routingKeys.length + 1
  | .binds keys => keys.length
  | .failed _ => 0

theorem left_step {t : Topology} (m : Standing) (e : (Channel.calls δ).Exchange)
    (m' : Standing) (h : t.Step m e m') : t.left m' < t.left m := by
  cases h with
  | found x | missed x | barred x | reopened x | stuck x | made x | refused x =>
      cases x <;> simp [left, Standing.doing, Standing.settled, Standing.fails, next]
  | bound | unbound => simp [left, Standing.doing, Standing.fails]

/-! ### The program keeps to it -/

section Keeps

variable {t : Topology} {m : Standing} {x : Item}

/-- What holds where an object was taken care of. -/
def Settles (t : Topology) (m : Standing) (x : Item) : Except RelayError Bool → Standing → Prop
  | .ok made, m' => m' = m.settled t x made
  | .error e, m' => m' = m.doing (.failed e)

theorem keeps_declare {how : Declaration} {post : Except LinkError Unit → Standing → Prop}
    {m : Standing} (h : ∀ r, ∃ m', t.Step m (t.declared (δ := δ) x how r) m' ∧ post r m') :
    (t.declare (δ := δ) x how).Keeps t.Step post m := by
  cases x <;> exact h

theorem keeps_create :
    (t.create (δ := δ) (t.nameOf x) (t.declare x)).Keeps t.Step (Settles t m x)
      (m.doing (.misses x)) := by
  refine keeps_perform_bind ?_
  intro answer
  cases answer with
  | error e => exact ⟨_, .stuck x e, rfl⟩
  | ok u =>
      refine ⟨m.doing (.makes x), .reopened x u, ?_⟩
      refine keeps_bind.2 (keeps_declare fun r => ?_)
      cases r with
      | error e => exact ⟨_, .refused x e, rfl⟩
      | ok u => exact ⟨_, .made x u, rfl⟩

theorem keeps_ensureObject :
    (t.ensureObject (δ := δ) (t.nameOf x) (t.declare x)).Keeps t.Step (Settles t m x)
      (m.doing (.seeks x)) := by
  refine keeps_bind.2 (keeps_declare fun r => ?_)
  cases r with
  | ok u => exact ⟨_, .found x u, rfl⟩
  | error e =>
      cases he : e.isNotFound with
      | false =>
          refine ⟨_, .barred x he, ?_⟩
          simp only [he]
          rfl
      | true =>
          obtain ⟨text, rfl⟩ : ∃ text, e = .notFound text := by
            cases e with
            | notFound text => exact ⟨text, rfl⟩
            | _ => cases he
          exact ⟨_, .missed x text, keeps_create⟩

theorem keeps_bindAll (keys : List String) :
    (t.bindAll (δ := δ) keys).Keeps t.Step
      (fun r m' => match r with
        | .ok _ => m' = m.doing (.binds [])
        | .error e => m' = m.doing (.failed e)) (m.doing (.binds keys)) := by
  induction keys with
  | nil => rfl
  | cons key keys ih =>
      refine keeps_perform_bind ?_
      intro answer
      cases answer with
      | error e => exact ⟨_, .unbound e, rfl⟩
      | ok u => exact ⟨_, .bound u, ih⟩

/-- **Making sure of a topology takes this course**, whatever is answered. -/
theorem keeps_ensure (t : Topology) : (t.ensure (δ := δ)).Keeps t.Step t.Ends {} := by
  refine (keeps_ensureObject (x := .exchange) (m := {})).bind ?_
  intro r m' hm'
  cases r with
  | error e =>
      rw [hm']
      exact rfl
  | ok exchangeMade =>
      rw [hm']
      refine (keeps_ensureObject (x := .queue)
        (m := Standing.settled {} t .exchange exchangeMade)).bind ?_
      intro r m' hm'
      cases r with
      | error e =>
          rw [hm']
          exact rfl
      | ok queueMade =>
          rw [hm']
          refine (keeps_bindAll (m := Standing.settled
            (Standing.settled {} t .exchange exchangeMade) t .queue queueMade)
            t.routingKeys).bind ?_
          intro r m' hm'
          cases r with
          | error e =>
              rw [hm']
              exact rfl
          | ok u =>
              rw [hm']
              refine ⟨rfl, ?_⟩
              cases exchangeMade <;> cases queueMade <;> rfl

end Keeps

end QueueRelay.Topology

/-
A relay at work on a broker.

The source of a relay is a broker that lives in memory, reached through connectors that may
fail: a call can fail without reaching the broker, and a close can report an error although
it did its work.  What else happens to the broker is up to others.  They publish, they
operate the broker, they drop its connections, and they use sessions of their own for
anything they like, so long as they leave the relay's channels alone and take nothing from
its queue.

The backend is left open.  It is whatever answers the three errands a relay sends it on, as
long as the broker of the source is not part of it.
-/
import QueueRelay.Proofs.Broker.Consumer
import QueueRelay.Proofs.Program.Setting
import QueueRelay.Proofs.Relay.Standing

namespace QueueRelay

/-! ### The source -/

/-- A broker, and the sessions on it that a relay was given; a session is known by its
place among them. -/
structure Source where
  broker : Broker
  sessions : List Broker.Session := []

namespace Source

variable {queue : String} {w w' : Source}

/-- A channel of one of the relay's sessions. -/
def Mine (w : Source) (channel : Nat) : Prop := ∃ s ∈ w.sessions, s.channel = channel

/-- What others do to the broker while a relay consumes `queue` on it. -/
inductive Outside (queue : String) (b : Broker) (mine : Nat → Prop) : Broker → Prop
  | published (exchange key : String) (payload : ByteArray) :
      Outside queue b mine (b.publishOutside exchange key payload).2
  | operated (c : Simulation.BrokerCall) : Outside queue b mine (Simulation.applyToBroker c b)
  | connected : Outside queue b mine b.connect.2
  | asked (s : Broker.Session) (hs : ¬ mine s.channel) (k : Channel.Call) :
      Outside queue b mine (b.answer s k).2.2
  | took (t : Broker.Stream) (hq : t.queue ≠ queue) (ht : ¬ mine t.session.channel) :
      Outside queue b mine (b.take t).2
  | closed (s : Broker.Session) : Outside queue b mine (b.closeSession s)

/-- A broker to which anything may have happened since it was new. -/
inductive Lived : Broker → Prop
  | new : Lived {}
  | went (queue : String) {b b' : Broker} (h : Lived b)
      (ho : Outside queue b (fun _ => False) b') : Lived b'

/-- How a call on the link is answered, and what it leaves of the source. -/
def Answers (w : Source) :
    (c : (BrokerLink Nat Broker.Stream).Call) →
      (BrokerLink Nat Broker.Stream).Answer c → Source → Prop
  | .connect, a, w' =>
    (∃ e, a = .error e ∧ w' = w) ∨
    (∃ e b, w.broker.connect = (.error e, b) ∧ a = .error e ∧ w' = { w with broker := b }) ∨
    ∃ s b, w.broker.connect = (.ok s, b) ∧ a = .ok w.sessions.length ∧
      w' = { broker := b, sessions := w.sessions ++ [s] }
  | .isOpen h, a, w' => ∃ s, w.sessions[h]? = some s ∧ a = w.broker.isOpen s ∧ w' = w
  | .close h, _, w' =>
    ∃ s, w.sessions[h]? = some s ∧ w' = { w with broker := w.broker.closeSession s }
  | .ask h k, a, w' =>
    (∃ e, a = Simulation.failing e k ∧ w' = w) ∨
    ∃ s, w.sessions[h]? = some s ∧ a = (w.broker.answer s k).1 ∧
      w' = { broker := (w.broker.answer s k).2.2
             sessions := w.sessions.set h (w.broker.answer s k).2.1 }

/-- How a wait for the next delivery ends, and what it leaves of the source. -/
def Brings (w : Source) (t : Broker.Stream) : Relay.Next → Source → Prop
  | .stop, w' | .failed _, w' => w' = w
  | .message m, w' => ∃ b, w.broker.take t = (.message m, b) ∧ w' = { w with broker := b }
  | .ended, w' => ∃ b, w.broker.take t = (.ended, b) ∧ w' = { w with broker := b }

end Source

/-! ### The backend -/

/-- What a relay asks of its backend. -/
inductive Errand where
  | establish
  | send (m : Message)
  | close

namespace Errand

/-- The errands and what comes back from each. -/
abbrev calls : Interface where
  Call := Errand
  Answer
    | establish => Except LinkError Unit
    | send _ => Relay.Handed
    | close => Unit

end Errand

namespace Relay

/-- A relay between a source, on which it consumes `queue`, and a backend. -/
def setting (queue : String) (backend : Setting Errand.calls) :
    Setting (calls Nat Broker.Stream) where
  State := Source × backend.State
  moves u v :=
    (∃ b, Source.Outside queue u.1.broker u.1.Mine b ∧ v = ({ u.1 with broker := b }, u.2)) ∨
    (v.1 = u.1 ∧ backend.moves u.2 v.2)
  begins u c v :=
    v.1 = u.1 ∧ match c with
      | .establish => backend.begins u.2 .establish v.2
      | .send m => backend.begins u.2 (.send m) v.2
      | .closeBackend => backend.begins u.2 .close v.2
      | .source _ | .next _ | .pause _ => v.2 = u.2
  ends u c a v :=
    match c, a with
      | .source k, a => u.1.Answers k a v.1 ∧ v.2 = u.2
      | .next t, a => u.1.Brings t a v.1 ∧ v.2 = u.2
      | .pause _, _ => v = u
      | .establish, a => v.1 = u.1 ∧ backend.ends u.2 .establish a v.2
      | .send m, a => v.1 = u.1 ∧ backend.ends u.2 (.send m) a v.2
      | .closeBackend, a => v.1 = u.1 ∧ backend.ends u.2 .close a v.2

/-! ### Calls that are answered at once -/

section AtOnce

variable {queue : String} {backend : Setting Errand.calls} {α : Type}
  {p : Program (calls Nat Broker.Stream) α} {w : (setting queue backend).State}
  {t : List (calls Nat Broker.Stream).Exchange} {u u' : Source} {z z' z'' : backend.State}

theorem reached_source {k : (BrokerLink Nat Broker.Stream).Call}
    {next : (BrokerLink Nat Broker.Stream).Answer k → Program (calls Nat Broker.Stream) α}
    (h : (setting queue backend).Reached p w t (.ready (.call (.source k) next)) (u, z))
    (a : (BrokerLink Nat Broker.Stream).Answer k) (ha : u.Answers k a u') :
    (setting queue backend).Reached p w (t ++ [⟨.source k, a⟩]) (.ready (next a)) (u', z) :=
  .answered (.asked h (v := (u, z)) ⟨rfl, rfl⟩) a ⟨ha, rfl⟩

theorem reached_next {d : Broker.Stream}
    {next : Next → Program (calls Nat Broker.Stream) α}
    (h : (setting queue backend).Reached p w t (.ready (.call (.next d) next)) (u, z))
    (a : Next) (ha : u.Brings d a u') :
    (setting queue backend).Reached p w (t ++ [⟨.next d, a⟩]) (.ready (next a)) (u', z) :=
  .answered (.asked h (v := (u, z)) ⟨rfl, rfl⟩) a ⟨ha, rfl⟩

theorem reached_establish
    {next : Except LinkError Unit → Program (calls Nat Broker.Stream) α}
    (h : (setting queue backend).Reached p w t (.ready (.call .establish next)) (u, z))
    (hb : backend.begins z .establish z') (a : Except LinkError Unit)
    (ha : backend.ends z' .establish a z'') :
    (setting queue backend).Reached p w (t ++ [⟨.establish, a⟩]) (.ready (next a)) (u, z'') :=
  .answered (.asked h (v := (u, z')) ⟨rfl, hb⟩) a ⟨rfl, ha⟩

theorem reached_send {m : Message} {next : Handed → Program (calls Nat Broker.Stream) α}
    (h : (setting queue backend).Reached p w t (.ready (.call (.send m) next)) (u, z))
    (hb : backend.begins z (.send m) z') (a : Handed) (ha : backend.ends z' (.send m) a z'') :
    (setting queue backend).Reached p w (t ++ [⟨.send m, a⟩]) (.ready (next a)) (u, z'') :=
  .answered (.asked h (v := (u, z')) ⟨rfl, hb⟩) a ⟨rfl, ha⟩

theorem reached_closeBackend {next : Unit → Program (calls Nat Broker.Stream) α}
    (h : (setting queue backend).Reached p w t (.ready (.call .closeBackend next)) (u, z))
    (hb : backend.begins z .close z') (a : Unit) (ha : backend.ends z' .close a z'') :
    (setting queue backend).Reached p w (t ++ [⟨.closeBackend, a⟩]) (.ready (next a)) (u, z'') :=
  .answered (.asked h (v := (u, z')) ⟨rfl, hb⟩) a ⟨rfl, ha⟩

end AtOnce

end Relay

end QueueRelay

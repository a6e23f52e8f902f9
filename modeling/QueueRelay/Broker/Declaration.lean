import QueueRelay.Broker.Routing
import QueueRelay.Broker.Connection
/-!
Declarations and bindings made through a session.

Each of these either does what it says and is recorded, or fails.  A broker that says no
closes the channel that asked; a session whose channel is not open is told so, and
nothing changes.
-/
namespace QueueRelay.Broker

/-- Goes on only if the session is open. -/
def guarded {α : Type} (b : Broker) (s : Session)
    (act : Broker → Except LinkError α × Broker) : Except LinkError α × Broker :=
  match b.check s with
  | .ok _ => act b
  | .error e => (.error e, b)

/-- Says no: closes the session's channel and fails. -/
def refuse {α : Type} (b : Broker) (s : Session) (reason : String) (e : LinkError) :
    Except LinkError α × Broker :=
  (.error e, b.closeChannel s.channel reason)

/-- What a declaration comes to: a refusal, with the reason and the error, or a go-ahead
that says whether the object is to be created.  `conflicts` is none if the object does
not exist, else whether its arguments differ from the declared ones. -/
def judge (b : Broker) (name : String) (how : Declaration) (conflicts : Option Bool) :
    Except (String × LinkError) Bool :=
  if how.isPassive then
    if conflicts.isSome then .ok false
    else .error ("NOT_FOUND", .notFound ("no object '" ++ name ++ "'"))
  else if b.deniesDeclarations then
    .error ("ACCESS_REFUSED", .rejected ("ACCESS_REFUSED: declare '" ++ name ++ "'"))
  else if conflicts = some true then
    .error ("PRECONDITION_FAILED",
      .rejected ("PRECONDITION_FAILED: inequivalent arguments for '" ++ name ++ "'"))
  else .ok conflicts.isNone

def declareExchange (b : Broker) (s : Session) (name : String) (kind : ExchangeKind)
    (how : Declaration) : Except LinkError Unit × Broker :=
  b.guarded s fun b =>
    let conflicts := (b.exchanges.get? name).map fun e =>
      e.kind != kind || e.durable != how.durable
    match b.judge name how conflicts with
    | .error (reason, e) => b.refuse s reason e
    | .ok create =>
      let b := if create then
        { b with exchanges := b.exchanges.set name { kind := kind, durable := how.durable } }
        else b
      (.ok (), b.record (.exchangeDeclared name how.isPassive))

def declareQueue (b : Broker) (s : Session) (name : String) (how : Declaration) :
    Except LinkError Unit × Broker :=
  b.guarded s fun b =>
    let conflicts := (b.queues.get? name).map fun q => q.durable != how.durable
    match b.judge name how conflicts with
    | .error (reason, e) => b.refuse s reason e
    | .ok create =>
      let b := if create then
        { b with queues := b.queues.set name { durable := how.durable } }
        else b
      (.ok (), b.record (.queueDeclared name how.isPassive))

/-- Binds a queue to an exchange; both have to exist. -/
def bind (b : Broker) (s : Session) (x : Binding) : Except LinkError Unit × Broker :=
  b.guarded s fun b =>
    if b.queues.contains x.queue && b.exchanges.contains x.exchange then
      (.ok (), (b.addBinding x).record (.bound x))
    else
      b.refuse s "NOT_FOUND" (.notFound ("bind " ++ x.exchange ++ " -> " ++ x.queue))

/-! ### Without a session -/

/-- Makes sure that a durable queue exists. -/
def ensureQueue (b : Broker) (name : String) : Broker :=
  if b.queues.contains name then b else { b with queues := b.queues.set name {} }

/-- Makes sure that an exchange exists; one that does keeps its kind. -/
def ensureExchange (b : Broker) (name : String) (kind : ExchangeKind) : Broker :=
  if b.exchanges.contains name then b
  else { b with exchanges := b.exchanges.set name { kind := kind } }

end QueueRelay.Broker

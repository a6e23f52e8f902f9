import QueueRelay.Broker.State
/-!
Which queues a message reaches, and how it gets there.

The exchange without a name reaches the queue that is called like the routing key.  Any
other exchange reaches the queues bound to it with a key that its kind accepts, each of
them once, however many of its bindings match.
-/
namespace QueueRelay.Broker

/-- The order in which bindings are kept. -/
def Binding.before (x y : Binding) : Bool :=
  if x.queue ≠ y.queue then x.queue < y.queue
  else if x.exchange ≠ y.exchange then x.exchange < y.exchange
  else x.key < y.key

/-- Adds a binding at its place, unless it is there. -/
def insertBinding (x : Binding) : List Binding → List Binding
  | [] => [x]
  | y :: rest =>
    if x = y then y :: rest
    else if x.before y then x :: y :: rest
    else y :: insertBinding x rest

/-- Binds a queue to an exchange, whether or not either exists. -/
def addBinding (b : Broker) (x : Binding) : Broker :=
  { b with bindings := insertBinding x b.bindings }

/-- Whether a binding carries messages from an exchange of the given kind to its queue. -/
def carries (b : Broker) (exchange key : String) (kind : ExchangeKind) (x : Binding) : Bool :=
  x.exchange = exchange && b.queues.contains x.queue && kind.accepts x.key key

/-- The queues that a message reaches, each once.  With bindings in the order of their queues this
leaves out a queue just where it follows itself (`route_eq_destutter`). -/
def route (b : Broker) (exchange key : String) : List String :=
  if exchange.isEmpty then
    if b.queues.contains key then [key] else []
  else
    match b.exchanges.get? exchange with
    | none => []
    | some e => ((b.bindings.filter (b.carries exchange key e.kind)).map (·.queue)).eraseDups

/-- Puts a new copy of a message at the end of a queue. -/
def enqueue (key : String) (payload : ByteArray) (b : Broker) (queue : String) : Broker :=
  let copy : Copy := { number := b.copies, payload := payload, key := key }
  { b with
    queues := b.queues.modify queue fun q => { q with ready := q.ready ++ [copy] }
    copies := b.copies + 1
    journal := b.journal ++ [.enqueued queue copy] }

/-- Puts a new copy of a message on each of the given queues. -/
def enqueueAll (b : Broker) (key : String) (payload : ByteArray) (queues : List String) :
    Broker :=
  queues.foldl (enqueue key payload) b

/-- Publishes as a producer that needs no session; answers whether any queue took it. -/
def publishOutside (b : Broker) (exchange key : String) (payload : ByteArray) :
    Bool × Broker :=
  let queues := b.route exchange key
  (!queues.isEmpty, b.enqueueAll key payload queues)

end QueueRelay.Broker

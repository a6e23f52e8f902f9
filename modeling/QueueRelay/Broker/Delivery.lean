import QueueRelay.Broker.Declaration
/-!
Publishing and consuming through a session.

Tags are counted per channel, from one.  A tag that is not outstanding on the session's
channel is refused, which closes the channel.
-/
namespace QueueRelay.Broker

def publish (b : Broker) (s : Session) (exchange key : String) (payload : ByteArray)
    (options : PublishOptions) : Except LinkError PublishStatus × Broker :=
  b.guarded s fun b =>
    if !exchange.isEmpty && !b.exchanges.contains exchange then
      b.refuse s "NOT_FOUND" (.notFound ("no exchange '" ++ exchange ++ "'"))
    else if 0 < b.nacksDue then (.ok .nacked, { b with nacksDue := b.nacksDue - 1 })
    else
      let queues := b.route exchange key
      if queues.isEmpty && options.mandatory then
        (.ok (.returned "312 NO_ROUTE"), b.record (.returned exchange key))
      else
        (.ok .confirmed,
          (b.enqueueAll key payload queues).record (.published exchange key payload))

/-- Changes what the broker knows about the session's channel. -/
def modifyLane (b : Broker) (s : Session) (f : Lane → Lane) : Broker :=
  { b with channels := b.channels.modify s.channel f }

def setPrefetch (b : Broker) (s : Session) (count : Nat) : Except LinkError Unit × Broker :=
  b.guarded s fun b => (.ok (), b.modifyLane s fun lane => { lane with prefetch := count })

/-- Starts a consumer on a queue. -/
def consume (b : Broker) (s : Session) (queue : String) : Except LinkError Stream × Broker :=
  b.guarded s fun b =>
    if b.queues.contains queue then (.ok ⟨s, queue⟩, b)
    else b.refuse s "NOT_FOUND" (.notFound ("no queue '" ++ queue ++ "'"))

/-! ### Deliveries -/

/-- What a consumer gets when it asks for the next delivery. -/
inductive Taken where
  | message (m : Message)
  /-- Nothing can be delivered now. -/
  | pending
  /-- The channel is closed. -/
  | ended

/-- Whether the channel may have one more delivery outstanding. -/
def Lane.hasRoom (lane : Lane) : Bool :=
  lane.prefetch == 0 || lane.unacked.size < lane.prefetch

/-- A copy as its consumer sees it. -/
def Copy.toMessage (c : Copy) (tag : Nat) : Message :=
  { payload := c.payload, tag := ⟨tag⟩, routingKey := some c.key, redelivered := c.redelivered }

/-- Hands the first ready copy of a queue to a channel. -/
def deliver (b : Broker) (t : Stream) (lane : Lane) (copy : Copy) (rest : List Copy) :
    Message × Broker :=
  let tag := lane.lastTag + 1
  let d : Delivery := ⟨t.queue, copy⟩
  (copy.toMessage tag,
    { b with
      queues := b.queues.modify t.queue fun q => { q with ready := rest }
      channels := b.channels.set t.session.channel
        { lane with lastTag := tag, unacked := lane.unacked.set tag d }
      journal := b.journal ++ [.delivered t.session.channel tag d] })

/-- The next delivery of a stream. -/
def take (b : Broker) (t : Stream) : Taken × Broker :=
  match b.check t.session, b.channels.get? t.session.channel with
  | .ok _, some lane =>
    match lane.hasRoom, b.ready t.queue with
    | true, copy :: rest =>
      let (m, b) := b.deliver t lane copy rest
      (.message m, b)
    | _, _ => (.pending, b)
  | _, _ => (.ended, b)

/-- The outstanding delivery with the given tag on the session's channel. -/
def outstanding? (b : Broker) (s : Session) (tag : DeliveryTag) : Option Delivery :=
  (b.channels.get? s.channel).bind fun lane => lane.unacked.get? tag.value

/-- Takes a delivery off the session's channel. -/
def settle (b : Broker) (s : Session) (tag : DeliveryTag) : Broker :=
  b.modifyLane s fun lane => { lane with unacked := lane.unacked.erase tag.value }

/-- Refuses a tag that is not outstanding. -/
def refuseTag (b : Broker) (s : Session) (tag : DeliveryTag) : Except LinkError Unit × Broker :=
  b.refuse s "PRECONDITION_FAILED"
    (.rejected ("unknown delivery tag " ++ toString tag.value))

/-- Acknowledges a delivery: its copy is gone. -/
def ack (b : Broker) (s : Session) (tag : DeliveryTag) : Except LinkError Unit × Broker :=
  b.guarded s fun b =>
    match b.outstanding? s tag with
    | some d => (.ok (), (b.settle s tag).record (.acked s.channel tag.value d))
    | none => b.refuseTag s tag

/-- Returns a delivery: its copy goes back in front of its queue, or is dropped. -/
def nack (b : Broker) (s : Session) (tag : DeliveryTag) (requeue : Bool) :
    Except LinkError Unit × Broker :=
  b.guarded s fun b =>
    match b.outstanding? s tag with
    | some d =>
      let b := (b.settle s tag).record (.nacked s.channel tag.value d requeue)
      (.ok (), if requeue then { b with queues := giveBack d b.queues } else b)
    | none => b.refuseTag s tag

end QueueRelay.Broker

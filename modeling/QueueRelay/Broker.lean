import QueueRelay.Broker.Delivery
/-!
The broker as the other side of a session.
-/
namespace QueueRelay.Broker

/-- The broker's answer to a call, the session afterwards and the broker afterwards. -/
def answer (b : Broker) (s : Session) :
    (c : Channel.Call) → (Channel.calls Stream).Answer c × Session × Broker
  | .declareExchange name kind how =>
    let (r, b) := b.declareExchange s name kind how
    (r, s, b)
  | .declareQueue name how =>
    let (r, b) := b.declareQueue s name how
    (r, s, b)
  | .bind queue exchange key =>
    let (r, b) := b.bind s ⟨queue, exchange, key⟩
    (r, s, b)
  | .setPrefetch count =>
    let (r, b) := b.setPrefetch s count
    (r, s, b)
  | .publish exchange key payload options =>
    let (r, b) := b.publish s exchange key payload options
    (r, s, b)
  | .consume queue _ =>
    let (r, b) := b.consume s queue
    (r, s, b)
  | .ack tag =>
    let (r, b) := b.ack s tag
    (r, s, b)
  | .nack tag requeue =>
    let (r, b) := b.nack s tag requeue
    (r, s, b)
  | .reopen => b.reopen s

end QueueRelay.Broker

/-
Where a relay stands with its source.

What a relay may ask next depends on what it asked before, and for the most part on very
little of it: whether it has a session, whether a stream was opened on that session, and
whether a message of that stream is still in its hands.  A `Standing` holds just that, and
nothing of what the relay itself keeps.

`Standing.Step` lists every exchange a relay takes part in, with the standing before it
and the standing after it.  The session is named in the standing, so the list ties the
calls together: a message comes from the stream that was opened on the session, and it is
disposed of on that session, once, before anything else is asked of the source.
-/
import QueueRelay.Proofs.Program.Rule
import QueueRelay.Relay.Run

namespace QueueRelay.Relay

/-- The backend took charge of the message. -/
def Handed.isDelivered : Handed → Bool
  | .outcome o => o.isDelivered
  | .panicked _ => false

/-- The call that disposes of a message after the backend gave this word on it. -/
def disposition (m : Message) (h : Handed) : Channel.Call :=
  if h.isDelivered then .ack m.tag else .nack m.tag true

/-- The calls that are made to provision a source. -/
def Prepares : Channel.Call → Prop
  | .declareExchange _ _ _ | .declareQueue _ _ | .bind _ _ _ | .reopen => True
  | _ => False

/-- Where a relay stands with its source. -/
inductive Standing (σ δ : Type) where
  /-- It has no session. -/
  | apart
  /-- It has a new session. -/
  | joined (s : σ)
  /-- The session holds back the next delivery. -/
  | limited (s : σ)
  /-- A stream was opened on the session, and every message that came is disposed of. -/
  | consuming (s : σ) (stream : δ)
  /-- A message came from the stream of the session. -/
  | holding (s : σ) (stream : δ) (m : Message)
  /-- The backend gave its word on the message. -/
  | judged (s : σ) (stream : δ) (m : Message) (h : Handed)
  /-- The session is not used any more. -/
  | spoiled (s : σ)
  /-- The session was not open when it was to be given up. -/
  | lapsed (s : σ)

namespace Standing

variable {σ δ : Type}

/-- The session in use. -/
def session? : Standing σ δ → Option σ
  | apart => none
  | joined s | limited s | consuming s _ | holding s _ _ | judged s _ _ _ | spoiled s
  | lapsed s => some s

/-- The stream in use. -/
def stream? : Standing σ δ → Option δ
  | consuming _ d | holding _ d _ | judged _ d _ _ => some d
  | _ => none

/-- A new session may be opened. -/
inductive Vacant : Standing σ δ → Prop
  | apart : Vacant .apart
  | lapsed (s : σ) : Vacant (.lapsed s)

/-- There is a session that may be asked whether it is open. -/
inductive Attached : Standing σ δ → σ → Prop
  | joined (s : σ) : Attached (.joined s) s
  | spoiled (s : σ) : Attached (.spoiled s) s
  | lapsed (s : σ) : Attached (.lapsed s) s

/-- There is a session that may be closed. -/
inductive Closable : Standing σ δ → σ → Prop
  | joined (s : σ) : Closable (.joined s) s
  | consuming (s : σ) (stream : δ) : Closable (.consuming s stream) s
  | spoiled (s : σ) : Closable (.spoiled s) s

theorem Attached.session {x : Standing σ δ} {s : σ} (h : x.Attached s) : x.session? = some s := by
  cases h <;> rfl

theorem Closable.session {x : Standing σ δ} {s : σ} (h : x.Closable s) : x.session? = some s := by
  cases h <;> rfl

/-- No message is held and no subscription is under way. -/
inductive Resting : Standing σ δ → Prop
  | apart : Resting .apart
  | joined (s : σ) : Resting (.joined s)
  | consuming (s : σ) (stream : δ) : Resting (.consuming s stream)
  | spoiled (s : σ) : Resting (.spoiled s)

/-- The exchanges of a relay with the settings `c`. -/
inductive Step (c : Settings) : Standing σ δ → (calls σ δ).Exchange → Standing σ δ → Prop
  | connected {x : Standing σ δ} (h : x.Vacant) (s : σ) :
      Step c x ⟨.source .connect, .ok s⟩ (.joined s)
  | refused {x : Standing σ δ} (h : x.Vacant) (e : LinkError) :
      Step c x ⟨.source .connect, .error e⟩ .apart
  | foundOpen (s : σ) : Step c (.joined s) ⟨.source (.isOpen s), true⟩ (.joined s)
  | foundSpoiled (s : σ) : Step c (.spoiled s) ⟨.source (.isOpen s), true⟩ (.spoiled s)
  | foundAgain (s : σ) : Step c (.lapsed s) ⟨.source (.isOpen s), true⟩ (.spoiled s)
  | foundClosed {x : Standing σ δ} {s : σ} (h : x.Attached s) :
      Step c x ⟨.source (.isOpen s), false⟩ (.lapsed s)
  | closed {x : Standing σ δ} {s : σ} (h : x.Closable s) (r : Except LinkError Unit) :
      Step c x ⟨.source (.close s), r⟩ .apart
  | prepared (s : σ) (k : Channel.Call) (h : Prepares k) (r : (Channel.calls δ).Answer k) :
      Step c (.joined s) ⟨.source (.ask s k), r⟩ (.joined s)
  | established (s : σ) (r : Except LinkError Unit) :
      Step c (.joined s) ⟨.establish, r⟩ (.joined s)
  | limited (s : σ) (u : Unit) :
      Step c (.joined s) ⟨.source (.ask s (.setPrefetch prefetch)), .ok u⟩ (.limited s)
  | unlimited (s : σ) (e : LinkError) :
      Step c (.joined s) ⟨.source (.ask s (.setPrefetch prefetch)), .error e⟩ (.spoiled s)
  | subscribed (s : σ) (d : δ) :
      Step c (.limited s) ⟨.source (.ask s (.consume c.queue c.consumerTag)), .ok d⟩
        (.consuming s d)
  | unsubscribed (s : σ) (e : LinkError) :
      Step c (.limited s) ⟨.source (.ask s (.consume c.queue c.consumerTag)), .error e⟩
        (.spoiled s)
  | stopped (s : σ) (d : δ) : Step c (.consuming s d) ⟨.next d, .stop⟩ (.consuming s d)
  | took (s : σ) (d : δ) (m : Message) :
      Step c (.consuming s d) ⟨.next d, .message m⟩ (.holding s d m)
  | lost (s : σ) (d : δ) (e : LinkError) :
      Step c (.consuming s d) ⟨.next d, .failed e⟩ (.spoiled s)
  | ended (s : σ) (d : δ) : Step c (.consuming s d) ⟨.next d, .ended⟩ (.spoiled s)
  | handed (s : σ) (d : δ) (m : Message) (h : Handed) :
      Step c (.holding s d m) ⟨.send m, h⟩ (.judged s d m h)
  | acked (s : σ) (d : δ) (m : Message) (h : Handed) (hd : h.isDelivered = true) (u : Unit) :
      Step c (.judged s d m h) ⟨.source (.ask s (.ack m.tag)), .ok u⟩ (.consuming s d)
  | notAcked (s : σ) (d : δ) (m : Message) (h : Handed) (hd : h.isDelivered = true)
      (e : LinkError) :
      Step c (.judged s d m h) ⟨.source (.ask s (.ack m.tag)), .error e⟩ (.spoiled s)
  | nacked (s : σ) (d : δ) (m : Message) (h : Handed) (hd : h.isDelivered = false) (u : Unit) :
      Step c (.judged s d m h) ⟨.source (.ask s (.nack m.tag true)), .ok u⟩ (.consuming s d)
  | notNacked (s : σ) (d : δ) (m : Message) (h : Handed) (hd : h.isDelivered = false)
      (e : LinkError) :
      Step c (.judged s d m h) ⟨.source (.ask s (.nack m.tag true)), .error e⟩ (.spoiled s)
  | rested {x : Standing σ δ} (h : x.Resting) (d : Duration) (p : Pause) :
      Step c x ⟨.pause d, p⟩ x
  | backendClosed {x : Standing σ δ} (h : x.Resting) (u : Unit) :
      Step c x ⟨.closeBackend, u⟩ x

end Standing

end QueueRelay.Relay

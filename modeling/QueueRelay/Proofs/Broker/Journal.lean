/-
What a call adds to the journal of a broker.

Whatever happens to a broker, its journal only grows.  What is read off it here is what was
published through sessions: a call that publishes with success adds one message, and no
other call adds any, whether it succeeds or not.  Nothing has to be known of the broker for
that.
-/
import QueueRelay.Broker

namespace QueueRelay

/-- What a destination gets to see of a message: its payload and its key. -/
abbrev Parcel := ByteArray × Option String

def Message.parcel (m : Message) : Parcel := (m.payload, m.routingKey)

namespace Broker

def Copy.parcel (copy : Copy) : Parcel := (copy.payload, some copy.key)

/-- What an event says was published through a session. -/
def Event.parcel? : Event → Option Parcel
  | published _ key payload => some (payload, some key)
  | _ => none

/-- What a call on a session publishes. -/
def published (k : Channel.Call) (a : (Channel.calls Stream).Answer k) : List Parcel :=
  match k, a with
  | .publish _ key payload _, .ok .confirmed => [(payload, some key)]
  | _, _ => []

/-- Nothing is published that the broker did not confirm. -/
theorem published_eq_nil {exchange key : String} {payload : ByteArray}
    {options : PublishOptions} {word : Except LinkError PublishStatus}
    (h : word ≠ .ok .confirmed) : published (.publish exchange key payload options) word = [] := by
  unfold published
  split
  · exact absurd rfl h
  · rfl

/-- A change of the broker that adds events to its journal, among them these parcels. -/
def Adds (parcels : List Parcel) (b b' : Broker) : Prop :=
  ∃ events, b'.journal = b.journal ++ events ∧ events.filterMap Event.parcel? = parcels

variable {b b' b'' : Broker} {s : Session} {parcels parcels' : List Parcel}

namespace Adds

theorem trans (h : Adds parcels b b') (h' : Adds parcels' b' b'') :
    Adds (parcels ++ parcels') b b'' := by
  obtain ⟨events, hj, hp⟩ := h
  obtain ⟨events', hj', hp'⟩ := h'
  exact ⟨events ++ events', by rw [hj', hj, List.append_assoc],
    by rw [List.filterMap_append, hp, hp']⟩

theorem of_journal_eq (h : b'.journal = b.journal) : Adds [] b b' :=
  ⟨[], by rw [h, List.append_nil], rfl⟩

theorem refl : Adds [] b b := of_journal_eq rfl

theorem record (e : Event) : Adds e.parcel?.toList b (b.record e) := by
  refine ⟨[e], rfl, ?_⟩
  cases he : e.parcel? <;> simp [he]

/-- Changes made one after the other. -/
theorem foldl {α : Type} {f : Broker → α → Broker} (hf : ∀ b a, Adds [] b (f b a))
    (as : List α) : Adds [] b (as.foldl f b) := by
  induction as generalizing b with
  | nil => exact refl
  | cons a as ih => exact (hf b a).trans ih

end Adds

/-! ### Channels and connections -/

theorem adds_closeChannel (b : Broker) (channel : Nat) (reason : String) :
    Adds [] b (b.closeChannel channel reason) := by
  unfold closeChannel
  split
  · split
    · exact ⟨[.channelClosed channel reason], rfl, rfl⟩
    · exact .refl
  · exact .refl

theorem adds_closeSession (b : Broker) (s : Session) : Adds [] b (b.closeSession s) :=
  (Adds.of_journal_eq rfl).trans (Adds.foldl (fun b k => adds_closeChannel b k _) _)

theorem adds_connect (b : Broker) : Adds [] b b.connect.2 := by
  unfold connect
  split <;> exact .of_journal_eq rfl

theorem adds_reopen (b : Broker) (s : Session) : Adds [] b (b.reopen s).2.2 := by
  unfold reopen
  split
  · exact (adds_closeChannel b s.channel "reopened").trans (.of_journal_eq rfl)
  · exact .refl

/-! ### Calls on a session -/

theorem adds_refuse {α : Type} (b : Broker) (s : Session) (reason : String) (e : LinkError) :
    Adds [] b (b.refuse (α := α) s reason e).2 :=
  adds_closeChannel b s.channel reason

/-- A call adds what it adds on an open session, and nothing on another one. -/
theorem adds_guarded {α : Type} {act : Broker → Except LinkError α × Broker}
    (h : Adds [] b (act b).2) : Adds [] b (b.guarded s act).2 := by
  unfold guarded
  split
  · exact h
  · exact .refl

theorem adds_declareExchange (b : Broker) (s : Session) (name : String) (kind : ExchangeKind)
    (how : Declaration) : Adds [] b (b.declareExchange s name kind how).2 := by
  refine adds_guarded ?_
  dsimp only
  split
  · exact adds_refuse b s _ _
  · exact ⟨[.exchangeDeclared name how.isPassive], by split <;> rfl, rfl⟩

theorem adds_declareQueue (b : Broker) (s : Session) (name : String) (how : Declaration) :
    Adds [] b (b.declareQueue s name how).2 := by
  refine adds_guarded ?_
  dsimp only
  split
  · exact adds_refuse b s _ _
  · exact ⟨[.queueDeclared name how.isPassive], by split <;> rfl, rfl⟩

theorem adds_bind (b : Broker) (s : Session) (x : Binding) : Adds [] b (b.bind s x).2 := by
  refine adds_guarded ?_
  split
  · exact ⟨[.bound x], rfl, rfl⟩
  · exact adds_refuse b s _ _

theorem adds_setPrefetch (b : Broker) (s : Session) (count : Nat) :
    Adds [] b (b.setPrefetch s count).2 :=
  adds_guarded (.of_journal_eq rfl)

theorem adds_consume (b : Broker) (s : Session) (name : String) :
    Adds [] b (b.consume s name).2 := by
  refine adds_guarded ?_
  split
  · exact .refl
  · exact adds_refuse b s _ _

theorem adds_ack (b : Broker) (s : Session) (tag : DeliveryTag) :
    Adds [] b (b.ack s tag).2 := by
  refine adds_guarded ?_
  split
  · exact ⟨[_], rfl, rfl⟩
  · exact adds_refuse b s _ _

theorem adds_nack (b : Broker) (s : Session) (tag : DeliveryTag) (requeue : Bool) :
    Adds [] b (b.nack s tag requeue).2 := by
  refine adds_guarded ?_
  split
  · rename_i d hd
    exact ⟨[.nacked s.channel tag.value d requeue], by cases requeue <;> rfl, rfl⟩
  · exact adds_refuse b s _ _

/-! ### Publishing -/

theorem adds_enqueueAll (b : Broker) (key : String) (payload : ByteArray)
    (queues : List String) : Adds [] b (b.enqueueAll key payload queues) :=
  Adds.foldl (fun _ _ => ⟨[_], rfl, rfl⟩) queues

/-- A message is published just if the broker confirms it. -/
theorem adds_publish (b : Broker) (s : Session) (exchange key : String) (payload : ByteArray)
    (options : PublishOptions) :
    Adds (published (.publish exchange key payload options)
      (b.publish s exchange key payload options).1) b
      (b.publish s exchange key payload options).2 := by
  unfold publish guarded
  split
  · dsimp only
    split
    · exact adds_refuse b s _ _
    · split
      · exact .of_journal_eq rfl
      · split
        · exact .record _
        · exact (adds_enqueueAll b key payload _).trans (.record _)
  · exact .refl

/-- **A call adds to the journal what it publishes.** -/
theorem adds_answer (b : Broker) (s : Session) (k : Channel.Call) :
    Adds (published k (b.answer s k).1) b (b.answer s k).2.2 := by
  cases k with
  | declareExchange name kind how => exact adds_declareExchange b s name kind how
  | declareQueue name how => exact adds_declareQueue b s name how
  | bind name exchange key => exact adds_bind b s _
  | setPrefetch count => exact adds_setPrefetch b s count
  | publish exchange key payload options => exact adds_publish b s exchange key payload options
  | consume name tag => exact adds_consume b s name
  | ack tag => exact adds_ack b s tag
  | nack tag requeue => exact adds_nack b s tag requeue
  | reopen => exact adds_reopen b s

end Broker

end QueueRelay

/-
What became of the messages of a run.

The exchanges of a run name a message when it comes and when it is handed over; when it is
disposed of they name only its tag.  `handlings` puts together what belongs together, by
taking each word of the backend and each answer to a disposition for the latest message.
That this is right is a matter of standing: both are only ever got while the latest message
is in hand, and the next one comes only after it was disposed of.
-/
import QueueRelay.Proofs.Relay.Standing

namespace QueueRelay.Relay

variable {σ δ : Type} {c : Settings}

/-- A message that came, and what became of it so far. -/
structure Handling where
  message : Message
  /-- The backend's word. -/
  handed : Option Handed := none
  /-- How it ended to acknowledge the message. -/
  acked : Option (Except LinkError Unit) := none
  /-- How it ended to give the message back. -/
  returned : Option (Except LinkError Unit) := none

namespace Handling

/-- The backend took charge of the message. -/
def isDelivered (h : Handling) : Bool :=
  match h.handed with
  | some a => a.isDelivered
  | none => false

/-- The message was acknowledged at the source. -/
def isAcked (h : Handling) : Bool :=
  match h.acked with
  | some (.ok _) => true
  | _ => false

/-- The source did not take the acknowledgement of the message. -/
def isAckFailed (h : Handling) : Bool :=
  match h.acked with
  | some (.error _) => true
  | _ => false

/-- The backend took charge of the message, and it is not acknowledged. -/
def isUnacked (h : Handling) : Bool := h.isDelivered && !h.isAcked

/-- The message was handed over and disposed of, with or without success. -/
inductive IsComplete : Handling → Prop
  | acked (m : Message) {a : Handed} (ha : a.isDelivered = true) (r : Except LinkError Unit) :
      IsComplete { message := m, handed := some a, acked := some r }
  | returned (m : Message) {a : Handed} (ha : a.isDelivered = false)
      (r : Except LinkError Unit) :
      IsComplete { message := m, handed := some a, returned := some r }

/-- What was delivered was acknowledged or failed to be, and nothing else was. -/
theorem IsComplete.isDelivered {h : Handling} (hc : h.IsComplete) :
    h.isDelivered = (h.isAcked || h.isAckFailed) := by
  cases hc with
  | acked m ha r => cases r <;> exact ha
  | returned m ha r => exact ha

end Handling

/-- Takes an exchange into account; the latest message comes first. -/
def note (hs : List Handling) (e : (calls σ δ).Exchange) : List Handling :=
  match e, hs with
  | ⟨.next _, .message m⟩, hs => { message := m } :: hs
  | ⟨.send _, a⟩, h :: hs => { h with handed := some a } :: hs
  | ⟨.source (.ask _ (.ack _)), r⟩, h :: hs => { h with acked := some r } :: hs
  | ⟨.source (.ask _ (.nack _ _)), r⟩, h :: hs => { h with returned := some r } :: hs
  | _, hs => hs

/-- What became of the messages, in the order in which they came. -/
def handlings (t : List (calls σ δ).Exchange) : List Handling := (t.foldl note []).reverse

/-- The messages of the handlings that satisfy `p`. -/
def messagesOf (p : Handling → Bool) (hs : List Handling) : List Message :=
  (hs.filter p).map (·.message)

/-- The message that a backend took charge of in an exchange. -/
def delivers (e : (calls σ δ).Exchange) : List Message :=
  match e with
  | ⟨.send m, a⟩ => if a.isDelivered then [m] else []
  | _ => []

namespace Standing

/-- The message that an exchange acknowledges, at a standing. -/
def acknowledges (x : Standing σ δ) (e : (calls σ δ).Exchange) : List Message :=
  match e, x with
  | ⟨.source (.ask _ (.ack _)), .ok _⟩, .judged _ _ m _ => [m]
  | _, _ => []

/-- The handlings so far, the latest first: each is complete, but for that of the message
in hand. -/
def Books : Standing σ δ → List Handling → Prop
  | holding _ _ m, hs => ∃ rest, hs = { message := m } :: rest ∧ ∀ h ∈ rest, h.IsComplete
  | judged _ _ m a, hs =>
    ∃ rest, hs = { message := m, handed := some a } :: rest ∧ ∀ h ∈ rest, h.IsComplete
  | _, hs => ∀ h ∈ hs, h.IsComplete

end Standing

/-! ### One exchange -/

theorem reverse_acknowledges {σ δ : Type} (x : Standing σ δ) (e : (calls σ δ).Exchange) :
    (x.acknowledges e).reverse = x.acknowledges e := by
  unfold Standing.acknowledges
  split <;> rfl

theorem reverse_delivers {σ δ : Type} (e : (calls σ δ).Exchange) :
    (delivers e).reverse = delivers e := by
  unfold delivers
  split
  · split <;> rfl
  · rfl

variable {x y : Standing σ δ} {e : (calls σ δ).Exchange} {hs : List Handling}

/-- What a step does to the books. -/
structure Noted (y : Standing σ δ) (acked delivered : List Message)
    (hs hs' : List Handling) : Prop where
  books : y.Books hs'
  acked : messagesOf Handling.isAcked hs' = acked ++ messagesOf Handling.isAcked hs
  delivered : messagesOf Handling.isDelivered hs' =
    delivered ++ messagesOf Handling.isDelivered hs

/-- A complete handling in place of one that was not disposed of yet. -/
theorem noted_complete {m : Message} {a : Handed} {h : Handling} {rest : List Handling}
    (hm : h.message = m) (ha : h.handed = some a) (hc : h.IsComplete)
    (hrest : ∀ h ∈ rest, h.IsComplete)
    (hy : ∀ hs' : List Handling, (∀ h ∈ hs', h.IsComplete) → y.Books hs') :
    Noted y (if h.isAcked then [m] else []) [] ({ message := m, handed := some a } :: rest)
      (h :: rest) := by
  have hopen : ({ message := m, handed := some a } : Handling).isAcked = false := rfl
  refine ⟨hy _ (List.forall_mem_cons.2 ⟨hc, hrest⟩), ?_, ?_⟩
  · cases hk : h.isAcked <;> simp [messagesOf, hopen, hk, hm]
  · cases hd : a.isDelivered <;> simp [messagesOf, Handling.isDelivered, ha, hd, hm]

theorem noted_of_eq {hs' : List Handling} (h : y.Books hs') (heq : hs' = hs) :
    Noted y [] [] hs hs' := by
  subst heq
  exact ⟨h, rfl, rfl⟩

/-- Every step keeps the books. -/
theorem noted_step (hstep : x.Step c e y) (h : x.Books hs) :
    Noted y (x.acknowledges e) (delivers e) hs (note hs e) := by
  cases hstep with
  | took s d m =>
      refine ⟨⟨hs, rfl, h⟩, ?_, ?_⟩
      · simp [note, messagesOf, Handling.isAcked, Standing.acknowledges]
      · simp [note, messagesOf, Handling.isDelivered, delivers]
  | handed s d m a =>
      obtain ⟨rest, rfl, hrest⟩ := h
      refine ⟨⟨rest, rfl, hrest⟩, ?_, ?_⟩
      · simp [note, messagesOf, Handling.isAcked, Standing.acknowledges]
      · cases hd : a.isDelivered <;>
          simp [note, messagesOf, Handling.isDelivered, delivers, hd]
  | acked s d m a hd u =>
      obtain ⟨rest, rfl, hrest⟩ := h
      exact noted_complete (y := .consuming s d) rfl rfl (.acked m hd (.ok u)) hrest
        fun _ => id
  | notAcked s d m a hd e =>
      obtain ⟨rest, rfl, hrest⟩ := h
      exact noted_complete (y := .spoiled s) rfl rfl (.acked m hd (.error e)) hrest
        fun _ => id
  | nacked s d m a hd u =>
      obtain ⟨rest, rfl, hrest⟩ := h
      exact noted_complete (y := .consuming s d) rfl rfl (.returned m hd (.ok u)) hrest
        fun _ => id
  | notNacked s d m a hd e =>
      obtain ⟨rest, rfl, hrest⟩ := h
      exact noted_complete (y := .spoiled s) rfl rfl (.returned m hd (.error e)) hrest
        fun _ => id
  | prepared s k hk r =>
      cases k with
      | declareExchange | declareQueue | bind | reopen => exact noted_of_eq h rfl
      | _ => exact hk.elim
  | connected hx | refused hx =>
      cases hx <;> exact noted_of_eq h rfl
  | foundClosed hx => cases hx <;> exact noted_of_eq h rfl
  | closed hx => cases hx <;> exact noted_of_eq h rfl
  | rested hx | backendClosed hx => exact noted_of_eq h rfl
  | _ => exact noted_of_eq h rfl

/-- What is true of every message that came stays so. -/
theorem forall_note {P : Message → Prop} (h : ∀ g ∈ hs, P g.message)
    (he : ∀ d m, e = ⟨.next d, .message m⟩ → P m) : ∀ g ∈ note hs e, P g.message := by
  unfold note
  split
  · exact List.forall_mem_cons.2 ⟨he _ _ rfl, h⟩
  · exact List.forall_mem_cons.2 (List.forall_mem_cons.1 h)
  · exact List.forall_mem_cons.2 (List.forall_mem_cons.1 h)
  · exact List.forall_mem_cons.2 (List.forall_mem_cons.1 h)
  · exact h

/-! ### A whole run -/

/-- What the books of a run say, the latest message first. -/
theorem handlings_snoc (t : List (calls σ δ).Exchange) (e : (calls σ δ).Exchange) :
    handlings (t ++ [e]) = (note (handlings t).reverse e).reverse := by
  simp [handlings]

theorem messagesOf_reverse (p : Handling → Bool) (hs : List Handling) :
    messagesOf p hs.reverse = (messagesOf p hs).reverse := by
  simp [messagesOf]

/-- Every step adds to the handlings what it acknowledges and what it delivers. -/
theorem handlings_step {t : List (calls σ δ).Exchange} (hstep : x.Step c e y)
    (h : x.Books (handlings t).reverse) :
    y.Books (handlings (t ++ [e])).reverse ∧
      messagesOf Handling.isAcked (handlings (t ++ [e])) =
        messagesOf Handling.isAcked (handlings t) ++ x.acknowledges e ∧
      messagesOf Handling.isDelivered (handlings (t ++ [e])) =
        messagesOf Handling.isDelivered (handlings t) ++ delivers e := by
  have hnoted := noted_step hstep h
  rw [handlings_snoc, List.reverse_reverse]
  refine ⟨hnoted.books, ?_, ?_⟩
  · rw [messagesOf_reverse, hnoted.acked, List.reverse_append, reverse_acknowledges,
      ← messagesOf_reverse, List.reverse_reverse]
  · rw [messagesOf_reverse, hnoted.delivered, List.reverse_append, reverse_delivers,
      ← messagesOf_reverse, List.reverse_reverse]

/-! ### What the books say -/

theorem complete_or_open (h : x.Books hs) {g : Handling} (hg : g ∈ hs) :
    g.IsComplete ∨ g.acked = none := by
  cases x with
  | holding | judged =>
      obtain ⟨rest, rfl, hrest⟩ := h
      rcases List.mem_cons.1 hg with rfl | hg
      · exact .inr rfl
      · exact .inl (hrest g hg)
  | apart | joined | limited | consuming | spoiled | lapsed => exact .inl (h g hg)

/-- Only what the backend took charge of is acknowledged. -/
theorem isDelivered_of_isAcked (h : x.Books hs) {g : Handling} (hg : g ∈ hs)
    (ha : g.isAcked = true) : g.isDelivered = true := by
  rcases complete_or_open h hg with hc | hnone
  · rw [hc.isDelivered, ha, Bool.true_or]
  · rw [Handling.isAcked, hnone] at ha
    cases ha

/-- The acknowledged handlings are found among those that were delivered. -/
theorem filter_isAcked (h : x.Books hs.reverse) :
    hs.filter Handling.isAcked = (hs.filter Handling.isDelivered).filter Handling.isAcked := by
  rw [List.filter_filter]
  refine List.filter_congr fun g hg => ?_
  cases ha : g.isAcked with
  | false => rfl
  | true => exact (isDelivered_of_isAcked h (List.mem_reverse.2 hg) ha).symm

/-- What was acknowledged are some of the messages that were delivered, in their order. -/
theorem acked_sublist_delivered (h : x.Books hs.reverse) :
    (messagesOf Handling.isAcked hs).Sublist (messagesOf Handling.isDelivered hs) := by
  unfold messagesOf
  rw [filter_isAcked h]
  exact List.Sublist.map _ List.filter_sublist

/-- What was delivered was acknowledged or is unacknowledged. -/
theorem length_delivered (h : x.Books hs.reverse) :
    (messagesOf Handling.isDelivered hs).length =
      (messagesOf Handling.isAcked hs).length + hs.countP Handling.isUnacked := by
  have hsplit := (hs.filter Handling.isDelivered).length_eq_countP_add_countP Handling.isAcked
  simp only [messagesOf, List.length_map]
  rw [hsplit, List.countP_eq_length_filter, ← filter_isAcked h, List.countP_filter]
  refine congrArg _ (List.countP_congr fun g _ => ?_)
  simp [Handling.isUnacked, and_comm]

end QueueRelay.Relay

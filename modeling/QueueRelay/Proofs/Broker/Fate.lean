/-
What becomes of a message that reaches a broker.

Publishing on an open session comes to one of four ends, and which one it is can be read off
the broker beforehand: the exchange is missing, a refusal to confirm is due, no queue takes the
message, or the message is taken.  Only in the last does any queue change.

Looking after a connection leaves all of this as it is.  A session with nothing out on its
connection is closed without a trace in any queue, and opening another changes nothing that
decides the end of a message.
-/
import QueueRelay.Proofs.Broker.Endings
import QueueRelay.Proofs.Broker.Journal
import QueueRelay.Proofs.Broker.Routes

namespace QueueRelay.Broker

variable {b b' b'' : Broker} {s : Session} {k : Nat} {exchange key : String}
  {payload : ByteArray}

/-! ### Changes that put nothing on a queue -/

/-- No copy is put on any queue, and nothing is published. -/
structure Untouched (b b' : Broker) : Prop where
  queues : b'.queues = b.queues
  made : b'.made = b.made
  published : Adds [] b b'

/-- Nothing changes by which the end of a message is decided, either. -/
structure Still (b b' : Broker) : Prop extends Untouched b b' where
  exchanges : b'.exchanges = b.exchanges
  bindings : b'.bindings = b.bindings
  nacksDue : b'.nacksDue = b.nacksDue

theorem Untouched.refl (b : Broker) : Untouched b b := ⟨rfl, rfl, .refl⟩

theorem Untouched.trans (h : Untouched b b') (h' : Untouched b' b'') : Untouched b b'' where
  queues := h'.queues.trans h.queues
  made := h'.made.trans h.made
  published := h.published.trans h'.published

theorem Still.refl (b : Broker) : Still b b := ⟨.refl b, rfl, rfl, rfl⟩

theorem Still.trans (h : Still b b') (h' : Still b' b'') : Still b b'' where
  toUntouched := h.toUntouched.trans h'.toUntouched
  exchanges := h'.exchanges.trans h.exchanges
  bindings := h'.bindings.trans h.bindings
  nacksDue := h'.nacksDue.trans h.nacksDue

theorem made_closeChannel (k : Nat) (reason : String) :
    (b.closeChannel k reason).made = b.made := by
  unfold closeChannel
  split
  · split
    · simp [made, Event.made?]
    · rfl
  · rfl

/-- A channel with nothing out gives nothing back. -/
theorem still_closeChannel (h : b.Sound) (hk : ∀ x ∈ b.loans, x.channel ≠ k) (reason : String) :
    Still b (b.closeChannel k reason) where
  queues := by
    rw [queues_closeChannel h]
    refine Table.mapWith_eq_self fun name q _ => ?_
    rw [owed_eq_nil hk, Queue.behind_nil]
  made := made_closeChannel k reason
  published := adds_closeChannel b k reason
  exchanges := exchanges_closeChannel k reason
  bindings := by rw [closeChannel_eq]
  nacksDue := by rw [closeChannel_eq]

theorem still_closeAll {ks : List Nat} (h : b.Sound)
    (hks : ∀ k ∈ ks, ∀ x ∈ b.loans, x.channel ≠ k) (reason : String) :
    Still b (b.closeAll ks reason) := by
  induction ks generalizing b with
  | nil => exact .refl b
  | cons k ks ih =>
      have hclosed : Unnoticed "" (fun _ => True) b (b.closeChannel k reason) :=
        follows_closeChannel h k reason
      have hfirst := still_closeChannel h (hks k List.mem_cons_self) reason
      refine hfirst.trans (ih hclosed.sound fun j hj x hx => ?_)
      rcases hclosed.loans x hx with hx | ⟨-, hx⟩
      · exact hks j (List.mem_cons_of_mem _ hj) x hx
      · exact absurd trivial hx

/-- What closing one channel leaves as it is, closing several does. -/
theorem closeAll_congr {γ : Type} {f : Broker → γ} {reason : String}
    (hf : ∀ b k, f (closeChannel b k reason) = f b) (ks : List Nat) :
    f (b.closeAll ks reason) = f b := by
  induction ks generalizing b with
  | nil => rfl
  | cons k ks ih => exact (ih (b := b.closeChannel k reason)).trans (hf b k)

/-! ### Looking after a connection -/

/-- Nothing changes by which the end of an attempt to connect is decided, either. -/
structure Calm (b b' : Broker) : Prop extends Still b b' where
  refusalsDue : b'.refusalsDue = b.refusalsDue
  connectionsOpened : b'.connectionsOpened = b.connectionsOpened

theorem Calm.refl (b : Broker) : Calm b b := ⟨.refl b, rfl, rfl⟩

/-- A session with nothing out on its connection is closed without a trace. -/
theorem calm_closeSession (h : b.Sound)
    (hs : ∀ x ∈ b.loans, ∀ lane, b.channels.get? x.channel = some lane →
      lane.connection ≠ s.connection) : Calm b (b.closeSession s) := by
  have hclear : ∀ k ∈ b.channelsOf s.connection, ∀ x ∈ b.loans, x.channel ≠ k := by
    rintro k hk x hx rfl
    obtain ⟨⟨j, lane⟩, hm, rfl⟩ := List.mem_map.1 hk
    obtain ⟨hl, hconn⟩ := List.mem_filter.1 hm
    exact hs x hx lane (Table.get?_of_mem h.nodup hl) (of_decide_eq_true hconn)
  have hall : Still b (b.closeAll (b.channelsOf s.connection) "closed by client") :=
    still_closeAll h hclear _
  rw [closeSession, closeConnection_eq]
  exact
    { queues := hall.queues
      made := hall.made
      published := hall.published
      exchanges := hall.exchanges
      bindings := hall.bindings
      nacksDue := hall.nacksDue
      refusalsDue := closeAll_congr (f := Broker.refusalsDue) (fun b k => by rw [closeChannel_eq]) _
      connectionsOpened :=
        closeAll_congr (f := Broker.connectionsOpened) (fun b k => by rw [closeChannel_eq]) _ }

/-- An attempt to connect works unless a refusal is due. -/
theorem connect_cases (b : Broker) :
    (0 < b.refusalsDue ∧ ∃ e b', b.connect = (.error e, b') ∧ Still b b' ∧
      b'.connectionsOpened = b.connectionsOpened) ∨
    (b.refusalsDue = 0 ∧ ∃ s b', b.connect = (.ok s, b') ∧ Still b b' ∧
      b'.connectionsOpened = b.connectionsOpened + 1 ∧ b'.check s = .ok ()) := by
  unfold connect
  split
  · rename_i hdue
    exact .inl ⟨hdue, _, _, rfl, ⟨⟨rfl, rfl, .of_journal_eq rfl⟩, rfl, rfl, rfl⟩, rfl⟩
  · rename_i hdue
    refine .inr ⟨Nat.eq_zero_of_not_pos hdue, _, _, rfl,
      ⟨⟨rfl, rfl, .of_journal_eq rfl⟩, rfl, rfl, rfl⟩, rfl, ?_⟩
    exact check_openChannel_self mem_withConnection

/-! ### Publishing -/

/-- What becomes of a message. -/
inductive Fate where
  /-- Its exchange has a name and does not exist. -/
  | astray
  /-- The broker does not take charge of it. -/
  | nacked
  /-- No queue takes it. -/
  | homeless
  | taken
deriving DecidableEq

/-- What will become of a message that is published on an open session. -/
def fate (b : Broker) (exchange key : String) : Fate :=
  if exchange ≠ "" ∧ b.exchanges.contains exchange = false then .astray
  else if 0 < b.nacksDue then .nacked
  else if b.route exchange key = [] then .homeless
  else .taken

/-- A message has reached the queues that take it, once each. -/
structure Spread (b : Broker) (exchange key : String) (payload : ByteArray) (b' : Broker) :
    Prop where
  arrived : ∀ queue ∈ b.route exchange key, ∃ copy : Copy, copy.payload = payload ∧
    copy.key = key ∧ b'.ready queue = b.ready queue ++ [copy]
  elsewhere : ∀ queue, queue ∉ b.route exchange key → b'.ready queue = b.ready queue
  published : Adds [(payload, some key)] b b'

theorem route_congr (h : Still b b') : b'.route exchange key = b.route exchange key := by
  unfold route carries
  rw [h.queues, h.exchanges, h.bindings]

theorem fate_congr (h : Still b b') : b'.fate exchange key = b.fate exchange key := by
  unfold fate
  rw [route_congr h, h.exchanges, h.nacksDue]

theorem Spread.of_still (h : Still b b') (h' : Spread b' exchange key payload b'') :
    Spread b exchange key payload b'' := by
  have hready : ∀ queue, b'.ready queue = b.ready queue := by
    intro queue
    unfold ready
    rw [h.queues]
  refine ⟨fun queue hq => ?_, fun queue hq => ?_, h.published.trans h'.published⟩
  · rw [← hready]
    exact h'.arrived queue (route_congr h ▸ hq)
  · rw [← hready]
    exact h'.elsewhere queue (route_congr h ▸ hq)

/-- What enqueueing one copy leaves as it is, enqueueing several does. -/
theorem enqueueAll_congr {γ : Type} {f : Broker → γ}
    (hf : ∀ b name, f (enqueue key payload b name) = f b) (names : List String) :
    f (b.enqueueAll key payload names) = f b := by
  unfold enqueueAll
  induction names generalizing b with
  | nil => rfl
  | cons name names ih => exact (ih (b := enqueue key payload b name)).trans (hf b name)

/-- The broker's word on a message, by what becomes of it. -/
def Fate.Word : Fate → Except LinkError PublishStatus → Prop
  | .astray, word => ∃ reason, word = .error (.notFound reason)
  | .nacked, word => word = .ok .nacked
  | .homeless, word => ∃ reason, word = .ok (.returned reason)
  | .taken, word => word = .ok .confirmed

/-- What a message changes at the broker, by what becomes of it. -/
def Fate.Effect (f : Fate) (exchange key : String) (payload : ByteArray) (b b' : Broker) : Prop :=
  if f = .taken then Spread b exchange key payload b' else Untouched b b'

theorem Fate.Effect.of_still {f : Fate} (h : Still b b')
    (h' : f.Effect exchange key payload b' b'') : f.Effect exchange key payload b b'' := by
  unfold Effect at h' ⊢
  split
  · rename_i hf
    rw [if_pos hf] at h'
    exact h'.of_still h
  · rename_i hf
    rw [if_neg hf] at h'
    exact h.toUntouched.trans h'

/-- A message was published on a session. -/
structure Published (b : Broker) (s : Session) (exchange key : String) (payload : ByteArray)
    (word : Except LinkError PublishStatus) (b' : Broker) : Prop where
  word : (b.fate exchange key).Word word
  effect : (b.fate exchange key).Effect exchange key payload b b'
  connectionsOpened : b'.connectionsOpened = b.connectionsOpened
  /-- The session goes on, unless the exchange is missing. -/
  isOpen : b'.isOpen s = decide (b.fate exchange key ≠ .astray)

theorem isOpen_iff_check : b.isOpen s = true ↔ b.check s = .ok () := by
  unfold isOpen
  cases b.check s <;> simp

/-- A message whose exchange is missing costs the session its channel. -/
theorem published_astray (h : b.Sound) (hc : b.check s = .ok ())
    (hs : ∀ x ∈ b.loans, x.channel ≠ s.channel) (hf : b.fate exchange key = .astray)
    (text reason : String) :
    Published b s exchange key payload (.error (.notFound text))
      (b.closeChannel s.channel reason) where
  word := by
    rw [hf]
    exact ⟨text, rfl⟩
  effect := by
    rw [hf]
    exact (still_closeChannel h hs reason).toUntouched
  connectionsOpened := by rw [closeChannel_eq]
  isOpen := by
    rw [hf]
    unfold isOpen
    rw [check_closeChannel_self hc]
    rfl

/-- A message that no queue takes changes at most the journal and what else is due. -/
theorem published_untaken {word : Except LinkError PublishStatus} (hc : b.check s = .ok ())
    (hword : (b.fate exchange key).Word word) (hastray : b.fate exchange key ≠ .astray)
    (htaken : b.fate exchange key ≠ .taken) (hu : Untouched b b')
    (hconn : b'.connectionsOpened = b.connectionsOpened) (hcheck : b'.check s = b.check s) :
    Published b s exchange key payload word b' where
  word := hword
  effect := by
    unfold Fate.Effect
    rwa [if_neg htaken]
  connectionsOpened := hconn
  isOpen := by
    rw [isOpen_iff_check.2 (hcheck.trans hc), decide_eq_true hastray]

/-- A message that is taken reaches every queue that takes it. -/
theorem published_taken (hc : b.check s = .ok ()) (hf : b.fate exchange key = .taken) :
    Published b s exchange key payload (.ok .confirmed)
      ((b.enqueueAll key payload (b.route exchange key)).record
        (.published exchange key payload)) where
  word := by
    rw [hf]
    rfl
  effect := by
    rw [hf]
    exact
      { arrived := by
          intro queue hq
          obtain ⟨number, hready⟩ :=
            ready_enqueueAll (nodup_route b exchange key) hq (contains_of_mem_route hq)
          exact ⟨_, rfl, rfl, hready⟩
        elsewhere := fun queue hq => ready_enqueueAll_of_not_mem hq
        published := (adds_enqueueAll b key payload _).trans (.record _) }
  connectionsOpened := enqueueAll_congr (f := Broker.connectionsOpened) (fun _ _ => rfl) _
  isOpen := by
    have hcheck : (b.enqueueAll key payload (b.route exchange key)).check s = b.check s :=
      enqueueAll_congr (f := fun b => b.check s) (fun _ _ => rfl) _
    rw [hf]
    exact isOpen_iff_check.2 (hcheck.trans hc)

/-- **The end of a message can be read off the broker beforehand.** -/
theorem publish_fate (h : b.Sound) (hc : b.check s = .ok ())
    (hs : ∀ x ∈ b.loans, x.channel ≠ s.channel) (exchange key : String) (payload : ByteArray) :
    Published b s exchange key payload (b.publish s exchange key payload {}).1
      (b.publish s exchange key payload {}).2 := by
  unfold publish guarded
  rw [hc]
  dsimp only
  split
  · rename_i hx
    have hf : b.fate exchange key = .astray := by
      unfold fate
      rw [if_pos (by simpa using hx)]
    exact published_astray h hc hs hf _ _
  · rename_i hx
    have hnamed : ¬ (exchange ≠ "" ∧ b.exchanges.contains exchange = false) := by simpa using hx
    split
    · rename_i hnack
      have hf : b.fate exchange key = .nacked := by
        unfold fate
        rw [if_neg hnamed, if_pos hnack]
      exact published_untaken hc (by rw [hf]; rfl) (by simp [hf]) (by simp [hf])
        ⟨rfl, rfl, .of_journal_eq rfl⟩ rfl rfl
    · rename_i hnack
      split
      · rename_i hroute
        have hf : b.fate exchange key = .homeless := by
          unfold fate
          rw [if_neg hnamed, if_neg hnack, if_pos (by simpa using hroute)]
        refine published_untaken hc (by rw [hf]; exact ⟨_, rfl⟩) (by simp [hf]) (by simp [hf])
          ⟨rfl, ?_, .record _⟩ rfl rfl
        simp [made, record, Event.made?]
      · rename_i hroute
        have hf : b.fate exchange key = .taken := by
          unfold fate
          rw [if_neg hnamed, if_neg hnack, if_neg (by simpa using hroute)]
        exact published_taken hc hf

end QueueRelay.Broker

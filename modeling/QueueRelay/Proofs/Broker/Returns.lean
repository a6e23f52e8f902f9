/-
What a channel gives back, queue by queue.

A channel that closes changes every queue in one way: the copies that it had out from there
come to stand in front, marked as redelivered.  Said of the table of queues as a whole, that
is a change of each queue by its name, and changes of this kind can be put together, in any
number, without looking at the deliveries again.

Other channels notice nothing.  They keep what they have out, and a session that does not use
the channel is open after it if it was open before.
-/
import QueueRelay.Proofs.Broker.Deeds

namespace QueueRelay.Broker

variable {b b' : Broker} {s : Session} {j k : Nat} {queue : String}

/-! ### What a channel owes -/

/-- The copies of a queue that a channel has out, as it would give them back. -/
def owed (b : Broker) (k : Nat) (queue : String) : List Copy :=
  (copiesFrom queue (b.loans.filter fun x => x.channel = k)).map Copy.returned

/-- A queue with some copies put in front. -/
def Queue.behind (q : Queue) (copies : List Copy) : Queue := { q with ready := copies ++ q.ready }

@[simp] theorem Queue.behind_nil (q : Queue) : q.behind [] = q := rfl

theorem Queue.behind_behind (q : Queue) (l l' : List Copy) :
    (q.behind l).behind l' = q.behind (l' ++ l) := by
  simp [behind]

theorem owed_eq_nil (h : ∀ x ∈ b.loans, x.channel ≠ k) : b.owed k queue = [] := by
  have hnil : (b.loans.filter fun x => x.channel = k) = [] :=
    List.filter_eq_nil_iff.2 fun x hx => by simpa using h x hx
  unfold owed
  rw [hnil]
  rfl

/-- Nothing is owed to a queue that is not there. -/
theorem owed_of_missing (h : b.Placed) (hq : b.queues.contains queue = false) :
    b.owed k queue = [] := by
  have hnil : copiesFrom queue (b.loans.filter fun x => x.channel = k) = [] := by
    refine copiesFrom_eq_nil ?_
    rintro x hx rfl
    rw [h.rooted x (List.mem_filter.1 hx).1] at hq
    cases hq
  unfold owed
  rw [hnil]
  rfl

/-- What is put in front of every queue is ready there before what was. -/
theorem ready_behind {l : String → List Copy}
    (h : b'.queues = b.queues.mapWith fun name q => q.behind (l name))
    (hl : b.queues.get? queue = none → l queue = []) :
    b'.ready queue = l queue ++ b.ready queue := by
  unfold ready
  rw [h, Table.get?_mapWith]
  cases hq : b.queues.get? queue with
  | none => simp [hl hq]
  | some q => rfl

/-- A queue that is made anew has nothing ready. -/
theorem ready_set {name : String} {durable : Bool} (hn : b.queues.get? name = none)
    (h : b'.queues = b.queues.set name { durable := durable }) :
    b'.ready queue = b.ready queue := by
  unfold ready
  rw [h, Table.get?_set]
  by_cases hq : name = queue
  · subst hq
    rw [if_pos rfl, hn]
  · rw [if_neg hq]

/-! ### Closing -/

/-- Closing a channel touches the queues, the channels and the journal, and nothing else. -/
theorem closeChannel_eq (k : Nat) (reason : String) :
    b.closeChannel k reason =
      { b with
        queues := (b.closeChannel k reason).queues
        channels := (b.closeChannel k reason).channels
        journal := (b.closeChannel k reason).journal } := by
  unfold closeChannel
  split
  · split <;> rfl
  · rfl

theorem exchanges_closeChannel (k : Nat) (reason : String) :
    (b.closeChannel k reason).exchanges = b.exchanges := by
  rw [closeChannel_eq]

theorem lastId_closeChannel (k : Nat) (reason : String) :
    (b.closeChannel k reason).lastId = b.lastId := by
  rw [closeChannel_eq]

theorem denies_closeChannel (k : Nat) (reason : String) :
    (b.closeChannel k reason).deniesDeclarations = b.deniesDeclarations := by
  rw [closeChannel_eq]

theorem giveBackAll_eq (ds : List Delivery) (queues : Table String Queue) :
    giveBackAll ds queues = queues.mapWith fun name q =>
      q.behind ((ds.filter fun d => d.queue = name).map fun d => d.copy.returned) := by
  induction ds with
  | nil => exact (Table.mapWith_eq_self fun _ _ _ => rfl).symm
  | cons d ds ih =>
      show (giveBackAll ds queues).modify d.queue (fun q => q.behind [d.copy.returned]) = _
      rw [ih, Table.modify_eq_mapWith, Table.mapWith_mapWith]
      refine Table.mapWith_congr fun name q _ => ?_
      by_cases hd : d.queue = name
      · simp [hd, Queue.behind]
      · simp [hd, Ne.symm hd]

/-- Nothing is out on a channel that is not open. -/
theorem not_mem_loans_of_shut (h : b.Sound)
    (hk : ∀ lane, b.channels.get? k = some lane → lane.isOpen = false) :
    ∀ x ∈ b.loans, x.channel ≠ k := by
  rintro x hx rfl
  obtain ⟨lane, hl, hd⟩ := exists_lane_of_mem_loans h hx
  rw [h.emptied _ lane hl (hk lane hl)] at hd
  cases hd

theorem queues_closeChannel (h : b.Sound) (k : Nat) (reason : String) :
    (b.closeChannel k reason).queues =
      b.queues.mapWith fun name q => q.behind (b.owed k name) := by
  have hshut : (∀ lane, b.channels.get? k = some lane → lane.isOpen = false) →
      b.queues = b.queues.mapWith fun name q => q.behind (b.owed k name) := by
    intro hk
    refine (Table.mapWith_eq_self fun name q _ => ?_).symm
    rw [owed_eq_nil (not_mem_loans_of_shut h hk), Queue.behind_nil]
  unfold closeChannel
  split
  · rename_i lane hl
    split
    · obtain ⟨before, after, hb, hother, -⟩ := loans_around h hl
      show giveBackAll _ b.queues = _
      rw [giveBackAll_eq]
      refine Table.mapWith_congr fun name q _ => ?_
      rw [owed, (filter_loans hb hother).1, copiesFrom_lane, List.map_map]
      rfl
    · rename_i ho
      refine hshut fun lane' hl' => ?_
      rw [hl] at hl'
      cases hl'
      simpa using ho
  · rename_i hl
    refine hshut fun lane hl' => ?_
    rw [hl] at hl'
    cases hl'

theorem loans_closeChannel (h : b.Sound) (k : Nat) (reason : String) :
    (b.closeChannel k reason).loans = b.loans.filter fun x => x.channel ≠ k := by
  have hshut : (∀ lane, b.channels.get? k = some lane → lane.isOpen = false) →
      b.loans = b.loans.filter fun x => x.channel ≠ k := by
    intro hk
    refine (List.filter_eq_self.2 fun x hx => ?_).symm
    simpa using not_mem_loans_of_shut h hk x hx
  unfold closeChannel
  split
  · rename_i lane hl
    split
    · obtain ⟨before, after, hb, hother, hset⟩ := loans_around h hl
      rw [(filter_loans hb hother).2, hset _ lane.shut rfl]
      simp [Lane.loans, Lane.shut, Table.empty]
    · rename_i ho
      refine hshut fun lane' hl' => ?_
      rw [hl] at hl'
      cases hl'
      simpa using ho
  · rename_i hl
    refine hshut fun lane hl' => ?_
    rw [hl] at hl'
    cases hl'

theorem owed_closeChannel_self (h : b.Sound) (k : Nat) (reason : String) :
    (b.closeChannel k reason).owed k queue = [] := by
  refine owed_eq_nil fun x hx => ?_
  rw [loans_closeChannel h] at hx
  simpa using (List.mem_filter.1 hx).2

theorem owed_closeChannel (h : b.Sound) (reason : String) (hjk : j ≠ k) :
    (b.closeChannel k reason).owed j queue = b.owed j queue := by
  unfold owed
  rw [loans_closeChannel h, List.filter_filter]
  have hsame : (b.loans.filter fun x => decide (x.channel = j) && decide (x.channel ≠ k)) =
      b.loans.filter fun x => x.channel = j := by
    refine List.filter_congr fun x _ => ?_
    by_cases hx : x.channel = j <;> simp [hx, hjk]
  rw [hsame]

/-! ### Other sessions -/

theorem connected_of_check {u : Unit} (h : b.check s = .ok u) : s.connection ∈ b.connections := by
  unfold check at h
  split at h
  · rename_i hc
    exact List.contains_iff_mem.1 hc
  · cases h

theorem get?_channels_closeChannel (hjk : j ≠ k) (reason : String) :
    (b.closeChannel k reason).channels.get? j = b.channels.get? j := by
  unfold closeChannel
  split
  · split
    · exact (Table.get?_set _ _ _ _).trans (if_neg hjk.symm)
    · rfl
  · rfl

/-- A channel that closes leaves the sessions that do not use it as they are. -/
theorem check_closeChannel (hs : s.channel ≠ k) (reason : String) :
    (b.closeChannel k reason).check s = b.check s := by
  unfold check
  rw [connections_closeChannel, get?_channels_closeChannel hs]

/-- A session whose channel was closed has lost its channel. -/
theorem check_closeChannel_self (h : b.check s = .ok ()) (reason : String) :
    (b.closeChannel s.channel reason).check s = .error (.connectionLost "channel closed") := by
  obtain ⟨lane, hl, ho⟩ := lane_of_check h
  have hset : (b.closeChannel s.channel reason).channels =
      b.channels.set s.channel lane.shut := by
    unfold closeChannel
    rw [hl]
    dsimp only
    rw [if_pos ho]
    rfl
  unfold check
  rw [connections_closeChannel, hset, Table.get?_set, if_pos rfl]
  have hconn : b.connections.contains s.connection = true :=
    List.contains_iff_mem.2 (connected_of_check h)
  rw [if_pos hconn]
  rfl

/-- A channel that opens leaves the sessions that were there before as they are. -/
theorem check_openChannel (hs : s.channel ≤ b.lastId) (c : Nat) :
    (b.openChannel c).check s = b.check s := by
  unfold check
  rw [get?_openChannel, if_neg (Nat.ne_of_gt (Nat.lt_succ_of_le hs))]
  rfl

/-- A session on a channel that just opened on an open connection is open. -/
theorem check_openChannel_self {c : Nat} (hc : c ∈ b.connections) :
    (b.openChannel c).check ⟨c, b.lastId + 1⟩ = .ok () := by
  have hconn : (b.openChannel c).connections.contains c = true := List.contains_iff_mem.2 hc
  unfold check
  rw [get?_openChannel, if_pos rfl, if_pos hconn]
  rfl

theorem owed_openChannel (h : b.Sound) (c : Nat) :
    (b.openChannel c).owed k queue = b.owed k queue := by
  unfold owed
  rw [loans_openChannel h]

end QueueRelay.Broker

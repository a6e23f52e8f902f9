/-
Channels and connections that end, and those that begin.

A channel gives back what it had out, in front of what is ready.  That this keeps the copies
of a queue in order rests on at most one of them being out: if the channel had it, no other
channel had any, so there is nothing that would have to stay in front of it.

When a connection ends its channels are closed one after the other.  The connection is taken
off the list before that, so in between there are open channels without a connection; but
closing a channel takes no account of the connections, and the two can be exchanged.
-/
import QueueRelay.Proofs.Broker.Change

namespace QueueRelay.Broker

variable {b b' : Broker} {queue : String} {mine : Nat → Prop}

/-! ### Giving back -/

/-- The copy as it comes back from a channel. -/
def Copy.returned (c : Copy) : Copy := { c with redelivered := true }

@[simp] theorem fresh_returned (c : Copy) : c.returned.fresh = c.fresh := rfl

theorem contains_giveBack (d : Delivery) (queues : Table String Queue) :
    (giveBack d queues).contains queue = queues.contains queue :=
  Table.contains_modify _

theorem contains_giveBackAll (ds : List Delivery) (queues : Table String Queue) :
    (giveBackAll ds queues).contains queue = queues.contains queue := by
  induction ds with
  | nil => rfl
  | cons d ds ih => exact (contains_giveBack d (giveBackAll ds queues)).trans ih

theorem ready_giveBack {d : Delivery} (h : b'.queues = giveBack d b.queues)
    (hc : d.queue = queue → b.queues.contains queue = true) :
    b'.ready queue = (if d.queue = queue then [d.copy.returned] else []) ++ b.ready queue := by
  split
  · rename_i hd
    subst hd
    exact ready_modify_self (g := fun l => d.copy.returned :: l) h (hc rfl) fun _ => rfl
  · rename_i hd
    exact ready_modify h hd

/-- What is given back to a queue stands in front of it, in the order in which it went. -/
theorem ready_giveBackAll {ds : List Delivery} (h : b'.queues = giveBackAll ds b.queues)
    (hc : ∀ d ∈ ds, d.queue = queue → b.queues.contains queue = true) :
    b'.ready queue =
      ((ds.filter fun d => d.queue = queue).map fun d => d.copy.returned) ++ b.ready queue := by
  induction ds generalizing b' with
  | nil =>
      unfold ready
      rw [h]
      rfl
  | cons d ds ih =>
      have hrest := @ih { b with queues := giveBackAll ds b.queues } rfl
        fun d hd => hc d (List.mem_cons_of_mem _ hd)
      have hfirst : b'.ready queue = _ :=
        ready_giveBack (b := { b with queues := giveBackAll ds b.queues }) h fun hd =>
          (contains_giveBackAll ds b.queues).trans (hc d List.mem_cons_self hd)
      rw [hfirst, hrest]
      by_cases hd : d.queue = queue <;> simp [hd]

/-! ### Closing a channel -/

/-- A list of at most one element has no element on two sides of a cut. -/
theorem nil_or_nil_of_length_le_one {α : Type} {before mid after : List α}
    (h : (before ++ mid ++ after).length ≤ 1) :
    mid = [] ∨ (before = [] ∧ after = []) := by
  simp only [List.length_append] at h
  by_cases hmid : mid.length = 0
  · exact .inl (List.length_eq_zero_iff.1 hmid)
  · have hbefore : before.length = 0 := by omega
    have hafter : after.length = 0 := by omega
    exact .inr ⟨List.length_eq_zero_iff.1 hbefore, List.length_eq_zero_iff.1 hafter⟩

/-- The lane of a channel after it was closed. -/
def Lane.shut (lane : Lane) : Lane := { lane with isOpen := false, unacked := .empty }

theorem follows_shut (h : b.Sound) {k : Nat} {lane : Lane}
    (hl : b.channels.get? k = some lane) (hc : b'.channels = b.channels.set k lane.shut)
    (hq : b'.queues = giveBackAll (lane.unacked.entries.map Prod.snd) b.queues)
    (hn : b'.connections = b.connections) (hi : b'.lastId = b.lastId)
    (henq : b'.enqueuedOn queue = b.enqueuedOn queue)
    (hack : b'.ackedFrom queue = b.ackedFrom queue) : Unnoticed queue mine b b' := by
  obtain ⟨before, after, hb, -, hset⟩ := loans_around h hl
  have hb' : b'.loans = before ++ after := by
    rw [hset b' lane.shut hc]
    simp [Lane.loans, Lane.shut, Table.empty]
  have hsub : ∀ x ∈ b'.loans, x ∈ b.loans := by
    intro x hx
    rw [hb'] at hx
    rw [hb]
    simp only [List.mem_append] at hx ⊢
    rcases hx with hx | hx
    · exact .inl (.inl hx)
    · exact .inr hx
  have hmid : copiesFrom queue (lane.loans k) = _ := copiesFrom_lane lane k
  have hout : b.outstanding queue =
      copiesFrom queue before ++ copiesFrom queue (lane.loans k) ++ copiesFrom queue after := by
    simp only [outstanding, hb, copiesFrom_append]
  have hout' : b'.outstanding queue = copiesFrom queue before ++ copiesFrom queue after := by
    simp only [outstanding, hb', copiesFrom_append]
  have hbalanced : b.Balanced queue → b'.Balanced queue := by
    intro hbal
    have hrooted : ∀ d ∈ lane.unacked.entries.map Prod.snd, d.queue = queue →
        b.queues.contains queue = true := by
      intro d hd hdq
      refine hbal.rooted (List.ne_nil_of_mem (a := d.copy) ?_)
      rw [hout, hmid]
      refine List.mem_append_left _ (List.mem_append_right _ (List.mem_map.2 ⟨d, ?_, rfl⟩))
      exact List.mem_filter.2 ⟨hd, by simpa using hdq⟩
    have hready : b'.ready queue =
        (copiesFrom queue (lane.loans k)).map Copy.returned ++ b.ready queue := by
      rw [ready_giveBackAll hq hrooted, hmid, List.map_map]
      rfl
    have hsingle := hbal.single
    rw [hout] at hsingle
    refine ⟨?_, ?_, ?_⟩
    · rw [hack, henq, hready, hout', ← hbal.conserved, hout]
      -- either this channel had nothing of the queue, or no other channel had any
      rcases nil_or_nil_of_length_le_one hsingle with hnil | ⟨hnil, hnil'⟩
      · simp [hnil]
      · simp [hnil, hnil', Function.comp_def]
    · rw [hout', List.length_append]
      simp only [List.length_append] at hsingle
      omega
    · intro hne
      rw [hq, contains_giveBackAll]
      refine hbal.rooted fun hnil => hne ?_
      rw [hout, List.append_assoc, List.append_eq_nil_iff, List.append_eq_nil_iff] at hnil
      rw [hout', hnil.1, hnil.2.2, List.append_nil]
  have hopen : lane.shut.isOpen = true → lane.isOpen = true := by
    intro ho
    cases ho
  exact
    { sound := h.set hl hc hn hi rfl hopen (fun _ => rfl)
      balanced := hbalanced
      loans := fun x hx => .inl (hsub x hx)
      acked := by rw [hack, List.append_nil]
      lanes := lanes_set hl hc rfl
      lastId := Nat.le_of_eq hi.symm }

/-- Closing a channel is not noticed by those who consume through another. -/
theorem follows_closeChannel (h : b.Sound) (k : Nat) (reason : String) :
    Unnoticed queue mine b (b.closeChannel k reason) := by
  unfold closeChannel
  split
  · rename_i lane hl
    split
    · refine follows_shut h hl rfl rfl rfl rfl ?_ ?_
      · simp [enqueuedOn, Event.enqueuedOn?]
      · simp [ackedFrom, Event.ackedFrom?]
    · exact .refl h
  · exact .refl h

/-- A channel that is open after another was closed was open before. -/
theorem open_of_closeChannel {k j : Nat} {reason : String} {lane : Lane}
    (hl : (b.closeChannel k reason).channels.get? j = some lane) (ho : lane.isOpen = true) :
    j ≠ k ∧ b.channels.get? j = some lane := by
  unfold closeChannel at hl
  cases hk : b.channels.get? k with
  | none =>
      simp only [hk] at hl
      refine ⟨?_, hl⟩
      rintro rfl
      rw [hk] at hl
      cases hl
  | some closed =>
      simp only [hk] at hl
      split at hl
      · rw [Table.get?_set] at hl
        split at hl
        · cases hl
          cases ho
        · rename_i hne
          exact ⟨fun hjk => hne hjk.symm, hl⟩
      · refine ⟨?_, hl⟩
        rintro rfl
        rw [hk] at hl
        cases hl
        contradiction

/-! ### Closing a connection -/

/-- Closes channels one after the other. -/
def closeAll (b : Broker) (ks : List Nat) (reason : String) : Broker :=
  ks.foldl (fun b k => b.closeChannel k reason) b

theorem follows_closeAll (h : b.Sound) (ks : List Nat) (reason : String) :
    Unnoticed queue mine b (b.closeAll ks reason) :=
  Follows.foldl (fun _ k hb => follows_closeChannel hb k reason) ks h

theorem open_of_closeAll {ks : List Nat} {j : Nat} {reason : String} {lane : Lane}
    (hl : (b.closeAll ks reason).channels.get? j = some lane) (ho : lane.isOpen = true) :
    j ∉ ks ∧ b.channels.get? j = some lane := by
  induction ks generalizing b with
  | nil => exact ⟨List.not_mem_nil, hl⟩
  | cons k ks ih =>
      obtain ⟨hks, hl⟩ := ih hl
      obtain ⟨hk, hl⟩ := open_of_closeChannel hl ho
      refine ⟨?_, hl⟩
      intro hm
      rcases List.mem_cons.1 hm with hm | hm
      · exact hk hm
      · exact hks hm

theorem closeChannel_severed (cs : List Nat) (k : Nat) (reason : String) :
    closeChannel { b with connections := cs } k reason =
      { b.closeChannel k reason with connections := cs } := by
  unfold closeChannel
  dsimp only
  split
  · split <;> rfl
  · rfl

theorem closeAll_severed (cs ks : List Nat) (reason : String) :
    closeAll { b with connections := cs } ks reason =
      { b.closeAll ks reason with connections := cs } := by
  induction ks generalizing b with
  | nil => rfl
  | cons k ks ih =>
      show closeAll (closeChannel { b with connections := cs } k reason) ks reason = _
      rw [closeChannel_severed]
      exact ih

theorem closeConnection_eq (c : Nat) (reason : String) :
    b.closeConnection c reason =
      { b.closeAll (b.channelsOf c) reason with
        connections := b.connections.filter (· ≠ c) } :=
  closeAll_severed _ _ _

theorem connections_closeChannel (k : Nat) (reason : String) :
    (b.closeChannel k reason).connections = b.connections := by
  unfold closeChannel
  split
  · split <;> rfl
  · rfl

theorem follows_closeConnection (h : b.Sound) (c : Nat) (reason : String) :
    Unnoticed queue mine b (b.closeConnection c reason) := by
  rw [closeConnection_eq]
  have hall : Unnoticed queue mine b (b.closeAll (b.channelsOf c) reason) :=
    follows_closeAll h _ reason
  -- a channel that is still open was not one of the connection that ended
  have hanchored : ∀ k lane, (b.closeAll (b.channelsOf c) reason).channels.get? k = some lane →
      lane.isOpen = true → lane.connection ∈ b.connections.filter (· ≠ c) := by
    intro k lane hl ho
    obtain ⟨hk, hbefore⟩ := open_of_closeAll hl ho
    refine List.mem_filter.2 ⟨h.anchored k lane hbefore ho, ?_⟩
    have hne : lane.connection ≠ c := by
      intro hc
      refine hk (List.mem_map.2 ⟨(k, lane), ?_, rfl⟩)
      exact List.mem_filter.2 ⟨Table.mem_of_get? hbefore, by simpa using hc⟩
    simpa using hne
  exact
    { sound := ⟨hall.sound.nodup, hall.sound.known, hall.sound.emptied, hanchored⟩
      balanced := fun hb => (hall.balanced hb).congr rfl rfl id rfl rfl
      loans := hall.loans
      acked := hall.acked
      lanes := hall.lanes
      lastId := hall.lastId }

theorem follows_dropConnections (h : b.Sound) : Unnoticed queue mine b b.dropConnections :=
  Follows.foldl (fun _ c hb => follows_closeConnection hb c _) _ h

theorem follows_closeSession (h : b.Sound) (s : Session) :
    Unnoticed queue mine b (b.closeSession s) :=
  follows_closeConnection h _ _

/-- Nothing is out on a session that was closed. -/
theorem not_mem_loans_closeSession (h : b.Sound) {s : Session} (hs : b.Owns s) :
    ∀ x ∈ (b.closeSession s).loans, x.channel ≠ s.channel := by
  rintro x hx hxs
  have hf : Unnoticed "" (fun _ => True) b (b.closeSession s) := follows_closeSession h s
  obtain ⟨lane, hl, hc⟩ := hs
  obtain ⟨lane', hl', hd⟩ := exists_lane_of_mem_loans hf.sound hx
  cases ho : lane'.isOpen with
  | false =>
      rw [hf.sound.emptied _ _ hl' ho] at hd
      cases hd
  | true =>
      unfold closeSession at hl'
      rw [closeConnection_eq] at hl'
      obtain ⟨hk, hl'⟩ := open_of_closeAll hl' ho
      rw [hxs] at hk
      refine hk (List.mem_map.2 ⟨(s.channel, lane), ?_, rfl⟩)
      exact List.mem_filter.2 ⟨Table.mem_of_get? hl, by simpa using hc⟩

/-- Nothing is out on a session that does not report itself open. -/
theorem not_mem_loans_of_not_isOpen (h : b.Sound) {s : Session} (hs : b.Owns s)
    (hclosed : b.isOpen s = false) : ∀ x ∈ b.loans, x.channel ≠ s.channel := by
  rintro x hx hxs
  obtain ⟨lane, hl, hc⟩ := hs
  obtain ⟨lane', hl', hd⟩ := exists_lane_of_mem_loans h hx
  rw [hxs, hl] at hl'
  cases hl'
  cases ho : lane.isOpen with
  | false =>
      rw [h.emptied _ _ hl ho] at hd
      cases hd
  | true =>
      have hconn : s.connection ∈ b.connections := hc ▸ h.anchored _ _ hl ho
      simp [isOpen, check, hconn, hl, ho] at hclosed

/-! ### Opening -/

/-- Nothing is out on a channel whose number was not given out before. -/
theorem not_mem_loans_of_lt (h : b.Sound) {k : Nat} (hk : b.lastId < k) :
    ∀ x ∈ b.loans, x.channel ≠ k := by
  rintro x hx rfl
  obtain ⟨lane, hl, -⟩ := exists_lane_of_mem_loans h hx
  have hle := h.known _ (Table.mem_keys_of_get? hl)
  omega

theorem owns_openChannel (c : Nat) : (b.openChannel c).Owns ⟨c, (b.openChannel c).lastId⟩ := by
  refine ⟨{ connection := c }, ?_, rfl⟩
  rw [get?_openChannel, if_pos]
  rfl

/-- A channel that was just opened has nothing out. -/
theorem not_mem_loans_openChannel (h : b.Sound) {c : Nat} (hc : c ∈ b.connections) :
    ∀ x ∈ (b.openChannel c).loans, x.channel ≠ (b.openChannel c).lastId := by
  intro x hx
  have hf : Unnoticed "" (fun _ => True) b (b.openChannel c) := follows_openChannel h hc
  rcases hf.loans x hx with hx | ⟨-, hx⟩
  · exact not_mem_loans_of_lt h (Nat.lt_succ_self _) x hx
  · exact absurd trivial hx

/-- A broker with a new connection, before a channel is opened on it. -/
def withConnection (b : Broker) : Broker :=
  { b with
    lastId := b.lastId + 1
    connections := b.connections ++ [b.lastId + 1]
    connectionsOpened := b.connectionsOpened + 1 }

theorem follows_withConnection (h : b.Sound) : Unnoticed queue mine b b.withConnection := by
  have hquiet : Quiet queue b b.withConnection :=
    { channels := rfl
      connections := fun _ hc => List.mem_append_left _ hc
      lastId := Nat.le_succ _
      ready := rfl
      contains := id
      enqueued := rfl
      acked := rfl }
  exact hquiet.follows h

theorem mem_withConnection : b.lastId + 1 ∈ b.withConnection.connections :=
  List.mem_append_right _ (List.mem_singleton.2 rfl)

theorem follows_connect (h : b.Sound) : Unnoticed queue mine b b.connect.2 := by
  unfold connect
  split
  · exact follows_beside h rfl rfl rfl rfl rfl
  · have hnew : Unnoticed queue mine b b.withConnection := follows_withConnection h
    exact hnew.trans (follows_openChannel hnew.sound mem_withConnection)

/-- A new session has a channel of its own, with nothing out. -/
theorem connect_ok (h : b.Sound) {s : Session} (hs : b.connect = (.ok s, b')) :
    b'.Owns s ∧ ∀ x ∈ b'.loans, x.channel ≠ s.channel := by
  unfold connect at hs
  split at hs
  · cases hs
  · cases hs
    have hnew : Unnoticed "" (fun _ => True) b b.withConnection := follows_withConnection h
    exact ⟨owns_openChannel _, not_mem_loans_openChannel hnew.sound mem_withConnection⟩

/-- A new session has a channel with a new number. -/
theorem lt_channel_of_connect {s : Session} (hs : b.connect = (.ok s, b')) :
    b.lastId < s.channel := by
  unfold connect at hs
  split at hs
  · cases hs
  · cases hs
    exact Nat.lt_succ_of_lt (Nat.lt_succ_self _)

theorem follows_reopen (h : b.Sound) (s : Session) :
    Unnoticed queue mine b (b.reopen s).2.2 := by
  unfold reopen
  split
  · rename_i hc
    have hclosed : Unnoticed queue mine b (b.closeChannel s.channel "reopened") :=
      follows_closeChannel h s.channel "reopened"
    refine hclosed.trans (follows_openChannel hclosed.sound ?_)
    rw [connections_closeChannel]
    simpa using hc
  · exact .refl h

/-- A session that got a fresh channel got one with a new number. -/
theorem channel_reopen (h : b.Sound) (s : Session) :
    (b.reopen s).2.1 = s ∨ b.lastId < (b.reopen s).2.1.channel := by
  unfold reopen
  split
  · have hclosed : Unnoticed "" (fun _ => True) b (b.closeChannel s.channel "reopened") :=
      follows_closeChannel h s.channel "reopened"
    exact .inr (Nat.lt_succ_of_le hclosed.lastId)
  · exact .inl rfl

/-- Whether or not a session got a fresh channel, it has one, with nothing out if nothing
was out before. -/
theorem reopen_owns (h : b.Sound) {s : Session} (hs : b.Owns s)
    (hx : ∀ x ∈ b.loans, x.channel ≠ s.channel) :
    (b.reopen s).2.2.Owns (b.reopen s).2.1 ∧
      ∀ x ∈ (b.reopen s).2.2.loans, x.channel ≠ (b.reopen s).2.1.channel := by
  unfold reopen
  split
  · rename_i hc
    have hclosed : Unnoticed "" (fun _ => True) b (b.closeChannel s.channel "reopened") :=
      follows_closeChannel h s.channel "reopened"
    refine ⟨owns_openChannel _, not_mem_loans_openChannel hclosed.sound ?_⟩
    rw [connections_closeChannel]
    simpa using hc
  · exact ⟨hs, hx⟩

end QueueRelay.Broker

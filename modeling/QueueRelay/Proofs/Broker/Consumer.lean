/-
The one consumer of a queue.

As long as nothing of the queue is out, the next delivery is the first copy that is ready,
and it becomes the only one that is out.  It stays out, on the channel it went to, until it
is acknowledged or comes back.  Both leave nothing of the queue out: what was acknowledged
goes behind what was acknowledged before, and what comes back goes in front of what is
ready, so the copies of the queue stay in their order.
-/
import Mathlib.Data.Fintype.EquivFin
import QueueRelay.Proofs.Broker.Calls

namespace QueueRelay.Broker

variable {b b' : Broker} {queue : String} {s : Session} {m : Message}

/-- There is a queue, with a name other than `name`, from which nothing is out. -/
theorem exists_queue_at_rest (b : Broker) (name : String) :
    ∃ queue, queue ≠ name ∧ ∀ l ∈ b.loans, l.delivery.queue ≠ queue := by
  obtain ⟨queue, hq⟩ :=
    Infinite.exists_notMem_finset (name :: b.loans.map (·.delivery.queue)).toFinset
  simp only [List.mem_toFinset, List.mem_cons, List.mem_map, not_or, not_exists, not_and] at hq
  obtain ⟨hname, hloans⟩ := hq
  exact ⟨queue, hname, hloans⟩

/-- The loan is the delivery of a message on a session. -/
structure Loan.Of (s : Session) (queue : String) (m : Message) (x : Loan) : Prop where
  channel : x.channel = s.channel
  tag : x.tag = m.tag.value
  ofQueue : x.delivery.queue = queue
  message : x.delivery.copy.toMessage m.tag.value = m

/-! ### Taking -/

theorem contains_of_ready {copy : Copy} {rest : List Copy}
    (h : b.ready queue = copy :: rest) : b.queues.contains queue = true := by
  unfold ready at h
  split at h
  · rename_i q hq
    exact Table.contains_iff.2 (Table.mem_keys_of_get? hq)
  · cases h

/-- A channel that had nothing out gets one delivery, in between what the others have. -/
theorem loans_lend (h : b.Sound) {k tag : Nat} {lane lane' : Lane} {d : Delivery}
    (hl : b.channels.get? k = some lane) (hempty : lane.unacked.entries = [])
    (hc : b'.channels = b.channels.set k lane') (hnew : lane'.unacked.entries = [(tag, d)]) :
    ∃ before after, b.loans = before ++ after ∧ b'.loans = before ++ ⟨k, tag, d⟩ :: after := by
  obtain ⟨before, after, hb, -, hset⟩ := loans_around h hl
  refine ⟨before, after, ?_, ?_⟩
  · rw [hb]
    simp [Lane.loans, hempty]
  · rw [hset b' lane' hc]
    simp [Lane.loans, hnew]

/-- What is handed out is the only copy of its queue that is out. -/
theorem follows_deliver (h : b.Sound) {t : Stream} {lane : Lane} {copy : Copy}
    {rest : List Copy}
    (hnone : ∀ x ∈ b.loans, x.delivery.queue ≠ t.queue ∧ x.channel ≠ t.session.channel)
    (hl : b.channels.get? t.session.channel = some lane) (ho : lane.isOpen = true)
    (hready : b.ready t.queue = copy :: rest) :
    Follows t.queue (Loan.Of t.session t.queue (b.deliver t lane copy rest).1) [] b
      (b.deliver t lane copy rest).2 := by
  have hc := contains_of_ready hready
  have hempty : lane.unacked.entries = [] := by
    refine List.eq_nil_iff_forall_not_mem.2 ?_
    intro e he
    exact (hnone _ (mem_loans_of_get? hl he)).2 rfl
  let lane' : Lane :=
    { lane with
      lastTag := lane.lastTag + 1
      unacked := lane.unacked.set (lane.lastTag + 1) ⟨t.queue, copy⟩ }
  have hnew : lane'.unacked.entries = [(lane.lastTag + 1, ⟨t.queue, copy⟩)] := by
    show Table.setPairs _ _ lane.unacked.entries = _
    rw [hempty]
    rfl
  have hchannels : (b.deliver t lane copy rest).2.channels =
      b.channels.set t.session.channel lane' := rfl
  have hqueues : (b.deliver t lane copy rest).2.queues =
      b.queues.modify t.queue fun q => { q with ready := rest } := rfl
  obtain ⟨before, after, hb, hb'⟩ := loans_lend h hl hempty hchannels hnew
  have hout : b.outstanding t.queue = [] := copiesFrom_eq_nil fun x hx => (hnone x hx).1
  have hout' : (b.deliver t lane copy rest).2.outstanding t.queue = [copy] := by
    have hsplit := hout
    rw [outstanding, hb, copiesFrom_append, List.append_eq_nil_iff] at hsplit
    rw [outstanding, hb', copiesFrom_append, hsplit.1, List.nil_append, ← List.singleton_append,
      copiesFrom_append, hsplit.2, List.append_nil]
    simp [copiesFrom]
  have hready' : (b.deliver t lane copy rest).2.ready t.queue = rest :=
    ready_modify_self (g := fun _ => rest) hqueues hc fun _ => rfl
  exact
    { sound := by
        refine h.set hl hchannels rfl rfl rfl (fun _ => ho) ?_
        intro hf
        cases ho.symm.trans hf
      balanced := by
        intro hbal
        refine ⟨?_, ?_, ?_⟩
        · rw [ackedFrom_deliver, enqueuedOn_deliver, hout', hready', ← hbal.conserved, hout,
            hready]
          simp
        · rw [hout']
          exact Nat.le_refl 1
        · intro _
          rw [hqueues, Table.contains_modify]
          exact hc
      loans := by
        intro x hx
        rw [hb'] at hx
        rw [hb]
        rcases List.mem_append.1 hx with hx | hx
        · exact .inl (List.mem_append_left _ hx)
        · rcases List.mem_cons.1 hx with rfl | hx
          · exact .inr ⟨rfl, rfl, rfl, rfl⟩
          · exact .inl (List.mem_append_right _ hx)
      acked := by rw [ackedFrom_deliver, List.append_nil]
      lanes := lanes_set hl hchannels rfl
      lastId := Nat.le_refl _ }

/-- What is taken is the first ready copy, and it is out from then on. -/
theorem follows_take (h : b.Sound) {t : Stream}
    (hnone : ∀ x ∈ b.loans, x.delivery.queue ≠ t.queue ∧ x.channel ≠ t.session.channel)
    (ht : b.take t = (.message m, b')) :
    Follows t.queue (Loan.Of t.session t.queue m) [] b b' := by
  unfold take at ht
  split at ht
  · rename_i u lane hcheck hl
    obtain ⟨lane', hl', ho⟩ := lane_of_check hcheck
    rw [hl] at hl'
    cases hl'
    split at ht
    · rename_i copy rest hroom hready
      have hfollows := follows_deliver h hnone hl ho hready
      cases ht
      exact hfollows
    · cases ht
  · cases ht

/-- What comes from a queue carries the key it was published with. -/
theorem routingKey_of_take {t : Stream} (ht : b.take t = (.message m, b')) :
    m.routingKey.isSome = true := by
  unfold take at ht
  split at ht
  · split at ht
    · cases ht
      rfl
    · cases ht
  · cases ht

/-- A stream that is over leaves the broker as it is. -/
theorem take_ended {t : Stream} (ht : b.take t = (.ended, b')) : b' = b := by
  unfold take at ht
  split at ht
  · split at ht <;> cases ht
  · cases ht
    rfl

/-! ### Disposing of a delivery -/

/-- What is known once the delivery of a message was taken off its channel. -/
structure Settled (queue : String) (s : Session) (m : Message) (d : Delivery)
    (b b' : Broker) : Prop where
  ofQueue : d.queue = queue
  message : d.copy.toMessage m.tag.value = m
  /-- Nothing is out on the session any more, and what else is out was out before. -/
  loans : ∀ x ∈ b'.loans, x ∈ b.loans ∧ x.channel ≠ s.channel
  before : b.Balanced queue → b.outstanding queue = [d.copy]
  after : b.Balanced queue → b'.outstanding queue = []
  sound : b'.Sound
  lanes : ∀ k lane, b.channels.get? k = some lane →
    ∃ lane', b'.channels.get? k = some lane' ∧ lane'.connection = lane.connection

/-- The delivery of a message is the only one on its session, and so the only one of its
queue. -/
theorem settled_settle (h : b.Sound) {lane : Lane} {d : Delivery}
    (hloans : ∀ x ∈ b.loans, x.channel = s.channel → x.Of s queue m)
    (hl : b.channels.get? s.channel = some lane) (ho : lane.isOpen = true)
    (hd : lane.unacked.get? m.tag.value = some d)
    (hc : b'.channels = (b.settle s m.tag).channels)
    (hn : b'.connections = b.connections) (hi : b'.lastId = b.lastId) :
    Settled queue s m d b b' := by
  have hof : ∀ e ∈ lane.unacked.entries, Loan.Of s queue m ⟨s.channel, e.1, e.2⟩ := by
    intro e he
    exact hloans _ (mem_loans_of_get? hl he) rfl
  have hmem := Table.mem_of_get? hd
  have hqueue : d.queue = queue := (hof _ hmem).ofQueue
  have hempty : (lane.unacked.erase m.tag.value).entries = [] := by
    refine List.filter_eq_nil_iff.2 fun e he => ?_
    simpa using (hof e he).tag
  have hchannels := hc.trans (channels_modifyLane h hl _)
  obtain ⟨before, after, hb, hother, hset⟩ := loans_around h hl
  have hb' := hset b' _ hchannels
  simp only [Lane.loans, hempty, List.map_nil, List.append_nil] at hb'
  have hcopies : ∀ hbal : b.Balanced queue, copiesFrom queue (lane.loans s.channel) = [d.copy] ∧
      copiesFrom queue before = [] ∧ copiesFrom queue after = [] := by
    intro hbal
    have hin : d.copy ∈ copiesFrom queue (lane.loans s.channel) := by
      refine List.mem_map.2 ⟨⟨s.channel, m.tag.value, d⟩, List.mem_filter.2 ⟨?_, ?_⟩, rfl⟩
      · exact List.mem_map.2 ⟨_, hmem, rfl⟩
      · simpa using hqueue
    have hsingle := hbal.single
    rw [outstanding, hb, copiesFrom_append, copiesFrom_append] at hsingle
    rcases nil_or_nil_of_length_le_one hsingle with hnil | ⟨hnil, hnil'⟩
    · rw [hnil] at hin
      cases hin
    · rw [hnil, hnil', List.nil_append, List.append_nil] at hsingle
      have hpos : 0 < (copiesFrom queue (lane.loans s.channel)).length :=
        List.length_pos_of_mem hin
      obtain ⟨copy, hcopy⟩ := List.length_eq_one_iff.1 (Nat.le_antisymm hsingle hpos)
      rw [hcopy, List.mem_singleton] at hin
      rw [hcopy, hin]
      exact ⟨rfl, hnil, hnil'⟩
  exact
    { ofQueue := hqueue
      message := (hof _ hmem).message
      loans := by
        intro x hx
        rw [hb'] at hx
        rw [hb]
        refine ⟨?_, hother x hx⟩
        simp only [List.mem_append] at hx ⊢
        rcases hx with hx | hx
        · exact .inl (.inl hx)
        · exact .inr hx
      before := by
        intro hbal
        obtain ⟨hmid, hnil, hnil'⟩ := hcopies hbal
        rw [outstanding, hb, copiesFrom_append, copiesFrom_append, hmid, hnil, hnil',
          List.nil_append, List.append_nil]
      after := by
        intro hbal
        obtain ⟨-, hnil, hnil'⟩ := hcopies hbal
        rw [outstanding, hb', copiesFrom_append, hnil, hnil', List.append_nil]
      sound := h.set hl hchannels hn hi rfl (fun _ => ho) (fun _ => hempty)
      lanes := lanes_set hl hchannels rfl }

/-- A delivery was disposed of in a way that keeps the copies of the queue in order. -/
theorem Settled.follows {d : Delivery} {gone : List Copy} (hset : Settled queue s m d b b')
    (hi : b'.lastId = b.lastId) (hacked : b'.ackedFrom queue = b.ackedFrom queue ++ gone)
    (hconserved : b.Balanced queue → (b'.ackedFrom queue ++ b'.ready queue).map Copy.fresh =
      (b'.enqueuedOn queue).map Copy.fresh) :
    Follows queue (fun _ => False) gone b b' where
  sound := hset.sound
  balanced := by
    intro hbal
    have hnil : b'.outstanding queue = [] := hset.after hbal
    refine ⟨?_, ?_, ?_⟩
    · rw [hnil, List.append_nil]
      exact hconserved hbal
    · rw [hnil]
      exact Nat.zero_le 1
    · intro hne
      exact absurd hnil hne
  loans := by
    intro x hx
    exact .inl (hset.loans x hx).1
  acked := hacked
  lanes := hset.lanes
  lastId := Nat.le_of_eq hi.symm

/-- An acknowledged delivery goes behind what was acknowledged before. -/
theorem follows_ack (h : b.Sound) {u : Unit}
    (hloans : ∀ x ∈ b.loans, x.channel = s.channel → x.Of s queue m)
    (hack : b.ack s m.tag = (.ok u, b')) :
    ∃ copy : Copy, copy.toMessage m.tag.value = m ∧
      Follows queue (fun _ => False) [copy] b b' ∧ ∀ x ∈ b'.loans, x.channel ≠ s.channel := by
  rcases ack_cases b s m.tag with ⟨lane, d, hl, ho, hd, hok⟩ | ⟨e, herr | herr⟩
  · rw [hack] at hok
    cases hok
    have hset : Settled queue s m d b (b.acknowledged s m.tag d) :=
      settled_settle h hloans hl ho hd rfl rfl rfl
    have hacked : (b.acknowledged s m.tag d).ackedFrom queue =
        b.ackedFrom queue ++ [d.copy] := by
      rw [ackedFrom_acknowledged, if_pos hset.ofQueue]
    have henq : (b.acknowledged s m.tag d).enqueuedOn queue = b.enqueuedOn queue :=
      enqueuedOn_acknowledged _ _
    have hconserved : b.Balanced queue →
        ((b.acknowledged s m.tag d).ackedFrom queue ++
          (b.acknowledged s m.tag d).ready queue).map Copy.fresh =
        ((b.acknowledged s m.tag d).enqueuedOn queue).map Copy.fresh := by
      intro hbal
      rw [hacked, henq, ← hbal.conserved, hset.before hbal]
      rfl
    refine ⟨d.copy, hset.message, hset.follows rfl hacked hconserved, ?_⟩
    intro x hx
    exact (hset.loans x hx).2
  · cases hack.symm.trans herr
  · cases hack.symm.trans herr

/-- A delivery that is given back goes in front of what is ready. -/
theorem follows_nack (h : b.Sound) {u : Unit}
    (hloans : ∀ x ∈ b.loans, x.channel = s.channel → x.Of s queue m)
    (hnack : b.nack s m.tag true = (.ok u, b')) :
    Follows queue (fun _ => False) [] b b' ∧ ∀ x ∈ b'.loans, x.channel ≠ s.channel := by
  rcases nack_cases b s m.tag true with ⟨lane, d, hl, ho, hd, hok⟩ | ⟨e, herr | herr⟩
  · rw [hnack] at hok
    cases hok
    have hset : Settled queue s m d b (b.gaveUp s m.tag d true) :=
      settled_settle h hloans hl ho hd rfl rfl rfl
    have hacked : (b.gaveUp s m.tag d true).ackedFrom queue = b.ackedFrom queue :=
      ackedFrom_gaveUp _ _ _
    have henq : (b.gaveUp s m.tag d true).enqueuedOn queue = b.enqueuedOn queue :=
      enqueuedOn_gaveUp _ _ _
    have hroot : b.Balanced queue → b.queues.contains queue = true := by
      intro hbal
      refine hbal.rooted ?_
      rw [hset.before hbal]
      exact List.cons_ne_nil _ _
    have hready : b.Balanced queue →
        (b.gaveUp s m.tag d true).ready queue = d.copy.returned :: b.ready queue := by
      intro hbal
      rw [ready_gaveUp (fun _ => hroot hbal), if_pos ⟨rfl, hset.ofQueue⟩]
      rfl
    have hconserved : b.Balanced queue →
        ((b.gaveUp s m.tag d true).ackedFrom queue ++
          (b.gaveUp s m.tag d true).ready queue).map Copy.fresh =
        ((b.gaveUp s m.tag d true).enqueuedOn queue).map Copy.fresh := by
      intro hbal
      rw [hacked, henq, hready hbal, ← hbal.conserved, hset.before hbal]
      simp
    refine ⟨hset.follows rfl (hacked.trans (List.append_nil _).symm) hconserved, ?_⟩
    intro x hx
    exact (hset.loans x hx).2
  · cases hnack.symm.trans herr
  · cases hnack.symm.trans herr

/-- A disposition that fails is not noticed. -/
theorem unnoticed_failed {mine : Nat → Prop} (h : b.Sound) {k : Channel.Call} (hk : Settles k)
    {e : LinkError} (hf : (b.answer s k).1 = Simulation.failing e k) :
    Unnoticed queue mine b (b.answer s k).2.2 := by
  rcases failed_of_settles hk hf with heq | heq <;> rw [heq]
  · exact .refl h
  · exact follows_closeChannel h _ _

end QueueRelay.Broker

/-
How deliveries begin and end when any number of consumers have some.

A delivery gets the tag that comes next on its channel.  The tags that are out there are at
most the latest one, so it takes nobody's place.  A consumer that acknowledges or returns a
delivery names it by its tag, and because no tag is out twice on a channel, one delivery
leaves the channel and no more.
-/
import QueueRelay.Proofs.Broker.Consumer
import QueueRelay.Proofs.Broker.Shifts

namespace QueueRelay.Broker

variable {b b' : Broker} {s : Session} {settled : List Event}

/-! ### Disposing of a delivery -/

/-- The events by which a call on a session settles a delivery. -/
def settledBy (b : Broker) (s : Session) (k : Channel.Call) (a : (Channel.calls Stream).Answer k) :
    List Event :=
  match k, a with
  | .ack tag, .ok _ => ((b.outstanding? s tag).map (.acked s.channel tag.value)).toList
  | .nack tag false, .ok _ =>
    ((b.outstanding? s tag).map fun d => .nacked s.channel tag.value d false).toList
  | _, _ => []

theorem settledBy_failing (b : Broker) (s : Session) (k : Channel.Call) (e : LinkError) :
    b.settledBy s k (Simulation.failing e k) = [] := by
  cases k with
  | nack tag requeue => cases requeue <;> rfl
  | _ => rfl

/-- A delivery leaves an open channel, to be settled or to go back to its queue. -/
theorem shifts_settle (h : b.Placed) {lane : Lane} {tag : DeliveryTag} {d : Delivery}
    (hl : b.channels.get? s.channel = some lane) (ho : lane.isOpen = true)
    (hd : lane.unacked.get? tag.value = some d)
    (hc : b'.channels = (b.settle s tag).channels) (hn : b'.connections = b.connections)
    (hi : b'.lastId = b.lastId) (hq : b'.queues.keys = b.queues.keys) (hm : b'.made = b.made)
    (hk : b'.copies = b.copies) (hset : b'.settlements = b.settlements ++ settled)
    (hmoved : ((settled.filterMap Event.gone? ++ b'.waiting).map Delivery.fresh).Perm
      ((d :: b.waiting).map Delivery.fresh)) : Shifts settled b b' := by
  have hchannels := hc.trans (channels_modifyLane h.sound hl _)
  have htags := h.tags _ _ hl
  have hleft := (Table.perm_erase htags hd).map Prod.snd
  refine shifts_lane h ?_ hl hchannels hq hm hk hset ?_ ?_ ?_ ?_
  · refine h.sound.set hl hchannels hn hi rfl (fun _ => ho) ?_
    intro hf
    cases ho.symm.trans hf
  · exact Table.keys_erase_sublist.nodup htags
  · intro other hother
    exact h.tagged _ _ hl other (Table.keys_erase_sublist.subset hother)
  · intro e he
    exact h.rooted _ (mem_loans_of_get? hl (mem_of_mem_erase he))
  · refine List.perm_iff_count.2 fun x => ?_
    have hleft := (hleft.map Delivery.fresh).count_eq x
    have hmoved := hmoved.count_eq x
    simp only [List.map_append, List.map_cons, List.count_append, List.count_cons]
      at hleft hmoved ⊢
    omega

theorem outstanding?_eq {lane : Lane} {tag : DeliveryTag} {d : Delivery}
    (hl : b.channels.get? s.channel = some lane) (hd : lane.unacked.get? tag.value = some d) :
    b.outstanding? s tag = some d := by
  unfold outstanding?
  rw [hl]
  exact hd

theorem mem_loans_of_outstanding? {tag : DeliveryTag} {d : Delivery}
    (h : b.outstanding? s tag = some d) : ⟨s.channel, tag.value, d⟩ ∈ b.loans := by
  obtain ⟨lane, hl, hd⟩ := Option.bind_eq_some_iff.1 h
  exact mem_loans_of_get? hl (Table.mem_of_get? hd)

/-- What a call settles was out on its session. -/
theorem mem_settledBy {k : Channel.Call} {a : (Channel.calls Stream).Answer k} {e : Event}
    (h : e ∈ b.settledBy s k a) :
    ∃ tag d, ⟨s.channel, tag, d⟩ ∈ b.loans ∧ e.gone? = some d := by
  unfold settledBy at h
  split at h
  · rw [Option.mem_toList] at h
    obtain ⟨d, hd, rfl⟩ := Option.map_eq_some_iff.1 h
    exact ⟨_, d, mem_loans_of_outstanding? hd, rfl⟩
  · rw [Option.mem_toList] at h
    obtain ⟨d, hd, rfl⟩ := Option.map_eq_some_iff.1 h
    exact ⟨_, d, mem_loans_of_outstanding? hd, rfl⟩
  · cases h

/-- What is acknowledged goes. -/
theorem shifts_acknowledged (h : b.Placed) {lane : Lane} {tag : DeliveryTag} {d : Delivery}
    (hl : b.channels.get? s.channel = some lane) (ho : lane.isOpen = true)
    (hd : lane.unacked.get? tag.value = some d) :
    Shifts [.acked s.channel tag.value d] b (b.acknowledged s tag d) := by
  refine shifts_settle h hl ho hd rfl rfl rfl rfl ?_ rfl ?_ ?_
  · exact (made_record _).trans (List.append_nil _)
  · exact settlements_record _
  · exact .refl _

theorem shifts_ack (h : b.Placed) (tag : DeliveryTag) :
    Shifts (b.settledBy s (.ack tag) (b.ack s tag).1) b (b.ack s tag).2 := by
  rcases ack_cases b s tag with ⟨lane, d, hl, ho, hd, hack⟩ | ⟨e, hack | hack⟩
  · rw [hack]
    simp only [settledBy, outstanding?_eq hl hd, Option.map_some, Option.toList_some]
    exact shifts_acknowledged h hl ho hd
  · rw [hack]
    exact .refl h
  · rw [hack]
    exact shifts_closeChannel h _ _

/-- What is acknowledged with success was out on the session. -/
theorem shifts_acked (h : b.Placed) {tag : DeliveryTag} {u : Unit}
    (hack : b.ack s tag = (.ok u, b')) :
    ∃ d, ⟨s.channel, tag.value, d⟩ ∈ b.loans ∧ Shifts [.acked s.channel tag.value d] b b' := by
  have hshifts := shifts_ack (s := s) h tag
  rcases ack_cases b s tag with ⟨lane, d, hl, ho, hd, hok⟩ | ⟨e, herr | herr⟩
  · rw [hack] at hok hshifts
    cases hok
    simp only [settledBy, outstanding?_eq hl hd, Option.map_some, Option.toList_some] at hshifts
    exact ⟨d, mem_loans_of_get? hl (Table.mem_of_get? hd), hshifts⟩
  · cases hack.symm.trans herr
  · cases hack.symm.trans herr

/-- What is returned goes if it is not to be requeued. -/
theorem shifts_gaveUp (h : b.Placed) {lane : Lane} {tag : DeliveryTag} {d : Delivery}
    (hl : b.channels.get? s.channel = some lane) (ho : lane.isOpen = true)
    (hd : lane.unacked.get? tag.value = some d) (requeue : Bool) :
    Shifts (if requeue then [] else [.nacked s.channel tag.value d false]) b
      (b.gaveUp s tag d requeue) := by
  have hroot : b.queues.contains d.queue = true :=
    h.rooted _ (mem_loans_of_get? hl (Table.mem_of_get? hd))
  cases requeue with
  | true =>
      refine shifts_settle h hl ho hd rfl rfl rfl (keys_giveBack d b.queues) ?_ rfl ?_ ?_
      · exact (made_record (b := b.settle s tag) _).trans (List.append_nil _)
      · exact settlements_record (b := b.settle s tag) _
      · exact (waiting_giveBack h.names hroot rfl).map Delivery.fresh
  | false =>
      refine shifts_settle h hl ho hd rfl rfl rfl rfl ?_ rfl ?_ ?_
      · exact (made_record (b := b.settle s tag) _).trans (List.append_nil _)
      · exact settlements_record (b := b.settle s tag) _
      · exact .refl _

theorem shifts_nack (h : b.Placed) (tag : DeliveryTag) (requeue : Bool) :
    Shifts (b.settledBy s (.nack tag requeue) (b.nack s tag requeue).1) b
      (b.nack s tag requeue).2 := by
  rcases nack_cases b s tag requeue with ⟨lane, d, hl, ho, hd, hnack⟩ | ⟨e, hnack | hnack⟩
  · have hgave := shifts_gaveUp h hl ho hd requeue
    rw [hnack]
    cases requeue with
    | true => exact hgave
    | false =>
        simp only [settledBy, outstanding?_eq hl hd, Option.map_some, Option.toList_some]
        exact hgave
  · rw [hnack]
    cases requeue <;> exact .refl h
  · rw [hnack]
    cases requeue <;> exact shifts_closeChannel h _ _

/-- **What a call on a session settles, and nothing else, is gone after it.** -/
theorem shifts_answer (h : b.Placed) (s : Session) (k : Channel.Call) :
    Shifts (b.settledBy s k (b.answer s k).1) b (b.answer s k).2.2 := by
  cases k with
  | declareExchange name kind how => exact shifts_declareExchange h name kind how
  | declareQueue name how => exact shifts_declareQueue h name how
  | bind name exchange key => exact shifts_bind h _
  | setPrefetch count => exact shifts_setPrefetch h count
  | publish exchange key payload options => exact shifts_publish h exchange key payload options
  | consume name tag => exact shifts_consume h name
  | ack tag => exact shifts_ack h tag
  | nack tag requeue => exact shifts_nack h tag requeue
  | reopen => exact shifts_reopen h s

/-! ### Taking -/

/-- A channel that gets a delivery stays with its connection. -/
theorem owns_take (t : Stream) (hs : b.Owns s) : (b.take t).2.Owns s := by
  unfold take
  split
  · rename_i u lane hcheck hl
    split
    · rename_i copy rest hroom hready
      obtain ⟨other, ho, hc⟩ := hs
      have hset : (b.deliver t lane copy rest).2.channels = b.channels.set _ _ := rfl
      obtain ⟨other', ho', hc'⟩ := lanes_set hl hset rfl _ other ho
      exact ⟨other', ho', hc'.trans hc⟩
    · exact hs
  · exact hs

/-- What a delivery on a stream does: the first ready copy of the queue goes out. -/
structure Taking (b : Broker) (t : Stream) (m : Message) (b' : Broker) : Prop where
  /-- The tag was not out on the channel. -/
  free : ∀ x ∈ b.loans, x.channel = t.session.channel → x.tag ≠ m.tag.value
  /-- One more delivery is out, and it is the one that the consumer got. -/
  lent : ∃ x : Loan, x.Of t.session t.queue m ∧ b'.loans.Perm (x :: b.loans)
  /-- It was the first on the queue. -/
  left : ∃ copy : Copy, copy.toMessage m.tag.value = m ∧
    b.ready t.queue = copy :: b'.ready t.queue
  /-- The channel it went to is open. -/
  isOpen : ∃ lane, b'.channels.get? t.session.channel = some lane ∧ lane.isOpen = true

/-- The tag that comes next is not out on the channel. -/
theorem next_tag_not_mem (h : b.Placed) {k : Nat} {lane : Lane}
    (hl : b.channels.get? k = some lane) : lane.lastTag + 1 ∉ lane.unacked.keys := by
  intro hm
  have hle := h.tagged k lane hl _ hm
  omega

theorem shifts_deliver (h : b.Placed) {t : Stream} {lane : Lane} {copy : Copy}
    {rest : List Copy} (hl : b.channels.get? t.session.channel = some lane)
    (ho : lane.isOpen = true) (hready : b.ready t.queue = copy :: rest) :
    Shifts [] b (b.deliver t lane copy rest).2 := by
  have hcontains := contains_of_ready hready
  have hnext := next_tag_not_mem h hl
  have hentries := Table.entries_set_of_not_mem hnext (⟨t.queue, copy⟩ : Delivery)
  have hkeys : (lane.unacked.set (lane.lastTag + 1) ⟨t.queue, copy⟩).keys =
      lane.unacked.keys ++ [lane.lastTag + 1] := by
    simp [Table.keys, hentries]
  obtain ⟨q, hq⟩ := Table.exists_get?_of_contains hcontains
  have hqready : q.ready = copy :: rest := by
    rw [← hready]
    unfold ready
    rw [hq]
  obtain ⟨before, after, hbefore, hafter⟩ := waiting_around h.names hq
  have hwaiting : (b.deliver t lane copy rest).2.waiting =
      before ++ rest.map (Delivery.mk t.queue) ++ after :=
    hafter _ (fun q => { q with ready := rest }) rfl
  refine shifts_lane h ?_ hl rfl (Table.keys_modify (t := b.queues) _) ?_ rfl ?_ ?_ ?_ ?_ ?_
  · refine h.sound.set hl rfl rfl rfl rfl (fun _ => ho) ?_
    intro hf
    cases ho.symm.trans hf
  · simp [made, deliver, Event.made?]
  · simp [settlements, deliver, Event.gone?]
  · rw [hkeys]
    refine List.nodup_append.2 ⟨h.tags _ _ hl, by simp, ?_⟩
    rintro tag htag j hj rfl
    rw [List.mem_singleton.1 hj] at htag
    exact hnext htag
  · intro tag htag
    rw [hkeys, List.mem_append, List.mem_singleton] at htag
    rcases htag with htag | rfl
    · exact Nat.le_succ_of_le (h.tagged _ _ hl tag htag)
    · exact Nat.le_refl _
  · intro e he
    rw [hentries, List.mem_append, List.mem_singleton] at he
    rcases he with he | rfl
    · exact h.rooted _ (mem_loans_of_get? hl he)
    · exact hcontains
  · rw [hwaiting, hbefore, hqready, hentries]
    refine List.perm_iff_count.2 fun d => ?_
    simp only [List.filterMap_nil, List.nil_append, List.map_append, List.map_cons, List.map_nil,
      List.count_append, List.count_cons, List.count_nil]
    omega

theorem shifts_take (h : b.Placed) (t : Stream) : Shifts [] b (b.take t).2 := by
  unfold take
  split
  · rename_i u lane hcheck hl
    obtain ⟨lane', hl', ho⟩ := lane_of_check hcheck
    rw [hl] at hl'
    cases hl'
    split
    · rename_i copy rest hroom hready
      exact shifts_deliver h hl ho hready
    · exact .refl h
  · exact .refl h

/-- One more delivery is out. -/
theorem perm_loans_deliver (h : b.Placed) {t : Stream} {lane : Lane}
    (hl : b.channels.get? t.session.channel = some lane) (copy : Copy) (rest : List Copy) :
    (b.deliver t lane copy rest).2.loans.Perm
      (⟨t.session.channel, lane.lastTag + 1, ⟨t.queue, copy⟩⟩ :: b.loans) := by
  have hentries :=
    Table.entries_set_of_not_mem (next_tag_not_mem h hl) (⟨t.queue, copy⟩ : Delivery)
  let lane' : Lane :=
    { lane with
      lastTag := lane.lastTag + 1
      unacked := lane.unacked.set (lane.lastTag + 1) ⟨t.queue, copy⟩ }
  obtain ⟨before, after, hb, -, hset⟩ := loans_around h.sound hl
  have hlane : lane'.loans t.session.channel = lane.loans t.session.channel ++
      [⟨t.session.channel, lane.lastTag + 1, ⟨t.queue, copy⟩⟩] := by
    simp [Lane.loans, lane', hentries]
  rw [hset _ lane' rfl, hb, hlane, List.append_assoc, List.append_assoc,
    List.singleton_append, ← List.append_assoc]
  exact List.perm_middle

theorem ready_deliver {t : Stream} {copy : Copy} {rest : List Copy}
    (hready : b.ready t.queue = copy :: rest) (lane : Lane) :
    (b.deliver t lane copy rest).2.ready t.queue = rest :=
  ready_modify_self (f := fun q => { q with ready := rest }) (g := fun _ => rest) rfl
    (contains_of_ready hready) fun _ => rfl

theorem taking_deliver (h : b.Placed) {t : Stream} {lane : Lane} {copy : Copy}
    {rest : List Copy} (hl : b.channels.get? t.session.channel = some lane)
    (ho : lane.isOpen = true) (hready : b.ready t.queue = copy :: rest) :
    b.Taking t (b.deliver t lane copy rest).1 (b.deliver t lane copy rest).2 := by
  refine ⟨?_, ?_, ?_, ?_⟩
  · intro x hx hxk hxt
    obtain ⟨other, hother, hmem⟩ := exists_lane_of_mem_loans h.sound hx
    rw [hxk, hl] at hother
    cases hother
    refine next_tag_not_mem h hl ?_
    have hkey : x.tag ∈ lane.unacked.keys := List.mem_map_of_mem hmem
    rw [hxt] at hkey
    exact hkey
  · exact ⟨_, ⟨rfl, rfl, rfl, rfl⟩, perm_loans_deliver h hl copy rest⟩
  · exact ⟨copy, rfl, by rw [ready_deliver hready, hready]⟩
  · refine ⟨{ lane with
      lastTag := lane.lastTag + 1
      unacked := lane.unacked.set (lane.lastTag + 1) ⟨t.queue, copy⟩ }, ?_, ho⟩
    exact (Table.get?_set _ _ _ _).trans (if_pos rfl)

/-- **A delivery gets a tag of its own.** -/
theorem taking_take (h : b.Placed) {t : Stream} {m : Message}
    (ht : b.take t = (.message m, b')) : b.Taking t m b' := by
  unfold take at ht
  split at ht
  · rename_i u lane hcheck hl
    obtain ⟨lane', hl', ho⟩ := lane_of_check hcheck
    rw [hl] at hl'
    cases hl'
    split at ht
    · rename_i copy rest hroom hready
      have htaking := taking_deliver h hl ho hready
      cases ht
      exact htaking
    · cases ht
  · cases ht

end QueueRelay.Broker

/-
What a delivery tells of its copy, and what its tag is.

A copy comes back to its queue when its consumer returns it or when its channel ends, and
either way it is marked.  Nothing else puts a copy on a queue but publishing, which makes one
with a number that was never given.  So what is ready is marked if and only if it was out
before, and the mark goes out with it: `Faithful`.  One channel does not show that, since a
copy may come back from one and go out on another, and no more does one queue, so the numbers
of the copies carry the argument: no two that were ever made have the same.

Tags are counted on each channel alone.  A channel that opens has handed out none, and every
delivery gets the tag that comes next, however many of those before it are settled.
-/
import QueueRelay.Proofs.Broker.Line

namespace QueueRelay.Broker

open Simulation

variable {b b' : Broker} {s : Session} {events : List Event} {queue : String}

/-! ### Deliveries -/

/-- Some events have a delivery of the copy. -/
def DeliveredIn (events : List Event) (copy : Copy) : Prop :=
  ∃ channel tag d, .delivered channel tag d ∈ events ∧ d.copy.number = copy.number

/-- What a delivery tells, after some events: its copy was put on its queue, and is marked if
and only if it was delivered before. -/
structure Told (events : List Event) (d : Delivery) : Prop where
  made : ∃ copy, .enqueued d.queue copy ∈ events ∧ copy.fresh = d.copy.fresh
  marked : d.copy.redelivered = true ↔ DeliveredIn events d.copy

/-- A move that delivers does nothing else, and delivers the first copy of a queue. -/
theorem Move.of_delivered (m : Move b events b') {k tag : Nat} {d : Delivery}
    (h : .delivered k tag d ∈ events) :
    events = [.delivered k tag d] ∧ b.ready d.queue = d.copy :: b'.ready d.queue := by
  cases m with
  | beside hs hc hq hn hj he => cases (he _ h).2
  | created | opened | limited => cases h
  | enqueued | closed | acked | nacked => cases List.mem_singleton.1 h
  | delivered hl ho hready =>
      cases List.mem_singleton.1 h
      exact ⟨rfl, by rw [ready_deliver hready, hready]⟩

/-! ### Numbers -/

theorem mem_made {copy : Copy} (h : .enqueued queue copy ∈ b.journal) : ⟨queue, copy⟩ ∈ b.made :=
  List.mem_filterMap.2 ⟨_, h, rfl⟩

/-- A copy's number is one of those given. -/
theorem number_lt (h : b.Placed) {copy : Copy} (hc : .enqueued queue copy ∈ b.journal) :
    copy.number < b.copies := by
  have hmem : copy.number ∈ b.made.map fun d => d.copy.number :=
    List.mem_map_of_mem (f := fun d : Delivery => d.copy.number) (mem_made hc)
  rw [h.numbered] at hmem
  exact List.mem_range.1 hmem

/-- Two copies with one number were put on one queue. -/
theorem queue_eq_of_number (h : b.Placed) {queue' : String} {copy copy' : Copy}
    (hc : .enqueued queue copy ∈ b.journal) (hc' : .enqueued queue' copy' ∈ b.journal)
    (hn : copy.number = copy'.number) : queue = queue' := by
  have hnodup : (b.made.map fun d => d.copy.number).Nodup := by
    rw [h.numbered]
    exact List.nodup_range
  have hsame : (⟨queue, copy⟩ : Delivery) = ⟨queue', copy'⟩ :=
    List.inj_on_of_nodup_map hnodup (mem_made hc) (mem_made hc') hn
  exact congrArg Delivery.queue hsame

/-- What is ready was put on its queue. -/
theorem made_of_ready (h : b.Placed) {c : Copy} (hc : c ∈ b.ready queue) :
    ∃ copy, .enqueued queue copy ∈ b.journal ∧ copy.fresh = c.fresh := by
  have hmem : c.fresh ∈ (b.enqueuedOn queue).map Copy.fresh :=
    (h.conservedOn queue).mem_iff.1 (List.mem_map_of_mem (List.mem_append_right _ hc))
  obtain ⟨copy, hcopy, hfresh⟩ := List.mem_map.1 hmem
  obtain ⟨e, he, hon⟩ := List.mem_filterMap.1 hcopy
  cases e with
  | enqueued name other =>
      simp only [Event.enqueuedOn?] at hon
      split at hon
      · rename_i hname
        cases hon
        exact ⟨copy, hname ▸ he, hfresh⟩
      · cases hon
  | _ => cases hon

/-! ### Marks -/

/-- Every delivery told what there was to tell, and the next one will: what is ready and not
marked was never delivered. -/
structure Faithful (b : Broker) : Prop where
  told : ∀ pre k tag d post, b.journal = pre ++ .delivered k tag d :: post → Told pre d
  unmarked : ∀ queue, ∀ c ∈ b.ready queue, c.redelivered = false → ¬ b.WasDelivered c

/-- What was delivered was put on a queue. -/
theorem Faithful.made (h : b.Faithful) {k tag : Nat} {d : Delivery}
    (hd : .delivered k tag d ∈ b.journal) :
    ∃ copy, .enqueued d.queue copy ∈ b.journal ∧ copy.fresh = d.copy.fresh := by
  obtain ⟨pre, post, hsplit⟩ := List.append_of_mem hd
  obtain ⟨copy, hcopy, hfresh⟩ := (h.told pre k tag d post hsplit).made
  exact ⟨copy, hsplit ▸ List.mem_append_left _ hcopy, hfresh⟩

/-- The next delivery of a queue tells what there is to tell. -/
theorem Faithful.told_next (h : b.Faithful) (hb : b.Placed) (hr : b.Recalls queue) {c : Copy}
    (hc : c ∈ b.ready queue) : Told b.journal ⟨queue, c⟩ where
  made := made_of_ready hb hc
  marked := by
    refine ⟨hr.marked c hc, fun hd => ?_⟩
    by_contra hm
    exact h.unmarked queue c hc (Bool.eq_false_iff.2 hm) hd

/-- After one move, what is ready and not marked was ready before or is new. -/
theorem Effect.unmarked (e : Effect queue b events b') {c : Copy} (hc : c ∈ b'.ready queue)
    (hm : c.redelivered = false) : c ∈ b.ready queue ∨ c.number = b.copies := by
  cases e with
  | gaveBack back hout hready he =>
      rw [hready] at hc
      rcases List.mem_append.1 hc with hc | hc
      · obtain ⟨given, -, rfl⟩ := List.mem_map.1 hc
        cases hm
      · exact .inl hc
  | arrived copy hnew hout hready he hnumber =>
      rw [hready] at hc
      rcases List.mem_append.1 hc with hc | hc
      · exact .inl hc
      · rw [List.mem_singleton.1 hc]
        exact .inr hnumber
  | wentOut copy channel tag hout hready he =>
      rw [hready]
      exact .inl (List.mem_cons_of_mem _ hc)
  | acked copy channel tag hout hready he => exact .inl (hready ▸ hc)
  | returned copy channel tag requeue hout hready he =>
      rw [hready] at hc
      rcases List.mem_append.1 hc with hc | hc
      · split at hc
        · rw [List.mem_singleton.1 hc] at hm
          cases hm
        · cases hc
      · exact .inl hc

/-- Where two lists in a row are parted at an element, the element is in one of them. -/
theorem parted_append {α : Type} {l l' pre post : List α} {a : α}
    (h : l ++ l' = pre ++ a :: post) :
    (∃ rest, l = pre ++ a :: rest) ∨ ∃ rest, pre = l ++ rest ∧ l' = rest ++ a :: post := by
  rcases List.append_eq_append_iff.1 h with ⟨rest, hpre, hl'⟩ | ⟨rest, hl, hrest⟩
  · exact .inr ⟨rest, hpre, hl'⟩
  · cases rest with
    | nil => exact .inr ⟨[], by simpa using hl.symm, hrest.symm⟩
    | cons x rest =>
        cases (List.cons.inj hrest).1
        exact .inl ⟨rest, hl⟩

/-- No two ready copies of a queue have one number. -/
theorem nodup_ready (h : b.Placed) (queue : String) :
    ((b.ready queue).map Copy.number).Nodup := by
  have hall := h.nodupOn queue
  rw [List.map_append] at hall
  exact (List.nodup_append.1 hall).2.1

/-- **No move breaks faith.** -/
theorem Move.faithful (m : Move b events b') (hb : b.Placed) (hr : ∀ queue, b.Recalls queue)
    (h : b.Faithful) : b'.Faithful where
  told := by
    intro pre k tag d post hsplit
    rw [m.journal] at hsplit
    rcases parted_append hsplit with ⟨rest, hold⟩ | ⟨rest, rfl, hnew⟩
    · exact h.told pre k tag d rest hold
    · obtain ⟨hone, hready⟩ := m.of_delivered (hnew ▸ List.mem_append_right _ List.mem_cons_self)
      have hfirst : rest = [] := by
        rw [hone] at hnew
        cases rest with
        | nil => rfl
        | cons x rest => simpa using congrArg List.length hnew
      rw [hfirst, List.append_nil]
      exact h.told_next hb (hr d.queue) (hready ▸ List.mem_cons_self)
  unmarked := by
    rintro queue c hc hm ⟨k, tag, d, hd, hn⟩
    have hwas : .delivered k tag d ∈ b.journal ∨ b.ready d.queue = d.copy :: b'.ready d.queue := by
      rw [m.journal] at hd
      exact (List.mem_append.1 hd).imp_right fun hd => (m.of_delivered hd).2
    have hmade : ∃ copy, .enqueued d.queue copy ∈ b.journal ∧ copy.number = c.number := by
      obtain ⟨copy, hcopy, hfresh⟩ := hwas.elim h.made fun hready =>
        made_of_ready hb (hready ▸ List.mem_cons_self)
      exact ⟨copy, hcopy, (congrArg Copy.number hfresh).trans hn⟩
    obtain ⟨copy, hcopy, hnumber⟩ := hmade
    rcases (effect_of_move hb m queue).unmarked hc hm with hold | hnew
    · rcases hwas with hd | hready
      · exact h.unmarked queue c hold hm ⟨k, tag, d, hd, hn⟩
      · -- what went out has a number of its own, so it is not among what stayed
        obtain ⟨other, hother, hfresh⟩ := made_of_ready hb hold
        have hq : d.queue = queue :=
          queue_eq_of_number hb hcopy hother (hnumber.trans (congrArg Copy.number hfresh).symm)
        subst hq
        have hnodup := nodup_ready hb d.queue
        rw [hready, List.map_cons, hn] at hnodup
        exact (List.nodup_cons.1 hnodup).1 (List.mem_map_of_mem hc)
    · have hlt := number_lt hb hcopy
      omega

theorem Goes.faithful {P : Delivery → Prop} (h : Goes P b b') (hb : b.Placed)
    (hr : ∀ queue, b.Recalls queue) (hf : b.Faithful) : b'.Faithful := by
  induction h with
  | refl => exact hf
  | snoc h m _ ih => exact m.faithful (h.placed hb) (fun queue => h.recalls hb (hr queue)) ih

/-- **Whatever was done to a broker, what is ready and what was delivered is marked as it
should be.** -/
theorem faithful_after (deeds : List Deed) : (after deeds).Faithful := by
  have hnew : Faithful {} := ⟨fun pre k tag d post h => by simp at h, fun _ _ => nofun⟩
  exact (goes_after deeds).faithful placed_new (fun _ => ⟨nofun, nofun⟩) hnew

/-- A consumer gets its copy with the mark that it has, under the tag that is written down. -/
theorem delivered_of_take {t : Stream} {m : Message} (h : b.take t = (.message m, b')) :
    ∃ copy, copy ∈ b.ready t.queue ∧ copy.toMessage m.tag.value = m ∧
      b'.journal = b.journal ++ [.delivered t.session.channel m.tag.value ⟨t.queue, copy⟩] := by
  unfold take at h
  split at h
  · split at h
    · rename_i copy rest hroom hready
      cases h
      exact ⟨copy, hready ▸ List.mem_cons_self, rfl, rfl⟩
    · cases h
  · cases h

/-! ### Tags -/

/-- The tag that an event hands out on a channel. -/
def Event.tagOn? (k : Nat) : Event → Option Nat
  | delivered channel tag _ => if channel = k then some tag else none
  | _ => none

/-- The tags handed out on a channel, in order. -/
def tagsOn (b : Broker) (k : Nat) : List Nat := b.journal.filterMap (Event.tagOn? k)

/-- The latest tag of a channel, zero as long as it is not open. -/
def lastTagOn (b : Broker) (k : Nat) : Nat := (b.channels.get? k).elim 0 Lane.lastTag

theorem tagOn?_of_about? {e : Event} (h : e.about? = none) (k : Nat) : e.tagOn? k = none := by
  cases e <;> first | rfl | cases h

/-- Where one channel is changed, but not its latest tag, no channel's latest tag changes. -/
theorem lastTagOn_set {j : Nat} {lane lane' : Lane} (hl : b.channels.get? j = some lane)
    (hc : b'.channels = b.channels.set j lane') (ht : lane'.lastTag = lane.lastTag) (k : Nat) :
    b'.lastTagOn k = b.lastTagOn k := by
  unfold lastTagOn
  rw [hc, Table.get?_set]
  split
  · rename_i hj
    rw [← hj, hl]
    exact ht
  · rfl

theorem channels_closeChannel {k : Nat} {lane : Lane} (hl : b.channels.get? k = some lane)
    (ho : lane.isOpen = true) (reason : String) :
    (b.closeChannel k reason).channels = b.channels.set k lane.shut := by
  unfold closeChannel
  rw [hl]
  exact congrArg Broker.channels (if_pos ho)

theorem channels_settle (h : b.Sound) {lane : Lane} (hl : b.channels.get? s.channel = some lane)
    (tag : DeliveryTag) : (b.settle s tag).channels =
      b.channels.set s.channel { lane with unacked := lane.unacked.erase tag.value } :=
  channels_modifyLane h hl _

theorem channels_gaveUp_eq (h : b.Sound) {lane : Lane}
    (hl : b.channels.get? s.channel = some lane) (tag : DeliveryTag) (d : Delivery)
    (requeue : Bool) : (b.gaveUp s tag d requeue).channels =
      b.channels.set s.channel { lane with unacked := lane.unacked.erase tag.value } :=
  (channels_gaveUp tag d requeue).trans (channels_settle h hl tag)

/-- **A move hands out the next tag of a channel or none.** -/
theorem Move.tags (m : Move b events b') (h : b.Placed) (k : Nat) :
    List.range' 1 (b.lastTagOn k) ++ events.filterMap (Event.tagOn? k) =
      List.range' 1 (b'.lastTagOn k) := by
  have hquiet : events.filterMap (Event.tagOn? k) = [] → b'.lastTagOn k = b.lastTagOn k →
      List.range' 1 (b.lastTagOn k) ++ events.filterMap (Event.tagOn? k) =
        List.range' 1 (b'.lastTagOn k) := by
    intro hnone hsame
    rw [hnone, hsame, List.append_nil]
  cases m with
  | beside hs hc hq hn hj he =>
      refine hquiet ?_ (by unfold lastTagOn; rw [hc])
      exact List.filterMap_eq_nil_iff.2 fun e hm => tagOn?_of_about? (he e hm).2 k
  | created | enqueued => exact hquiet rfl rfl
  | @opened c hc =>
      refine hquiet rfl ?_
      unfold lastTagOn
      rw [get?_openChannel]
      split
      · rename_i hk
        have hfree : b.channels.get? k = none := by
          refine Table.get?_eq_none_of_not_mem fun hmem => ?_
          have hle := h.sound.known k hmem
          omega
        rw [hfree]
        rfl
      · rfl
  | limited hl ho count =>
      exact hquiet rfl (lastTagOn_set hl (channels_modifyLane h.sound hl _) rfl k)
  | closed hl ho reason =>
      exact hquiet rfl (lastTagOn_set hl (channels_closeChannel hl ho reason) rfl k)
  | acked hl ho hd => exact hquiet rfl (lastTagOn_set hl (channels_settle h.sound hl _) rfl k)
  | nacked hl ho hd requeue =>
      exact hquiet rfl (lastTagOn_set hl (channels_gaveUp_eq h.sound hl _ _ requeue) rfl k)
  | @delivered t lane copy rest hl ho hready =>
      have hset : (b.deliver t lane copy rest).2.channels = b.channels.set _ _ := rfl
      by_cases hk : t.session.channel = k
      · subst hk
        have hbefore : b.lastTagOn t.session.channel = lane.lastTag := by
          unfold lastTagOn
          rw [hl]
          rfl
        have hafter : (b.deliver t lane copy rest).2.lastTagOn t.session.channel =
            lane.lastTag + 1 := by
          unfold lastTagOn
          rw [hset, Table.get?_set, if_pos rfl]
          rfl
        rw [hbefore, hafter, List.range'_concat, Nat.one_mul, Nat.add_comm 1 lane.lastTag]
        simp [Event.tagOn?]
      · refine hquiet (by simp [Event.tagOn?, hk]) ?_
        unfold lastTagOn
        rw [hset, Table.get?_set, if_neg hk]

/-- **The tags handed out on a channel are one, two, three and so on** up to the latest. -/
theorem Goes.tags {P : Delivery → Prop} (h : Goes P b b') (hb : b.Placed) {k : Nat}
    (ht : b.tagsOn k = List.range' 1 (b.lastTagOn k)) :
    b'.tagsOn k = List.range' 1 (b'.lastTagOn k) := by
  induction h with
  | refl => exact ht
  | snoc h m _ ih =>
      rw [← m.tags (h.placed hb) k, ← ih, tagsOn, m.journal, List.filterMap_append]
      rfl

theorem tags_after (deeds : List Deed) (k : Nat) :
    (after deeds).tagsOn k = List.range' 1 ((after deeds).tagsOn k).length := by
  have htags := (goes_after deeds).tags placed_new (k := k) rfl
  rw [htags, List.length_range']

/-! ### Sessions -/

/-- A session that a client has after some deeds: a connection was opened with it, or it went
on with a fresh channel. -/
inductive Issued : List Deed → Session → Prop
  | connected {deeds : List Deed} {s : Session} {b' : Broker}
      (h : (after deeds).connect = (.ok s, b')) : Issued (deeds ++ [.connected]) s
  | reopened {deeds : List Deed} {s : Session} (h : Issued deeds s) :
      Issued (deeds ++ [.asked s .reopen]) ((after deeds).reopen s).2.1
  | later {deeds : List Deed} {s : Session} (h : Issued deeds s) (d : Deed) :
      Issued (deeds ++ [d]) s

theorem after_concat (deeds : List Deed) (d : Deed) :
    after (deeds ++ [d]) = (after deeds).doing d :=
  List.foldl_concat ..

/-- A channel that changes stays with its connection. -/
theorem owns_set {k : Nat} {lane lane' : Lane} (hl : b.channels.get? k = some lane)
    (hc : b'.channels = b.channels.set k lane') (hconn : lane'.connection = lane.connection)
    (hs : b.Owns s) : b'.Owns s := by
  obtain ⟨mine, hmine, hown⟩ := hs
  obtain ⟨mine', hmine', hsame⟩ := lanes_set hl hc hconn _ mine hmine
  exact ⟨mine', hmine', hsame.trans hown⟩

/-- No move takes a session its channel. -/
theorem Move.owns (m : Move b events b') (h : b.Placed) (hs : b.Owns s) : b'.Owns s := by
  cases m with
  | beside hs' hc hq hn hj he => exact (by rw [Owns, hc]; exact hs)
  | created | enqueued => exact hs
  | opened hc =>
      obtain ⟨lane, hl, hown⟩ := hs
      have hle := h.sound.known _ (Table.mem_keys_of_get? hl)
      refine ⟨lane, ?_, hown⟩
      rw [get?_openChannel, if_neg (by omega)]
      exact hl
  | limited hl ho count => exact owns_set hl (channels_modifyLane h.sound hl _) rfl hs
  | closed hl ho reason => exact owns_set hl (channels_closeChannel hl ho reason) rfl hs
  | delivered hl ho hready => exact owns_set hl rfl rfl hs
  | acked hl ho hd => exact owns_set hl (channels_settle h.sound hl _) rfl hs
  | nacked hl ho hd requeue =>
      exact owns_set hl (channels_gaveUp_eq h.sound hl _ _ requeue) rfl hs

theorem Goes.owns {P : Delivery → Prop} (h : Goes P b b') (hb : b.Placed) (hs : b.Owns s) :
    b'.Owns s := by
  induction h with
  | refl => exact hs
  | snoc h m _ ih => exact m.owns (h.placed hb) ih

/-- **The broker knows the channel of every session as one of its connection.** -/
theorem Issued.owns {deeds : List Deed} (h : Issued deeds s) : (after deeds).Owns s := by
  induction h with
  | @connected deeds s b' h =>
      rw [after_concat]
      show (after deeds).connect.2.Owns s
      rw [h]
      exact (connect_ok (placed_after deeds).sound h).1
  | @reopened deeds s h ih =>
      rw [after_concat]
      show ((after deeds).reopen s).2.2.Owns ((after deeds).reopen s).2.1
      unfold reopen
      split
      · exact owns_openChannel _
      · exact ih
  | @later deeds s h d ih =>
      rw [after_concat]
      exact (goes_doing (placed_after deeds) d).owns (placed_after deeds) ih

/-! ### Tags that are not outstanding -/

/-- The call fails, the session's channel is closed after it, and all that is written down is
that it closed, if anything is. -/
structure Refused (s : Session) (b : Broker) (r : Except LinkError Unit × Broker) : Prop where
  fails : ∃ e, r.1 = .error e
  closed : ∃ lane, r.2.channels.get? s.channel = some lane ∧ lane.isOpen = false
  unrecorded : r.2.journal = b.journal ∨
    ∃ reason, r.2.journal = b.journal ++ [.channelClosed s.channel reason]

/-- Where a session cannot do anything, its channel is closed. -/
theorem closed_of_check (h : b.Sound) (hs : b.Owns s) {e : LinkError}
    (hc : b.check s = .error e) :
    ∃ lane, b.channels.get? s.channel = some lane ∧ lane.isOpen = false := by
  obtain ⟨lane, hl, hown⟩ := hs
  refine ⟨lane, hl, ?_⟩
  by_contra ho
  rw [Bool.not_eq_false] at ho
  have hconn : b.connections.contains s.connection = true :=
    List.contains_iff_mem.2 (hown ▸ h.anchored _ lane hl ho)
  unfold check at hc
  rw [if_pos hconn, hl] at hc
  simp [ho] at hc

/-- A disposition of a delivery that is not outstanding is refused. -/
theorem refused_of_unknown (h : b.Sound) (hs : b.Owns s) {tag : DeliveryTag}
    (hn : b.outstanding? s tag = none) (act : Broker → Delivery → Except LinkError Unit × Broker) :
    Refused s b (b.guarded s fun b => match b.outstanding? s tag with
      | some d => act b d
      | none => b.refuseTag s tag) := by
  unfold guarded
  split
  · rename_i u hu
    obtain ⟨lane, hl, ho⟩ := lane_of_check hu
    simp only [hn]
    refine ⟨⟨_, rfl⟩, ⟨lane.shut, ?_, rfl⟩, .inr ⟨_, journal_closeChannel hl ho _⟩⟩
    show (b.closeChannel s.channel _).channels.get? s.channel = some lane.shut
    rw [channels_closeChannel hl ho, Table.get?_set, if_pos rfl]
  · rename_i e he
    exact ⟨⟨e, rfl⟩, closed_of_check h hs he, .inl rfl⟩

theorem refused_ack (h : b.Sound) (hs : b.Owns s) {tag : DeliveryTag}
    (hn : b.outstanding? s tag = none) : Refused s b (b.ack s tag) :=
  refused_of_unknown h hs hn fun b d => (.ok (), b.acknowledged s tag d)

theorem refused_nack (h : b.Sound) (hs : b.Owns s) {tag : DeliveryTag} (requeue : Bool)
    (hn : b.outstanding? s tag = none) : Refused s b (b.nack s tag requeue) :=
  refused_of_unknown h hs hn fun b d => (.ok (), b.gaveUp s tag d requeue)

/-- **A delivery says truly whether it is the first of its copy, and has the next tag of its
channel.** -/
theorem redelivered_iff_delivered_before (deeds : List Deed) :
    ((after deeds).made.map fun d => d.copy.number).Nodup ∧
      (∀ pre k tag d post, (after deeds).journal = pre ++ .delivered k tag d :: post →
        Told pre d) ∧
      (∀ t m b', (after deeds).take t = (.message m, b') →
        ∃ copy, copy.toMessage m.tag.value = m ∧ Told (after deeds).journal ⟨t.queue, copy⟩ ∧
          b'.journal = (after deeds).journal ++
            [.delivered t.session.channel m.tag.value ⟨t.queue, copy⟩]) ∧
      (∀ k, (after deeds).tagsOn k = List.range' 1 ((after deeds).tagsOn k).length) ∧
      ∀ s, Issued deeds s → ∀ tag, (after deeds).outstanding? s tag = none →
        Refused s (after deeds) ((after deeds).ack s tag) ∧
          ∀ requeue, Refused s (after deeds) ((after deeds).nack s tag requeue) := by
  have hplaced := placed_after deeds
  have hfaithful := faithful_after deeds
  refine ⟨?_, hfaithful.told, ?_, tags_after deeds, ?_⟩
  · rw [hplaced.numbered]
    exact List.nodup_range
  · intro t m b' ht
    obtain ⟨copy, hready, hm, hj⟩ := delivered_of_take ht
    exact ⟨copy, hm, hfaithful.told_next hplaced (recalls_after deeds t.queue) hready, hj⟩
  · intro s hs tag hn
    exact ⟨refused_ack hplaced.sound hs.owns hn,
      fun requeue => refused_nack hplaced.sound hs.owns requeue hn⟩

/-- A client opens a connection to a queue with one message and takes the message. -/
def takenOnce : List Deed :=
  [.operated (.declareQueue "jobs"), .published "" "jobs" ByteArray.empty, .connected,
    .took ⟨⟨1, 2⟩, "jobs"⟩]

/-- It goes on with a fresh channel and takes the message again. -/
def takenTwice : List Deed := takenOnce ++ [.asked ⟨1, 2⟩ .reopen] ++ [.took ⟨⟨1, 3⟩, "jobs"⟩]

theorem issued_takenTwice : Issued takenTwice ⟨1, 3⟩ := by
  have hfirst : Issued takenOnce ⟨1, 2⟩ :=
    .later (@Issued.connected (takenOnce.take 2) _ (after (takenOnce.take 3)) rfl) _
  exact .later (.reopened hfirst) _

/-- What came back from the first channel is marked when it goes out on the second, where it
has the first tag; the second tag is refused there. -/
theorem redelivered_on_fresh_channel :
    let copy : Copy := { number := 0, payload := ByteArray.empty, key := "jobs" }
    let before := [.enqueued "jobs" copy, .delivered 2 1 ⟨"jobs", copy⟩,
      .channelClosed 2 "reopened"]
    (after takenTwice).journal = before ++ .delivered 3 1 ⟨"jobs", copy.returned⟩ :: [] ∧
      DeliveredIn before copy.returned ∧ (after takenTwice).tagsOn 3 = List.range' 1 1 ∧
      Refused ⟨1, 3⟩ (after takenTwice) ((after takenTwice).ack ⟨1, 3⟩ ⟨2⟩) := by
  intro copy before
  have hjournal : (after takenTwice).journal =
      before ++ .delivered 3 1 ⟨"jobs", copy.returned⟩ :: [] := rfl
  obtain ⟨-, htold, -, htags, hrefused⟩ := redelivered_iff_delivered_before takenTwice
  exact ⟨hjournal, (htold _ _ _ _ _ hjournal).marked.1 rfl, htags 3,
    (hrefused ⟨1, 3⟩ issued_takenTwice ⟨2⟩ rfl).1⟩

end QueueRelay.Broker

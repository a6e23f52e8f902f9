/-
A relay keeps its source in order.

The steps are taken one by one, each with the change it makes to the broker.  Most of them
acknowledge nothing; `Standing.acknowledges` names the one message that a step may
acknowledge, and the copy that the broker then strikes off is the copy of that message.
-/
import QueueRelay.Proofs.Broker.Journal
import QueueRelay.Proofs.Relay.Custody
import QueueRelay.Proofs.Relay.Handling

namespace QueueRelay

open Broker Relay

variable {c : Settings} {base : Broker} {w w' : Source} {x y : Standing Nat Stream}
  {e : (calls Nat Stream).Exchange}

/-- The copy is what a message was made from. -/
def Broker.Copy.Is (copy : Copy) (m : Message) : Prop := copy.toMessage m.tag.value = m

theorem Broker.Copy.Is.parcel {copy : Copy} {m : Message} (h : copy.Is m) :
    copy.parcel = m.parcel :=
  congrArg Message.parcel h

namespace Source

variable {queue : String}

/-! ### Calls on a session with nothing out -/

theorem getElem?_set_of_some {s s' : Broker.Session} {j : Nat}
    (hs : w.sessions[j]? = some s) : (w.sessions.set j s')[j]? = some s' := by
  obtain ⟨hlt, -⟩ := List.getElem?_eq_some_iff.1 hs
  simp [hlt]

theorem mem_set {s s' : Broker.Session} {j : Nat} (hm : s ∈ w.sessions.set j s') :
    s ∈ w.sessions ∨ s = s' :=
  List.mem_or_eq_of_mem_set hm

/-- What is out stays foreign to a session on which nothing is disposed of. -/
theorem foreign_answer (h : w.broker.Sound) {s : Broker.Session} (howns : w.broker.Owns s)
    (hfor : ∀ l ∈ w.broker.loans, l.Foreign queue s) {k : Channel.Call} (hk : ¬ Settles k) :
    (w.broker.answer s k).2.2.Owns (w.broker.answer s k).2.1 ∧
      ∀ l ∈ (w.broker.answer s k).2.2.loans, l.Foreign queue (w.broker.answer s k).2.1 := by
  have hfreed := freed_answer h howns (fun l hm => (hfor l hm).channel) hk
  refine ⟨hfreed.owns, ?_⟩
  intro l hm
  exact ⟨(hfor l (hfreed.loans l hm)).ofQueue, hfreed.free l hm⟩

theorem ordered_asked (h : w.Ordered queue base x) {j : Nat} {s : Broker.Session}
    (hs : w.sessions[j]? = some s) (hfor : ∀ l ∈ w.broker.loans, l.Foreign queue s)
    {k : Channel.Call} (hk : ¬ Settles k) (hy : y.session? = some j)
    (ht : ∀ t, y.stream? = some t → t = ⟨(w.broker.answer s k).2.1, queue⟩) :
    Ordered queue base { broker := (w.broker.answer s k).2.2
                         sessions := w.sessions.set j (w.broker.answer s k).2.1 } y ∧
      (w.broker.answer s k).2.2.ackedFrom queue = w.broker.ackedFrom queue := by
  have hf : Unnoticed queue w.Mine w.broker (w.broker.answer s k).2.2 :=
    follows_answer h.sound s k fun hs => absurd hs hk
  obtain ⟨howns, hfor'⟩ :=
    foreign_answer h.sound (h.owned s (List.mem_of_getElem? hs)) hfor hk
  refine ⟨h.follow hf ?_ ?_, hf.acked.trans (List.append_nil _)⟩
  · intro s' hm
    rcases mem_set hm with hm | rfl
    · exact .inl hm
    · exact .inr howns
  · unfold Standing.Tallies
    rw [hy]
    refine ⟨_, getElem?_set_of_some hs, ht, ?_⟩
    intro l hm
    exact .inl (hfor' l hm)

/-- Where nothing is lent, what is out is foreign. -/
theorem foreign_of_tallies {j : Nat} (h : x.Tallies queue w) (hx : x.session? = some j)
    (hl : ∀ s l, ¬ x.Lends queue s l) :
    ∃ s, w.sessions[j]? = some s ∧ (∀ t, x.stream? = some t → t = ⟨s, queue⟩) ∧
      ∀ l ∈ w.broker.loans, l.Foreign queue s := by
  unfold Standing.Tallies at h
  rw [hx] at h
  obtain ⟨s, hs, ht, h⟩ := h
  refine ⟨s, hs, ht, ?_⟩
  intro l hm
  exact (h l hm).resolve_right (hl s l)

/-- A standing with the same session and stream, under which at least as much may be out. -/
theorem Ordered.weaken (h : w.Ordered queue base x) (hy : y.session? = x.session?)
    (ht : ∀ t, y.stream? = some t → x.stream? = some t)
    (hl : ∀ s l, x.Lends queue s l → y.Lends queue s l) : w.Ordered queue base y where
  sound := h.sound
  owned := h.owned
  balanced := h.balanced
  tallies := by
    have htallies := h.tallies
    unfold Standing.Tallies at htallies ⊢
    rw [hy]
    split at htallies
    · exact htallies
    · obtain ⟨s, hs, hstream, htallies⟩ := htallies
      refine ⟨s, hs, ?_, ?_⟩
      · intro t htt
        exact hstream t (ht t htt)
      · intro l hm
        rcases htallies l hm with hfor | hlends
        · exact .inl hfor
        · exact .inr (hl s l hlends)

/-- A session may be taken for spoiled at any time. -/
theorem Ordered.spoiled {j : Nat} (h : w.Ordered queue base x) (hx : x.session? = some j) :
    w.Ordered queue base (.spoiled j) :=
  h.weaken hx.symm nofun fun _ _ hl => Standing.channel_of_lends hl

/-- A call that disposes of nothing, on a session with nothing out. -/
theorem ordered_ask {j : Nat} (k : Channel.Call) {a : (Channel.calls Stream).Answer k}
    (h : w.Ordered queue base x) (hx : x.session? = some j)
    (hl : ∀ s l, ¬ x.Lends queue s l) (hk : ¬ Settles k) (he : w.Answers (.ask j k) a w')
    (hy : y.session? = some j) (ht : y.stream? = none) :
    w'.Ordered queue base y ∧ w'.broker.ackedFrom queue = w.broker.ackedFrom queue := by
  obtain ⟨s, hs, -, hfor⟩ := foreign_of_tallies h.tallies hx hl
  rcases he with ⟨e, -, rfl⟩ | ⟨s', hs', -, rfl⟩
  · refine ⟨h.weaken (hy.trans hx.symm) ?_ fun s l hlends => absurd hlends (hl s l), rfl⟩
    intro t htt
    rw [ht] at htt
    cases htt
  · cases hs.symm.trans hs'
    refine ordered_asked h hs hfor hk hy ?_
    intro t htt
    rw [ht] at htt
    cases htt

theorem not_settles_of_prepares {k : Channel.Call} (hk : Prepares k) : ¬ Settles k := by
  cases k with
  | ack | nack => exact hk.elim
  | _ => exact id

theorem consume_ok {b b' : Broker} {s : Broker.Session} {name : String} {t : Stream}
    (h : b.consume s name = (.ok t, b')) : t = ⟨s, name⟩ := by
  unfold consume guarded at h
  split at h
  · dsimp only at h
    split at h
    · cases h
      rfl
    · cases h
  · cases h

/-! ### Disposing of a delivery -/

theorem set_self {s : Broker.Session} {j : Nat} (hs : w.sessions[j]? = some s) :
    w.sessions.set j s = w.sessions := by
  obtain ⟨hlt, rfl⟩ := List.getElem?_eq_some_iff.1 hs
  exact List.set_getElem_self hlt

/-- A disposition that reaches the broker leaves the session as it is. -/
theorem source_of_settles {j : Nat} {s : Broker.Session} (k : Channel.Call) (hk : Settles k)
    (hs : w.sessions[j]? = some s)
    (hw : w' = { broker := (w.broker.answer s k).2.2
                 sessions := w.sessions.set j (w.broker.answer s k).2.1 }) :
    w' = { w with broker := (w.broker.answer s k).2.2 } := by
  have hsame : (w.broker.answer s k).2.1 = s := by
    cases k with
    | ack | nack => rfl
    | _ => exact hk.elim
  rw [hw, hsame, set_self hs]

section Judged

variable {j : Nat} {t : Stream} {m : Message} {a : Handed}

theorem of_of_foreign_or {s : Broker.Session}
    (hl : ∀ l ∈ w.broker.loans, l.Foreign queue s ∨ l.Of s queue m) :
    ∀ l ∈ w.broker.loans, l.channel = s.channel → l.Of s queue m := by
  intro l hm hc
  rcases hl l hm with hfor | hof
  · exact absurd hc hfor.channel
  · exact hof

/-- A relay whose message is disposed of has nothing out. -/
theorem ordered_settled (h : w.Ordered queue base (.judged j t m a)) {s : Broker.Session}
    (hs : w.sessions[j]? = some s) {gone : List Copy} {b : Broker}
    (hf : Follows queue (fun _ => False) gone w.broker b)
    (hfree : ∀ l ∈ b.loans, l.channel ≠ s.channel) :
    Ordered queue base { w with broker := b } (.consuming j t) := by
  obtain ⟨s', hs', hstream, hl⟩ := h.tallies
  cases hs.symm.trans hs'
  refine h.follow hf (fun _ hm => .inl hm) ⟨s, hs, hstream, fun l hm => ?_⟩
  rcases hl l ((hf.loans l hm).resolve_right id) with hfor | hof
  · exact .inl hfor
  · exact absurd hof.channel (hfree l hm)

theorem ordered_acked (h : w.Ordered queue base (.judged j t m a)) {u : Unit}
    (he : w.Answers (.ask j (.ack m.tag)) (.ok u) w') :
    w'.Ordered queue base (.consuming j t) ∧ ∃ copy : Copy, copy.Is m ∧
      w'.broker.ackedFrom queue = w.broker.ackedFrom queue ++ [copy] := by
  obtain ⟨s, hs, -, hl⟩ := h.tallies
  rcases he with ⟨e, he, -⟩ | ⟨s', hs', ha, hw'⟩
  · cases he
  · cases hs.symm.trans hs'
    have hack : w.broker.ack s m.tag = (.ok u, (w.broker.ack s m.tag).2) :=
      Prod.ext ha.symm rfl
    obtain ⟨copy, hcopy, hf, hfree⟩ := follows_ack h.sound (of_of_foreign_or hl) hack
    obtain rfl := source_of_settles (.ack m.tag) trivial hs hw'
    exact ⟨ordered_settled h hs hf hfree, copy, hcopy, hf.acked⟩

theorem ordered_nacked (h : w.Ordered queue base (.judged j t m a)) {u : Unit}
    (he : w.Answers (.ask j (.nack m.tag true)) (.ok u) w') :
    w'.Ordered queue base (.consuming j t) ∧
      w'.broker.ackedFrom queue = w.broker.ackedFrom queue := by
  obtain ⟨s, hs, -, hl⟩ := h.tallies
  rcases he with ⟨e, he, -⟩ | ⟨s', hs', ha, hw'⟩
  · cases he
  · cases hs.symm.trans hs'
    have hnack : w.broker.nack s m.tag true = (.ok u, (w.broker.nack s m.tag true).2) :=
      Prod.ext ha.symm rfl
    obtain ⟨hf, hfree⟩ := follows_nack h.sound (of_of_foreign_or hl) hnack
    obtain rfl := source_of_settles (.nack m.tag true) trivial hs hw'
    exact ⟨ordered_settled h hs hf hfree, hf.acked.trans (List.append_nil _)⟩

/-- A disposition that fails, on the way or at the broker, leaves the session spoiled. -/
theorem ordered_notSettled (h : w.Ordered queue base (.judged j t m a)) {k : Channel.Call}
    (hk : Settles k) {e : LinkError}
    (he : w.Answers (.ask j k) (Simulation.failing e k) w') :
    w'.Ordered queue base (.spoiled j) ∧
      w'.broker.ackedFrom queue = w.broker.ackedFrom queue := by
  rcases he with ⟨e, -, rfl⟩ | ⟨s, hs, ha, hw'⟩
  · exact ⟨h.spoiled rfl, rfl⟩
  · have hf : Unnoticed queue w.Mine w.broker (w.broker.answer s k).2.2 :=
      unnoticed_failed h.sound hk ha.symm
    obtain rfl := source_of_settles k hk hs hw'
    exact ⟨(h.unnoticed hf).spoiled rfl, hf.acked.trans (List.append_nil _)⟩

end Judged

/-! ### Steps -/

/-- The source is in order and has nothing more acknowledged than before. -/
theorem ordered_quiet (h : w'.Ordered queue base y ∧
    w'.broker.ackedFrom queue = w.broker.ackedFrom queue) :
    w'.Ordered queue base y ∧ ∃ gone : List Copy,
      gone.map Copy.parcel = ([] : List Message).map Message.parcel ∧
      w'.broker.ackedFrom queue = w.broker.ackedFrom queue ++ gone :=
  ⟨h.1, [], rfl, h.2.trans (List.append_nil _).symm⟩

theorem ordered_took {j : Nat} {t : Stream} {m : Message}
    (h : w.Ordered queue base (.consuming j t)) (he : w.Brings t (.message m) w') :
    w'.Ordered queue base (.holding j t m) ∧
      w'.broker.ackedFrom queue = w.broker.ackedFrom queue := by
  obtain ⟨s, hs, hstream, hl⟩ := foreign_of_tallies h.tallies rfl fun _ _ => id
  obtain rfl := hstream t rfl
  obtain ⟨b, hb, rfl⟩ := he
  have hf := follows_take h.sound (fun l hm => ⟨(hl l hm).ofQueue, (hl l hm).channel⟩) hb
  refine ⟨h.follow hf (fun _ hm => .inl hm) ⟨s, hs, hstream, ?_⟩,
    hf.acked.trans (List.append_nil _)⟩
  intro l hm
  rcases hf.loans l hm with hm | hof
  · exact .inl (hl l hm)
  · exact .inr hof

/-- **Every step of a relay keeps its source in order**, and acknowledges the copy of the
one message that it acknowledges. -/
theorem ordered_step (h : w.Ordered c.queue base x) (hstep : x.Step c e y) (he : w.Turns e w') :
    w'.Ordered c.queue base y ∧ ∃ gone : List Copy,
      gone.map Copy.parcel = (x.acknowledges e).map Message.parcel ∧
      w'.broker.ackedFrom c.queue = w.broker.ackedFrom c.queue ++ gone := by
  cases hstep with
  | connected hx j =>
      rcases he with ⟨e, he, -⟩ | ⟨e, b, -, he, -⟩ | ⟨s, b, hb, he, rfl⟩
      · cases he
      · cases he
      · cases he
        exact ordered_quiet (ordered_connected h hx hb)
  | refused hx e =>
      rcases he with ⟨e, he, rfl⟩ | ⟨e, b, hb, he, rfl⟩ | ⟨s, b, -, he, -⟩
      · exact ordered_quiet (y := .apart)
          ⟨{ h with tallies := queue_ne_of_vacant hx h.tallies }, rfl⟩
      · exact ordered_quiet (ordered_refused h hx hb)
      · cases he
  | foundOpen j | foundSpoiled j =>
      obtain ⟨s, -, -, rfl⟩ := he
      exact ordered_quiet ⟨h, rfl⟩
  | foundAgain j =>
      obtain ⟨s, -, -, rfl⟩ := he
      exact ordered_quiet ⟨h.spoiled rfl, rfl⟩
  | foundClosed hx =>
      obtain ⟨s, hs, ho, rfl⟩ := he
      exact ordered_quiet ⟨ordered_lapsed h hx hs ho.symm, rfl⟩
  | closed hx r =>
      obtain ⟨s, hs, rfl⟩ := he
      exact ordered_quiet (ordered_closed h hx hs)
  | prepared j k hk r =>
      have hnone : (Standing.joined j).acknowledges (δ := Stream) ⟨.source (.ask j k), r⟩ = [] := by
        cases k <;> first | rfl | exact hk.elim
      rw [hnone]
      exact ordered_quiet
        (ordered_ask k h rfl (fun _ _ => id) (not_settles_of_prepares hk) he rfl rfl)
  | limited j u | unlimited j e =>
      exact ordered_quiet
        (ordered_ask (.setPrefetch prefetch) h rfl (fun _ _ => id) id he rfl rfl)
  | unsubscribed j e =>
      exact ordered_quiet
        (ordered_ask (.consume c.queue c.consumerTag) h rfl (fun _ _ => id) id he rfl rfl)
  | subscribed j t =>
      obtain ⟨s, hs, -, hl⟩ := foreign_of_tallies h.tallies rfl fun _ _ => id
      rcases he with ⟨e, he, -⟩ | ⟨s', hs', ha, rfl⟩
      · cases he
      · cases hs.symm.trans hs'
        have hconsume : w.broker.consume s c.queue = (.ok t, (w.broker.consume s c.queue).2) :=
          Prod.ext ha.symm rfl
        have ht := consume_ok hconsume
        refine ordered_quiet (ordered_asked h hs hl id rfl ?_)
        intro t' ht'
        cases ht'
        exact ht
  | stopped j t =>
      obtain rfl := he
      exact ordered_quiet ⟨h, rfl⟩
  | took j t m => exact ordered_quiet (ordered_took h he)
  | lost j t e =>
      obtain rfl := he
      exact ordered_quiet ⟨h.spoiled rfl, rfl⟩
  | ended j t =>
      obtain ⟨b, hb, rfl⟩ := he
      rw [take_ended hb]
      exact ordered_quiet ⟨h.spoiled rfl, rfl⟩
  | handed j t m a =>
      obtain rfl := he
      exact ordered_quiet ⟨h.weaken rfl (fun _ => id) fun _ _ => id, rfl⟩
  | acked j t m a hd u =>
      obtain ⟨hord, copy, hcopy, hacked⟩ := ordered_acked h he
      exact ⟨hord, [copy], congrArg (fun p => [p]) hcopy.parcel, hacked⟩
  | notAcked j t m a hd e => exact ordered_quiet (ordered_notSettled h (k := .ack m.tag) trivial he)
  | nacked j t m a hd u => exact ordered_quiet (ordered_nacked h he)
  | notNacked j t m a hd e =>
      exact ordered_quiet (ordered_notSettled h (k := .nack m.tag true) trivial he)
  | established | rested | backendClosed =>
      obtain rfl := he
      exact ordered_quiet ⟨h, rfl⟩

end Source

end QueueRelay

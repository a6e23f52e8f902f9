/-
What is known during one run of a relay.

A relay may begin on any broker, whatever happened there before, as long as nothing of its
queue is out.  From then on its source stays in order, and the exchanges it had so far tell
what became of every message it got: which ones the backend took charge of and which ones
were acknowledged, and that the copies acknowledged at the source are those of the latter.
-/
import QueueRelay.Proofs.Relay.Course
import QueueRelay.Proofs.Relay.Order

namespace QueueRelay

open Broker Program Relay

/-! ### Where a run begins -/

namespace Source

/-- Nothing that happens to a broker leaves it in disorder. -/
theorem sound_outside {queue : String} {b b' : Broker} {mine : Nat → Prop} (h : b.Sound)
    (ho : Outside queue b mine b') : b'.Sound := by
  cases ho with
  | published exchange key payload =>
      have hf : Unnoticed queue mine b _ := follows_publishOutside h exchange key payload
      exact hf.sound
  | operated c =>
      have hf : Unnoticed queue mine b _ := follows_applyToBroker h c
      exact hf.sound
  | connected =>
      have hf : Unnoticed queue mine b _ := follows_connect h
      exact hf.sound
  | asked s hs k =>
      obtain ⟨other, -, hfree⟩ := exists_queue_at_rest b queue
      have hf : Unnoticed other mine b _ := follows_answer h s k fun _ l hl _ => hfree l hl
      exact hf.sound
  | took t hq ht =>
      obtain ⟨other, hne, hfree⟩ := exists_queue_at_rest b t.queue
      have hf : Unnoticed other mine b _ :=
        follows_take_elsewhere h hne.symm ht fun l hl _ => hfree l hl
      exact hf.sound
  | closed s =>
      have hf : Unnoticed queue mine b _ := follows_closeSession h s
      exact hf.sound

theorem Lived.sound {b : Broker} (h : Lived b) : b.Sound := by
  induction h with
  | new => exact ⟨List.nodup_nil, nofun, nofun, nofun⟩
  | went queue _ ho ih => exact sound_outside ih ho

/-- A source from whose queue nothing is out is in order for a relay that has not begun. -/
theorem ordered_apart {queue : String} {b : Broker} (h : b.Sound)
    (hfree : b.outstanding queue = []) : Ordered queue b { broker := b } .apart where
  sound := h
  owned := nofun
  balanced := id
  tallies := by
    intro l hl hq
    have hfilter : l ∈ b.loans.filter fun l => l.delivery.queue = queue :=
      List.mem_filter.2 ⟨hl, by simpa using hq⟩
    have hmem : l.delivery.copy ∈ b.outstanding queue := List.mem_map.2 ⟨l, hfilter, rfl⟩
    rw [hfree] at hmem
    cases hmem

/-- A relay may begin wherever nothing of its queue is out. -/
theorem Lived.ordered {queue : String} {b : Broker} (h : Lived b)
    (hfree : b.outstanding queue = []) : Ordered queue b { broker := b } .apart :=
  ordered_apart h.sound hfree

end Source

namespace Relay

variable {queue : String} {c : Settings} {base : Broker} {backend : Setting Errand.calls}

/-! ### The steps of a run -/

section Setting

variable {u v : (setting queue backend).State}

theorem source_of_moves (h : (setting queue backend).moves u v) :
    (∃ b, Source.Outside queue u.1.broker u.1.Mine b ∧ v.1 = { u.1 with broker := b }) ∨
      v.1 = u.1 := by
  rcases h with ⟨b, hb, rfl⟩ | ⟨hv, -⟩
  · exact .inl ⟨b, hb, rfl⟩
  · exact .inr hv

theorem source_of_ends {k : (calls Nat Stream).Call} {a : (calls Nat Stream).Answer k}
    (h : (setting queue backend).ends u k a v) : u.1.Turns ⟨k, a⟩ v.1 := by
  cases k with
  | source | next => exact h.1
  | establish | send | closeBackend => exact h.1
  | pause => exact congrArg Prod.fst h

end Setting

/-- What is known of the source and of the books during a run that began at the broker
`base`. -/
structure Kept (queue : String) (base : Broker) (x : Standing Nat Stream)
    (t : List (calls Nat Stream).Exchange) (w : Source) : Prop where
  ordered : w.Ordered queue base x
  books : x.Books (handlings t).reverse
  /-- What was acknowledged since then are the messages that were, in order. -/
  acked : ∃ gone : List Copy,
    gone.map Copy.parcel = (messagesOf Handling.isAcked (handlings t)).map Message.parcel ∧
    w.broker.ackedFrom queue = base.ackedFrom queue ++ gone
  /-- What was delivered is what the backend took charge of, in order. -/
  delivered : messagesOf Handling.isDelivered (handlings t) = t.flatMap delivers
  keyed : ∀ h ∈ (handlings t).reverse, h.message.routingKey.isSome = true

/-- A message that comes to the relay carries its key. -/
theorem routingKey_of_turns {w w' : Source} {d : Stream} {m : Message}
    (h : w.Turns ⟨.next d, .message m⟩ w') : m.routingKey.isSome = true := by
  obtain ⟨b, hb, -⟩ := h
  exact routingKey_of_take hb

theorem Kept.step {x y : Standing Nat Stream} {t : List (calls Nat Stream).Exchange}
    {e : (calls Nat Stream).Exchange} {w w' : Source} (h : Kept c.queue base x t w)
    (hstep : x.Step c e y) (he : w.Turns e w') : Kept c.queue base y (t ++ [e]) w' := by
  obtain ⟨hordered, new, hnew, hacked⟩ := Source.ordered_step h.ordered hstep he
  obtain ⟨hbooks, hmore, hdelivered⟩ := handlings_step hstep h.books
  obtain ⟨gone, hgone, hbase⟩ := h.acked
  exact
    { ordered := hordered
      books := hbooks
      acked := by
        refine ⟨gone ++ new, ?_, ?_⟩
        · rw [List.map_append, hgone, hnew, hmore, List.map_append]
        · rw [hacked, hbase, List.append_assoc]
      delivered := by
        rw [hdelivered, h.delivered, List.flatMap_append, List.flatMap_singleton]
      keyed := by
        rw [handlings_snoc, List.reverse_reverse]
        refine forall_note (P := fun m => m.routingKey.isSome = true) h.keyed ?_
        intro d m hd
        subst hd
        exact routingKey_of_turns he }

/-- Every message that was delivered carries its key. -/
theorem Kept.keyed_of_delivered {x : Standing Nat Stream}
    {t : List (calls Nat Stream).Exchange} {w : Source} (h : Kept queue base x t w) {m : Message}
    (hm : m ∈ messagesOf Handling.isDelivered (handlings t)) : m.routingKey.isSome = true := by
  obtain ⟨g, hg, rfl⟩ := List.mem_map.1 hm
  exact h.keyed g (List.mem_reverse.2 (List.mem_filter.1 hg).1)

/-- A message that the relay holds carries its key. -/
theorem Kept.keyed_of_holding {j : Nat} {d : Stream} {m : Message}
    {t : List (calls Nat Stream).Exchange} {w : Source}
    (h : Kept queue base (.holding j d m) t w) : m.routingKey.isSome = true := by
  obtain ⟨rest, hrest, -⟩ := h.books
  refine h.keyed { message := m } ?_
  rw [hrest]
  exact List.mem_cons_self

/-- Whatever moves, and whatever the relay asks, what is known is kept. -/
theorem kept_invariant (base : Broker) :
    (setting c.queue backend).Invariant (Standing.Step c)
      fun x t _ u => Kept c.queue base x t u.1 where
  moves := by
    intro x t o u v h hm
    rcases source_of_moves hm with ⟨b, hb, hv⟩ | hv
    · rw [hv]
      obtain ⟨gone, hgone, hbase⟩ := h.acked
      exact { h with
        ordered := h.ordered.outside hb
        acked := ⟨gone, hgone, (h.ordered.ackedFrom_outside hb).trans hbase⟩ }
    · rw [hv]
      exact h
  begins := by
    intro x t k u v _ h hb
    rw [show v.1 = u.1 from hb.1]
    exact h
  ends := by
    intro x t k a y u v hstep h he
    exact h.step hstep (source_of_ends he)

/-- When a run is over, nothing is left to be done with a message. -/
theorem complete_of_ended {a : Option Finish × State Nat Stream} {x : Standing Nat Stream}
    {hs : List Handling} (h : Ended a x) (hbooks : x.Books hs) {g : Handling} (hg : g ∈ hs) :
    g.IsComplete := by
  cases x with
  | holding | judged =>
      obtain ⟨f, r⟩ := a
      match f, h with
      | some .stopped, h | some (.refused _), h => cases h.1
      | some .overflowed, h | none, h => cases h
  | apart | joined | limited | consuming | spoiled | lapsed => exact hbooks g hg

/-- Where a relay begins, with a source that is in order. -/
theorem kept_start {w : Source} (h : w.Ordered queue w.broker .apart) :
    Kept queue w.broker .apart [] w where
  ordered := h
  books := by
    intro g hg
    cases hg
  acked := ⟨[], rfl, (List.append_nil _).symm⟩
  delivered := rfl
  keyed := by
    intro g hg
    cases hg

/-- A relay without a session begins apart from its source. -/
theorem keeps_run_apart {r : State Nat Stream} (hr : r.source.session = none) (n : Nat) :
    (run c n r).Keeps (Standing.Step c) Ended (.apart : Standing Nat Stream) := by
  refine keeps_run ?_ n
  rw [hr]
  exact .apart

/-- At every moment of a run the relay has a standing at which the source is in order. -/
theorem kept_of_reached {n : Nat} {r : State Nat Stream} {w : Source} {z : backend.State}
    {t : List (calls Nat Stream).Exchange}
    {k : Stage (calls Nat Stream) (Option Finish × State Nat Stream)}
    {v : (setting c.queue backend).State} (h : w.Ordered c.queue w.broker .apart)
    (hr : r.source.session = none)
    (hrun : (setting c.queue backend).Reached (run c n r) (w, z) t k v) :
    ∃ x, k.rest.Keeps (Standing.Step c) Ended x ∧ Kept c.queue w.broker x t v.1 := by
  obtain ⟨x, -, hrest, hkept⟩ :=
    hrun.keeps (keeps_run_apart hr n) (kept_invariant _) (kept_start h)
  exact ⟨x, hrest, hkept⟩

end Relay

end QueueRelay

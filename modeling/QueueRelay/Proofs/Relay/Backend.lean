/-
A backend that works in a world of its own.

A backend carries out each errand by a program, which makes its calls on a destination.
The destination moves by itself meanwhile, and so does the source; the relay waits until
the program has come to its result.

What the destination has from the backend is kept in a ledger.  If an exchange with the
destination adds nothing to the ledger, or else adds the entry for the message that is
being sent and is the last one of its program, then the ledger is known: it has one entry
for each message that was delivered, in order, and perhaps one more, for a message whose
delivery the relay has not heard of yet.
-/
import QueueRelay.Proofs.Relay.Run

namespace QueueRelay

open Broker Program

/-! ### Errands at work -/

/-- What a backend with a state of type `S` is doing, with calls of `K`. -/
inductive Work (K : Interface) (S : Type) where
  | idle (s : S)
  /-- The program of an errand is under way; it comes to an answer and a new state. -/
  | busy (e : Errand) (k : Stage K (Errand.calls.Answer e × S))

namespace Work

variable {K : Interface} {S : Type}

/-- One call of an errand's program. -/
inductive Goes (side : Setting K) : side.State × Work K S → side.State × Work K S → Prop
  | asked {e : Errand} {c : K.Call} {next : K.Answer c → Program K (Errand.calls.Answer e × S)}
      {u v : side.State} (hb : side.begins u c v) :
      Goes side (u, .busy e (.ready (.call c next))) (v, .busy e (.waiting c next))
  | answered {e : Errand} {c : K.Call}
      {next : K.Answer c → Program K (Errand.calls.Answer e × S)} {u v : side.State}
      (a : K.Answer c) (he : side.ends u c a v) :
      Goes side (u, .busy e (.waiting c next)) (v, .busy e (.ready (next a)))

/-- The message that was delivered by a program of which the relay has not heard yet. -/
def inHand : Work K S → List Message
  | busy (.send m) (.ready (.done (a, _))) => if a.isDelivered then [m] else []
  | _ => []

theorem length_inHand (w : Work K S) : w.inHand.length ≤ 1 := by
  unfold inHand
  split
  · split
    · exact Nat.le_refl 1
    · exact Nat.zero_le 1
  · exact Nat.zero_le 1

end Work

/-- The backend that carries out its errands by `job`, on the destination `side`. -/
def worker {K : Interface} {S : Type} (side : Setting K)
    (job : (e : Errand) → S → Program K (Errand.calls.Answer e × S)) :
    Setting Errand.calls where
  State := side.State × Work K S
  moves u v := (side.moves u.1 v.1 ∧ v.2 = u.2) ∨ Work.Goes side u v
  begins u e v := ∃ s, u.2 = .idle s ∧ v = (u.1, .busy e (.ready (job e s)))
  ends u e a v := ∃ s, u.2 = .busy e (.ready (.done (a, s))) ∧ v = (u.1, .idle s)

/-! ### The ledger -/

/-- What is entered for an errand that was carried out with success. -/
def Errand.entries {γ : Type} (item : Message → γ) : Errand → List γ
  | send m => [item m]
  | establish | close => []

/-- An errand was answered by word of a delivery. -/
def Errand.delivered : (e : Errand) → Errand.calls.Answer e → Bool
  | send _, a => a.isDelivered
  | establish, _ | close, _ => false

/-- What is asked of a destination and of the programs that work on it. -/
structure Ledger {K : Interface} {S γ : Type} (side : Setting K)
    (job : (e : Errand) → S → Program K (Errand.calls.Answer e × S)) (fits : S → Prop)
    (gain : K.Exchange → List γ) (item : Message → γ) (ledger : side.State → List γ) :
    Prop where
  moves : ∀ u v, side.moves u v → ledger v = ledger u
  begins : ∀ u c v, side.begins u c v → ledger v = ledger u
  ends : ∀ u c a v, side.ends u c a v → ledger v = ledger u ++ gain ⟨c, a⟩
  /-- Every call can be answered somehow. -/
  answered : ∀ c, Nonempty (K.Answer c)
  /-- A program adds one entry just if it comes to a delivery. -/
  job : ∀ e s, fits s → (job e s).Keeps (Once gain (e.entries item))
    (fun r b => fits r.2 ∧ e.delivered r.1 = b) false

namespace Relay

variable {K : Interface} {S γ : Type} {side : Setting K}
  {job : (e : Errand) → S → Program K (Errand.calls.Answer e × S)} {fits : S → Prop}
  {gain : K.Exchange → List γ} {item : Message → γ} {ledger : side.State → List γ}

/-- A backend at work gets an answer from its destination. -/
theorem reached_work {queue : String} {α : Type} {p : Program (calls Nat Stream) α}
    {w : (setting queue (worker side job)).State} {t : List (calls Nat Stream).Exchange}
    {g : Stage (calls Nat Stream) α} {u : Source} {z z' z'' : side.State} {e : Errand}
    {k : K.Call} {next : K.Answer k → Program K (Errand.calls.Answer e × S)}
    (h : (setting queue (worker side job)).Reached p w t g
      (u, z, .busy e (.ready (.call k next))))
    (hb : side.begins z k z') (a : K.Answer k) (he : side.ends z' k a z'') :
    (setting queue (worker side job)).Reached p w t g (u, z'', .busy e (.ready (next a))) :=
  .moved (.moved (v := (u, z', .busy e (.waiting k next))) h
    (.inr ⟨rfl, .inr (.asked hb)⟩)) (.inr ⟨rfl, .inr (.answered a he)⟩)

/-- The errand on which a call of the relay sends its backend. -/
def Call.errand? {σ δ : Type} : Call σ δ → Option Errand
  | .establish => some .establish
  | .send m => some (.send m)
  | .closeBackend => some .close
  | _ => none

/-- What the backend is doing while this call of the relay is not answered; the flag tells
whether the entry of the errand was made. -/
def AtWork {σ δ : Type} (fits : S → Prop) (gain : K.Exchange → List γ) (item : Message → γ) :
    Option (Call σ δ) → Work K S → Bool → Prop
  | o, .idle s, b => o.bind Call.errand? = none ∧ fits s ∧ b = false
  | o, .busy e k, b => o.bind Call.errand? = some e ∧
    k.rest.Keeps (Once gain (e.entries item)) (fun r b => fits r.2 ∧ e.delivered r.1 = b) b

/-- What is entered while an errand is carried out. -/
def entered (item : Message → γ) : Work K S → Bool → List γ
  | .busy e _, true => e.entries item
  | _, _ => []

/-- Once the entry is made, the errand has come to its end. -/
theorem entered_eq_inHand {σ δ : Type} (hside : ∀ c, Nonempty (K.Answer c))
    {o : Option (Call σ δ)} {z : Work K S} {b : Bool} (h : AtWork fits gain item o z b) :
    entered item z b = z.inHand.map item := by
  match z, b, h with
  | .idle s, b, _ => rfl
  | .busy e (.waiting c next), false, _ => cases e <;> rfl
  | .busy e (.ready (.call c next)), false, _ => cases e <;> rfl
  | .busy e (.ready (.done (a, s))), b, h =>
      have hb : e.delivered a = b := h.2.2
      cases e with
      | establish | close => cases b <;> rfl
      | send m =>
          change a.isDelivered = b at hb
          cases b <;> simp [entered, Errand.entries, Work.inHand, hb]
  | .busy e (.waiting c next), true, h | .busy e (.ready (.call c next)), true, h =>
      obtain ⟨answer⟩ := hside c
      obtain ⟨b', hstep, -⟩ := h.2 answer
      exact absurd hstep.1 (Bool.true_eq_false.mp)

/-- The ledger is what it was, with an entry for each delivery that the relay heard of, and
for the one it has not heard of yet. -/
structure Accounted {σ δ : Type} (fits : S → Prop) (gain : K.Exchange → List γ)
    (item : Message → γ) (ledger : side.State → List γ) (base : List γ)
    (t : List (calls σ δ).Exchange) (o : Option (Call σ δ)) (z : side.State × Work K S)
    (b : Bool) : Prop where
  work : AtWork fits gain item o z.2 b
  ledger : ledger z.1 = base ++ (t.flatMap delivers).map item ++ entered item z.2 b

/-- The ledger has an entry for every delivery, in order. -/
theorem Accounted.ledger_eq {σ δ : Type} (h : Ledger side job fits gain item ledger)
    {base : List γ} {t : List (calls σ δ).Exchange} {o : Option (Call σ δ)}
    {z : side.State × Work K S} {b : Bool} (ha : Accounted fits gain item ledger base t o z b) :
    ledger z.1 = base ++ (t.flatMap delivers ++ z.2.inHand).map item := by
  rw [ha.ledger, entered_eq_inHand h.answered ha.work, List.map_append, List.append_assoc]

section Steps

variable {base : List γ} {t : List (calls Nat Stream).Exchange}
  {o : Option (Call Nat Stream)} {z z' : side.State × Work K S} {b : Bool}

theorem Accounted.moves (h : Ledger side job fits gain item ledger)
    (ha : Accounted fits gain item ledger base t o z b) (hm : (worker side job).moves z z') :
    ∃ b', Accounted fits gain item ledger base t o z' b' := by
  rcases hm with ⟨hm, hz⟩ | hm
  · refine ⟨b, ?_, ?_⟩
    · rw [hz]
      exact ha.work
    · rw [h.moves _ _ hm, ha.ledger, hz]
  · cases hm with
    | asked hb =>
        refine ⟨b, ha.work, ?_⟩
        have hu := ha.ledger
        rw [h.begins _ _ _ hb]
        cases b <;> exact hu
    | @answered e c next u v a he =>
        -- the exchange either makes the entry of the errand or leaves the ledger alone
        obtain ⟨b', ⟨rfl, hgain⟩, hrest⟩ := ha.work.2 a
        refine ⟨b', ⟨ha.work.1, hrest⟩, ?_⟩
        have hu := ha.ledger
        have hv := h.ends _ _ _ _ he
        cases b' with
        | true =>
            rw [if_pos rfl] at hgain
            rw [hv, hu, hgain]
            simp [entered]
        | false =>
            rw [if_neg Bool.false_ne_true] at hgain
            rw [hv, hu, hgain]
            simp [entered]

/-- Between two calls of the relay, and during one that is no errand, the backend is idle. -/
theorem AtWork.idle {w : Work K S} (h : AtWork fits gain item o w b)
    (ho : o.bind Call.errand? = none) :
    ∃ s, w = .idle s ∧ fits s ∧ b = false := by
  cases w with
  | idle s => exact ⟨s, rfl, h.2⟩
  | busy e k => cases ho.symm.trans h.1

/-- No delivery is in hand while the relay waits for nothing. -/
theorem Accounted.inHand_eq_nil (ha : Accounted fits gain item ledger base t none z b) :
    z.2.inHand = [] := by
  obtain ⟨s, hz, -⟩ := ha.work.idle rfl
  rw [hz]
  rfl

theorem Accounted.begins (h : Ledger side job fits gain item ledger)
    (ha : Accounted fits gain item ledger base t none z b) {c : Call Nat Stream} {e : Errand}
    (hc : c.errand? = some e) (hb : (worker side job).begins z e z') :
    ∃ b', Accounted fits gain item ledger base t (some c) z' b' := by
  obtain ⟨s, hz, rfl⟩ := hb
  obtain ⟨s', hz', hs, rfl⟩ := ha.work.idle rfl
  cases hz.symm.trans hz'
  refine ⟨false, ⟨hc, h.job e s hs⟩, ?_⟩
  have hl := ha.ledger
  rw [hz] at hl
  exact hl

/-- A call that is no errand leaves the ledger alone. -/
theorem Accounted.other (ha : Accounted fits gain item ledger base t o z b)
    (ho : o.bind Call.errand? = none) {o' : Option (Call Nat Stream)}
    (ho' : o'.bind Call.errand? = none) {t' : List (calls Nat Stream).Exchange}
    (ht : t'.flatMap delivers = t.flatMap delivers) :
    Accounted fits gain item ledger base t' o' z b := by
  obtain ⟨s, hz, hs, rfl⟩ := ha.work.idle ho
  refine ⟨?_, ?_⟩
  · rw [hz]
    exact ⟨ho', hs, rfl⟩
  · rw [ht]
    exact ha.ledger

theorem Accounted.ends {c : Call Nat Stream} {e : Errand} {a : Errand.calls.Answer e}
    (ha : Accounted fits gain item ledger base t (some c) z b)
    (hb : (worker side job).ends z e a z') {x : (calls Nat Stream).Exchange}
    (hx : (delivers x).map item = if e.delivered a then e.entries item else []) :
    Accounted fits gain item ledger base (t ++ [x]) none z' false := by
  obtain ⟨s, hz, rfl⟩ := hb
  have hwork := ha.work
  have hl := ha.ledger
  rw [hz] at hwork hl
  obtain ⟨-, hs, rfl⟩ := hwork
  refine ⟨⟨rfl, hs, rfl⟩, ?_⟩
  rw [hl, List.flatMap_append, List.map_append, List.flatMap_singleton, hx]
  cases hd : e.delivered a <;> simp [entered]

end Steps

/-- **The ledger stays accounted for**, whatever moves and whatever the relay asks. -/
theorem accounted_invariant {queue : String} {M : Type}
    {rule : M → (calls Nat Stream).Exchange → M → Prop}
    (h : Ledger side job fits gain item ledger) (base : List γ) :
    (setting queue (worker side job)).Invariant rule
      fun _ t o u => ∃ b, Accounted fits gain item ledger base t o u.2 b where
  moves := by
    rintro m t o u v ⟨b, ha⟩ (⟨w, -, rfl⟩ | ⟨-, hm⟩)
    · exact ⟨b, ha⟩
    · exact ha.moves h hm
  begins := by
    rintro m t c u v - ⟨b, ha⟩ ⟨-, hb⟩
    cases c with
    | establish => exact ha.begins h rfl hb
    | send msg => exact ha.begins h rfl hb
    | closeBackend => exact ha.begins h rfl hb
    | source | next | pause =>
        have hb : v.2 = u.2 := hb
        rw [hb]
        exact ⟨b, ha.other rfl rfl rfl⟩
  ends := by
    rintro m t c a m' u v - ⟨b, ha⟩ he
    cases c with
    | establish => exact ⟨false, ha.ends he.2 rfl⟩
    | send msg =>
        refine ⟨false, ha.ends he.2 ?_⟩
        show (delivers ⟨.send msg, a⟩).map item = if a.isDelivered then [item msg] else []
        cases hd : Handed.isDelivered a <;> simp [delivers, hd]
    | closeBackend => exact ⟨false, ha.ends he.2 rfl⟩
    | source | next =>
        rw [show v.2 = u.2 from he.2]
        exact ⟨b, ha.other rfl rfl (by simp [delivers])⟩
    | pause =>
        rw [show v = u from he]
        exact ⟨b, ha.other rfl rfl (by simp [delivers])⟩

/-- What the destination keeps by itself is kept throughout a run. -/
theorem side_invariant {queue : String} {M : Type}
    {rule : M → (calls Nat Stream).Exchange → M → Prop} (side : Setting K)
    {job : (e : Errand) → S → Program K (Errand.calls.Answer e × S)} (P : side.State → Prop)
    (hmoves : ∀ u v, P u → side.moves u v → P v)
    (hbegins : ∀ u c v, P u → side.begins u c v → P v)
    (hends : ∀ u c a v, P u → side.ends u c a v → P v) :
    (setting queue (worker side job)).Invariant rule fun _ _ _ u => P u.2.1 where
  moves := by
    rintro m t o ⟨u, z⟩ ⟨v, z'⟩ h (⟨w, -, hv⟩ | ⟨-, ⟨hm, -⟩ | hm⟩)
    · cases hv
      exact h
    · exact hmoves _ _ h hm
    · cases hm with
      | asked hb => exact hbegins _ _ _ h hb
      | answered a he => exact hends _ _ _ _ h he
  begins := by
    rintro m t c u v - h ⟨-, hb⟩
    cases c with
    | establish | send | closeBackend =>
        obtain ⟨s, -, hv⟩ := hb
        rw [hv]
        exact h
    | source | next | pause =>
        rw [show v.2 = u.2 from hb]
        exact h
  ends := by
    rintro m t c a m' u v - h he
    cases c with
    | establish | send | closeBackend =>
        obtain ⟨-, s, -, hv⟩ := he
        rw [hv]
        exact h
    | source | next =>
        rw [show v.2 = u.2 from he.2]
        exact h
    | pause =>
        rw [show v = u from he]
        exact h

/-- A relay that waits for its backend to send a message holds the message. -/
theorem holding_of_send {c : Settings} {α : Type} {k : Stage (calls Nat Stream) α}
    {post : α → Standing Nat Stream → Prop} {x : Standing Nat Stream} {m : Message}
    (hrest : k.rest.Keeps (Standing.Step c) post x)
    (hk : k.pending.bind Call.errand? = some (.send m)) : ∃ j d, x = .holding j d m := by
  cases k with
  | ready p => cases hk
  | waiting call next =>
      cases call with
      | send m' =>
          cases hk
          obtain ⟨y, hstep, -⟩ := hrest (.outcome .delivered)
          cases hstep
          exact ⟨_, _, rfl⟩
      | source | next | establish | closeBackend | pause => cases hk

/-- A delivery that the relay has not heard of is of the message it holds. -/
theorem holding_of_inHand {c : Settings} {α : Type} {k : Stage (calls Nat Stream) α}
    {post : α → Standing Nat Stream → Prop} {x : Standing Nat Stream}
    {t : List (calls Nat Stream).Exchange} {base : List γ} {z : side.State × Work K S} {b : Bool}
    {m : Message} (hrest : k.rest.Keeps (Standing.Step c) post x)
    (ha : Accounted fits gain item ledger base t k.pending z b) (hm : m ∈ z.2.inHand) :
    ∃ j d, x = .holding j d m := by
  have hwork := ha.work
  unfold Work.inHand at hm
  split at hm
  · rename_i m' a s hz
    split at hm
    · obtain rfl := List.mem_singleton.1 hm
      rw [hz] at hwork
      exact holding_of_send hrest hwork.1
    · cases hm
  · cases hm

/-- What is known at every moment of a run that began on a broker from whose queue nothing
was out, with a backend that was idle. -/
theorem accounted_of_reached {c : Settings} (h : Ledger side job fits gain item ledger)
    {n : Nat} {r : State Nat Stream} {b : Broker} {u : side.State} {s : S}
    {t : List (calls Nat Stream).Exchange}
    {k : Stage (calls Nat Stream) (Option Finish × State Nat Stream)}
    {v : (setting c.queue (worker side job)).State} (hb : Source.Lived b)
    (hfree : b.outstanding c.queue = []) (hr : r.source.session = none) (hs : fits s)
    (hrun : (setting c.queue (worker side job)).Reached (run c n r)
      ({ broker := b }, u, .idle s) t k v) :
    ∃ x, k.rest.Keeps (Standing.Step c) Ended x ∧ Kept c.queue b x t v.1 ∧
      ∃ made, Accounted fits gain item ledger (ledger u) t k.pending v.2 made := by
  have hstart : Accounted (σ := Nat) (δ := Stream) fits gain item ledger (ledger u) [] none
      (u, .idle s) false := ⟨⟨rfl, hs, rfl⟩, by simp [entered]⟩
  obtain ⟨x, -, hrest, hkept, hmade⟩ := hrun.keeps (keeps_run_apart hr n)
    ((kept_invariant b).and (accounted_invariant h (ledger u)))
    ⟨kept_start (w := { broker := b }) (hb.ordered hfree), false, hstart⟩
  exact ⟨x, hrest, hkept, hmade⟩

end Relay

end QueueRelay

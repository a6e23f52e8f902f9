/-
How far clients are that make sure of one topology.

The account says what was done to the broker, and a standing what a client will do next.
They belong together: who is about to make an object found it missing, who binds keys has
seen both objects, and a client that lost its channel is one that found something missing.

One turn of one client changes its own standing and at most one thing in the account.  The
sessions of the others are as open as before, no object goes, and no key is unbound, so what
was said of the others still holds.
-/
import QueueRelay.Proofs.Topology.Tally

namespace QueueRelay.Topology

open Broker

variable {ι : Type}

/-- An object is only taken care of when those before it are there. -/
def Reached (t : Topology) (b : Broker) : Item → Prop
  | .exchange => True
  | .queue => t.has b .exchange = true

/-- What a standing says of the broker and of the client's session. -/
def Fits (t : Topology) (b₀ : Broker) (k : Work ι) (b : Broker) (s : Session) (m : Standing) :
    Prop :=
  match m.errand with
  | .seeks x => b.check s = .ok () ∧ t.Reached b x
  | .misses x => t.has b₀ x = false ∧ t.Reached b x
  | .makes x => b.check s = .ok () ∧ t.has b₀ x = false ∧ t.Reached b x
  | .binds keys => b.check s = .ok () ∧ (∀ x, t.has b x = true) ∧
    (∀ key ∈ t.routingKeys, key ∈ keys ∨ key ∈ k.keys) ∧ ∀ key ∈ keys, key ∈ t.routingKeys
  | .failed e => b.check s = .error (.connectionLost "channel closed") ∧
    b₀.deniesDeclarations = true ∧
    ∃ x, t.has b₀ x = false ∧ t.Reached b x ∧
      e = .provisioning (t.nameOf x) (denial (t.nameOf x))

/-- A client in this standing has lost a channel. -/
def Standing.Lost (m : Standing) : Prop :=
  (∃ x, m.made x = true) ∨ match m.errand with
    | .misses _ | .makes _ | .failed _ => True
    | .seeks _ | .binds _ => False

/-- The standings of the clients go with what was done. -/
structure Manned (t : Topology) (b₀ : Broker) (k : Work ι) (ms : ι → Standing) (b : Broker)
    (ss : ι → Session) : Prop where
  fits : ∀ i, t.Fits b₀ k b (ss i) (ms i)
  lost : ∀ i, i ∈ k.order ↔ (ms i).Lost
  /-- Who made an object found it missing. -/
  needed : ∀ i x, (ms i).made x = true → t.has b₀ x = false
  /-- Who made an object knows it. -/
  makers : ∀ x, k.made x = true → ∃ i, (ms i).made x = true
  keys : ∀ key ∈ k.keys, key ∈ t.routingKeys

/-- The broker and the sessions are what the clients in these standings have brought about. -/
def Progress (t : Topology) (b₀ : Broker) (s₀ : ι → Session) (ms : ι → Standing) (b : Broker)
    (ss : ι → Session) : Prop :=
  ∃ k, t.Tally b₀ s₀ k b ss ∧ t.Manned b₀ k ms b ss

variable {t : Topology} {b₀ b b' : Broker} {s₀ ss : ι → Session} {k k' : Work ι} {x : Item}
  {s : Session} {m m' : Standing} {ms : ι → Standing} {i : ι} {r : Except LinkError Unit}
  {ss' : ι → Session}

theorem Reached.mono (h : t.Reached b x) (hx : ∀ x, t.has b x = true → t.has b' x = true) :
    t.Reached b' x := by
  cases x with
  | exchange => trivial
  | queue => exact hx .exchange h

/-- What a standing says does not depend on how much more was done. -/
theorem Fits.mono (h : t.Fits b₀ k b s m) (hs : b'.check s = b.check s)
    (hx : ∀ x, t.has b x = true → t.has b' x = true) (hk : ∀ key ∈ k.keys, key ∈ k'.keys) :
    t.Fits b₀ k' b' s m := by
  unfold Fits at h ⊢
  rw [hs]
  cases he : m.errand with
  | seeks x =>
      simp only [he] at h
      exact ⟨h.1, h.2.mono hx⟩
  | misses x =>
      simp only [he] at h
      exact ⟨h.1, h.2.mono hx⟩
  | makes x =>
      simp only [he] at h
      exact ⟨h.1, h.2.1, h.2.2.mono hx⟩
  | binds keys =>
      simp only [he] at h
      obtain ⟨hs, hall, hkeys, hmem⟩ := h
      exact ⟨hs, fun x => hx x (hall x), fun key hkey => (hkeys key hkey).imp id (hk key), hmem⟩
  | failed e =>
      simp only [he] at h
      obtain ⟨hs, hd, x, hx₀, hr, heq⟩ := h
      exact ⟨hs, hd, x, hx₀, hr.mono hx, heq⟩

/-- What the client comes to that has seen an object. -/
theorem fits_settled {made : Bool} (hs : b.check s = .ok ()) (hx : t.has b x = true)
    (hreached : t.Reached b x) : t.Fits b₀ k b s (m.settled t x made) := by
  cases x with
  | exchange => exact ⟨hs, hx⟩
  | queue =>
      refine ⟨hs, fun y => ?_, fun key hkey => .inl hkey, fun key hkey => hkey⟩
      cases y with
      | exchange => exact hreached
      | queue => exact hx

/-- A client that has bound all keys has seen both objects. -/
theorem Fits.finished (h : t.Fits b₀ k b s m) (hm : m.errand = .binds []) :
    b.check s = .ok () ∧ (∀ x, t.has b x = true) ∧ ∀ key ∈ t.routingKeys, key ∈ k.keys := by
  unfold Fits at h
  rw [hm] at h
  obtain ⟨hs, hall, hkeys, -⟩ := h
  exact ⟨hs, hall, fun key hkey => (hkeys key hkey).resolve_left List.not_mem_nil⟩

/-- Only who is not allowed to make what was missing fails. -/
theorem Fits.denied {e : RelayError} (h : t.Fits b₀ k b s m) (hm : m.errand = .failed e) :
    b.check s = .error (.connectionLost "channel closed") ∧ b₀.deniesDeclarations = true ∧
      ∃ x, t.has b₀ x = false ∧ t.Reached b x ∧
        e = .provisioning (t.nameOf x) (denial (t.nameOf x)) := by
  unfold Fits at h
  rw [hm] at h
  exact h

theorem Manned.fits_of (h : t.Manned b₀ k ms b ss) (hi : ms i = m) : t.Fits b₀ k b (ss i) m :=
  hi ▸ h.fits i

/-- Once a client has bound all keys, the keys that are bound are those of the topology. -/
theorem Manned.bindings_eq (h : t.Manned b₀ k ms b ss) (ht : t.Tally b₀ s₀ k b ss)
    (hkeys : ∀ key ∈ t.routingKeys, key ∈ k.keys) (z : Binding) :
    z ∈ b.bindings ↔ z ∈ b₀.bindings ∨ t.Binds t.routingKeys z := by
  rw [ht.bindings]
  refine or_congr_right ⟨?_, ?_⟩
  · rintro ⟨key, hkey, rfl⟩
    exact ⟨key, h.keys key hkey, rfl⟩
  · rintro ⟨key, hkey, rfl⟩
    exact ⟨key, hkeys key hkey, rfl⟩

/-- What a turn of one client has to leave for the others, and to bring about for itself. -/
theorem Manned.turn [DecidableEq ι] (h : t.Manned b₀ k ms b ss)
    (hss : ∀ j, j ≠ i → ss' j = ss j) (hothers : ∀ j, j ≠ i → b'.check (ss j) = b.check (ss j))
    (hx : ∀ x, t.has b x = true → t.has b' x = true) (hk : ∀ key ∈ k.keys, key ∈ k'.keys)
    (hfits : t.Fits b₀ k' b' (ss' i) m')
    (hlost : ∀ j, j ∈ k'.order ↔ if j = i then m'.Lost else j ∈ k.order)
    (hneeded : ∀ x, m'.made x = true → t.has b₀ x = false)
    (hmakers : ∀ x, k'.made x = true → k.made x = true ∨ m'.made x = true)
    (hkeeps : ∀ x, (ms i).made x = true → m'.made x = true)
    (hkeys : ∀ key ∈ k'.keys, key ∈ t.routingKeys) :
    t.Manned b₀ k' (Function.update ms i m') b' ss' where
  fits := by
    intro j
    by_cases hj : j = i
    · subst hj
      rw [Function.update_self]
      exact hfits
    · rw [Function.update_of_ne hj, hss j hj]
      exact (h.fits j).mono (hothers j hj) hx hk
  lost := by
    intro j
    rw [hlost j]
    by_cases hj : j = i
    · rw [if_pos hj, hj, Function.update_self]
    · rw [if_neg hj, Function.update_of_ne hj]
      exact h.lost j
  needed := by
    intro j x hmade
    by_cases hj : j = i
    · rw [hj, Function.update_self] at hmade
      exact hneeded x hmade
    · rw [Function.update_of_ne hj] at hmade
      exact h.needed j x hmade
  makers := by
    intro x hmade
    rcases hmakers x hmade with hmade | hmade
    · obtain ⟨j, hj⟩ := h.makers x hmade
      refine ⟨j, ?_⟩
      by_cases hji : j = i
      · subst hji
        rw [Function.update_self]
        exact hkeeps x hj
      · rw [Function.update_of_ne hji]
        exact hj
    · refine ⟨i, ?_⟩
      rw [Function.update_self]
      exact hmade
  keys := hkeys

/-- A turn in which nothing is made. -/
theorem Manned.turn_idle [DecidableEq ι] (h : t.Manned b₀ k ms b ss)
    (hss : ∀ j, j ≠ i → ss' j = ss j) (hothers : ∀ j, j ≠ i → b'.check (ss j) = b.check (ss j))
    (hx : ∀ x, t.has b x = true → t.has b' x = true) (hk : ∀ key ∈ k.keys, key ∈ k'.keys)
    (hfits : t.Fits b₀ k' b' (ss' i) m')
    (hlost : ∀ j, j ∈ k'.order ↔ if j = i then m'.Lost else j ∈ k.order)
    (hmade : m'.made = (ms i).made) (hmade' : k'.made = k.made)
    (hkeys : ∀ key ∈ k'.keys, key ∈ t.routingKeys) :
    t.Manned b₀ k' (Function.update ms i m') b' ss' := by
  refine h.turn hss hothers hx hk hfits hlost ?_ ?_ ?_ hkeys
  · rw [hmade]
    exact h.needed i
  · rw [hmade']
    exact fun _ => .inl
  · rw [hmade]
    exact fun _ => id

/-- Clients that have asked nothing yet, each with an open channel of its own. -/
theorem progress_start (hb : b₀.Placed) (ho : InOrder b₀.bindings)
    (hs : ∀ i, b₀.check (s₀ i) = .ok ())
    (hapart : ∀ i j, (s₀ i).channel = (s₀ j).channel → i = j) :
    t.Progress b₀ s₀ (fun _ => {}) b₀ s₀ :=
  ⟨{}, tally_start hb ho hs hapart,
    { fits := fun i => ⟨hs i, trivial⟩
      lost := by simp [Standing.Lost]
      needed := by simp
      makers := by simp
      keys := by simp }⟩

/-! ### One turn -/

section Turns

variable [DecidableEq ι]

/-- Where the client that takes its turn loses no channel, as many have lost one as before. -/
theorem Manned.mem_order (h : t.Manned b₀ k ms b ss) (hm : m'.Lost ↔ (ms i).Lost) (j : ι) :
    j ∈ k.order ↔ if j = i then m'.Lost else j ∈ k.order := by
  split
  · rename_i hj
    rw [hj, hm]
    exact h.lost i
  · exact Iff.rfl

theorem mem_order_lose_iff (hm : m'.Lost) (j : ι) :
    j ∈ (k.lose i).order ↔ if j = i then m'.Lost else j ∈ k.order := by
  rw [Work.mem_order_lose]
  split
  · rename_i hj
    exact iff_of_true (.inl hj) hm
  · rename_i hj
    exact or_iff_right hj

/-- A client loses its channel in its turn. -/
theorem Progress.lose (ht : t.Tally b₀ s₀ k b ss) (hm : t.Manned b₀ k ms b ss)
    {reason : String} (hmade : m'.made = (ms i).made) (hlost : m'.Lost)
    (hfits : t.Fits b₀ (k.lose i) (b.closeChannel (ss i).channel reason) (ss i) m') :
    t.Progress b₀ s₀ (Function.update ms i m') (b.closeChannel (ss i).channel reason) ss := by
  refine ⟨k.lose i, ht.lose i reason, ?_⟩
  refine hm.turn_idle (fun _ _ => rfl) ?_ ?_ ?_ hfits (mem_order_lose_iff hlost) hmade
    Work.made_lose ?_
  · intro j hj
    exact check_closeChannel (fun hc => hj (ht.apart j i hc)) reason
  · intro x hx
    rw [has_closeChannel ht.placed.sound]
    exact hx
  · rw [Work.keys_lose]
    exact fun _ => id
  · rw [Work.keys_lose]
    exact hm.keys

/-- With an object that it makes settled, a client has made that one and those before. -/
theorem made_settled {y : Item} :
    (m.settled t x true).made y = true ↔ y = x ∨ m.made y = true := by
  show Function.update m.made x true y = true ↔ _
  by_cases hyx : y = x
  · simp [hyx]
  · simp [hyx]

/-- An object that is sought is found, or the channel is gone. -/
theorem Progress.seek (h : t.Progress b₀ s₀ ms b ss) (hi : ms i = m.doing (.seeks x))
    (hr : t.declareOn b (ss i) x .passive = (r, b')) :
    (r = .ok () ∧ t.Progress b₀ s₀ (Function.update ms i (m.settled t x false)) b' ss) ∨
      ((∃ text, r = .error (.notFound text)) ∧
        t.Progress b₀ s₀ (Function.update ms i (m.doing (.misses x))) b' ss) := by
  obtain ⟨k, ht, hm⟩ := h
  obtain ⟨hs, hreached⟩ : b.check (ss i) = .ok () ∧ t.Reached b x :=
    hm.fits_of hi
  cases hx : t.has b x with
  | true =>
      left
      rw [declareOn_found hs hx] at hr
      cases hr
      refine ⟨rfl, k, ht.record_event x .passive, ?_⟩
      have hlost : (m.settled t x false).Lost ↔ (ms i).Lost := by
        rw [hi]
        cases x <;> exact Iff.rfl
      refine hm.turn_idle (fun _ _ => rfl) (fun _ _ => rfl) (fun _ => id) (fun _ => id)
        (fits_settled hs hx hreached) (hm.mem_order hlost) ?_ rfl hm.keys
      rw [hi]
      rfl
  | false =>
      right
      rw [declareOn_missed hs hx] at hr
      cases hr
      have hx₀ : t.has b₀ x = false := by
        cases hx₀ : t.has b₀ x with
        | false => rfl
        | true => exact absurd ((ht.has_eq x).2 (.inl hx₀)) (by rw [hx]; exact Bool.false_ne_true)
      refine ⟨⟨_, rfl⟩, Progress.lose ht hm ?_ (.inr trivial) ⟨hx₀, hreached.mono ?_⟩⟩
      · rw [hi]
        rfl
      · intro y hy
        rw [has_closeChannel ht.placed.sound]
        exact hy

/-- A client that lost its channel gets a fresh one. -/
theorem Progress.reopen (h : t.Progress b₀ s₀ ms b ss) (hi : ms i = m.doing (.misses x))
    (hlive : ∀ i, (s₀ i).connection ∈ b₀.connections) :
    (b.reopen (ss i)).1 = .ok () ∧
      t.Progress b₀ s₀ (Function.update ms i (m.doing (.makes x))) (b.reopen (ss i)).2.2
        (Function.update ss i (b.reopen (ss i)).2.1) := by
  obtain ⟨k, ht, hm⟩ := h
  obtain ⟨hx₀, hreached⟩ : t.has b₀ x = false ∧ t.Reached b x :=
    hm.fits_of hi
  have hc : (ss i).connection ∈ b.connections := by
    rw [ht.connection i, ht.connections]
    exact hlive i
  have hin : i ∈ k.order := by
    rw [hm.lost i, hi]
    exact .inr trivial
  -- the channel is closed again, which changes nothing for a client that lost it
  have hclosed := ht.lose i "reopened"
  have hsame : k.lose i = k := if_pos hin
  rw [hsame] at hclosed
  have hc' : (ss i).connection ∈ (b.closeChannel (ss i).channel "reopened").connections := by
    rw [connections_closeChannel]
    exact hc
  have hopened := hclosed.openChannel hin hc'
  have hkeep : ∀ y, t.has b y = true →
      t.has ((b.closeChannel (ss i).channel "reopened").openChannel (ss i).connection) y =
        true := by
    intro y hy
    have hclosed : t.has (b.closeChannel (ss i).channel "reopened") y = true := by
      rw [has_closeChannel ht.placed.sound]
      exact hy
    cases y <;> exact hclosed
  rw [lastId_closeChannel] at hopened
  rw [reopen_connected hc]
  refine ⟨rfl, k, hopened, ?_⟩
  have hlost : (m.doing (.makes x)).Lost ↔ (ms i).Lost := by
    rw [hi]
    exact iff_of_true (.inr trivial) (.inr trivial)
  refine hm.turn_idle (fun j hj => Function.update_of_ne hj _ _) ?_ hkeep (fun _ => id) ?_
    (hm.mem_order hlost) ?_ rfl hm.keys
  · intro j hj
    have hj' : (ss j).channel ≤ (b.closeChannel (ss i).channel "reopened").lastId := by
      rw [lastId_closeChannel]
      exact ht.known j
    rw [check_openChannel hj', check_closeChannel fun hc => hj (ht.apart j i hc)]
  · rw [Function.update_self]
    refine ⟨?_, hx₀, hreached.mono hkeep⟩
    have hself := check_openChannel_self hc'
    rw [lastId_closeChannel] at hself
    exact hself
  · rw [hi]
    rfl

/-- Where declarations are allowed an object that was missing is made, whether or not another
client has made it meanwhile; where they are not the channel is gone again. -/
theorem Progress.make (h : t.Progress b₀ s₀ ms b ss) (hb : b₀.Placed)
    (hi : ms i = m.doing (.makes x)) (hr : t.declareOn b (ss i) x t.manner = (r, b')) :
    (r = .ok () ∧ t.Progress b₀ s₀ (Function.update ms i (m.settled t x true)) b' ss) ∨
      (r = .error (denial (t.nameOf x)) ∧
        t.Progress b₀ s₀ (Function.update ms i (m.fails (t.nameOf x) (denial (t.nameOf x))))
          b' ss) := by
  obtain ⟨k, ht, hm⟩ := h
  obtain ⟨hs, hx₀, hreached⟩ : b.check (ss i) = .ok () ∧ t.has b₀ x = false ∧ t.Reached b x :=
    hm.fits_of hi
  cases hd : b₀.deniesDeclarations with
  | true =>
      right
      rw [declareOn_denied hs (ht.denies.trans hd)] at hr
      cases hr
      refine ⟨rfl, Progress.lose ht hm ?_ (.inr trivial) ⟨check_closeChannel_self hs _, hd, x, hx₀,
        hreached.mono ?_, rfl⟩⟩
      · rw [hi]
        rfl
      · intro y hy
        rw [has_closeChannel ht.placed.sound]
        exact hy
  | false =>
      left
      have hmine : (m.settled t x true).made x = true := made_settled.2 (.inl rfl)
      have hlost : (m.settled t x true).Lost ↔ (ms i).Lost := by
        rw [hi]
        exact iff_of_true (.inl ⟨x, hmine⟩) (.inr trivial)
      have hneeded : ∀ y, (m.settled t x true).made y = true → t.has b₀ y = false := by
        intro y hy
        rcases made_settled.1 hy with rfl | hy
        · exact hx₀
        · refine hm.needed i y ?_
          rw [hi]
          exact hy
      have hkeeps : ∀ y, (ms i).made y = true → (m.settled t x true).made y = true := by
        rw [hi]
        exact fun y hy => made_settled.2 (.inr hy)
      cases hx : t.has b x with
      | true =>
          rw [declareOn_alike hs (ht.denies.trans hd) (ht.alike hx₀ hx)] at hr
          cases hr
          refine ⟨rfl, k, ht.record_event x t.manner, ?_⟩
          exact hm.turn (fun _ _ => rfl) (fun _ _ => rfl) (fun _ => id) (fun _ => id)
            (fits_settled hs hx hreached) (hm.mem_order hlost) hneeded (fun _ => .inl) hkeeps
            hm.keys
      | false =>
          rw [declareOn_made hs (ht.denies.trans hd) hx] at hr
          cases hr
          have hput : ∀ y, t.has b y = true → t.has (t.put b x) y = true :=
            fun y hy => has_put.2 (.inr hy)
          have hcheck : ∀ s, (t.put b x).check s = b.check s := by
            intro s
            cases x <;> rfl
          refine ⟨rfl, k.make x, (ht.put hb hd hx).record_event x t.manner, ?_⟩
          refine hm.turn (fun _ _ => rfl) (fun j _ => hcheck (ss j)) hput (fun _ => id)
            (fits_settled ((hcheck (ss i)).trans hs) (has_put.2 (.inl rfl)) (hreached.mono hput))
            (hm.mem_order hlost) hneeded ?_ hkeeps hm.keys
          intro y hy
          rcases Work.made_make.1 hy with rfl | hy
          · exact .inr hmine
          · exact .inl hy

/-- A key is bound. -/
theorem Progress.bind {key : String} {keys : List String} (h : t.Progress b₀ s₀ ms b ss)
    (hi : ms i = m.doing (.binds (key :: keys))) :
    (b.bind (ss i) ⟨t.queue, t.exchange, key⟩).1 = .ok () ∧
      t.Progress b₀ s₀ (Function.update ms i (m.doing (.binds keys)))
        (b.bind (ss i) ⟨t.queue, t.exchange, key⟩).2 ss := by
  obtain ⟨k, ht, hm⟩ := h
  obtain ⟨hs, hall, hkeys, hmem⟩ : b.check (ss i) = .ok () ∧ (∀ x, t.has b x = true) ∧
      (∀ l ∈ t.routingKeys, l ∈ key :: keys ∨ l ∈ k.keys) ∧
      ∀ l ∈ key :: keys, l ∈ t.routingKeys :=
    hm.fits_of hi
  rw [bind_bound hs hall]
  refine ⟨rfl, k.bind key, (ht.bind hall key).record rfl rfl, ?_⟩
  have hlost : (m.doing (.binds keys)).Lost ↔ (ms i).Lost := by
    rw [hi]
    exact Iff.rfl
  refine hm.turn_idle (fun _ _ => rfl) (fun _ _ => rfl) (fun _ => id)
    (fun _ => List.mem_cons_of_mem _) ⟨hs, hall, ?_, ?_⟩ (hm.mem_order hlost) ?_ rfl ?_
  · intro l hl
    rcases hkeys l hl with hl | hl
    · rcases List.mem_cons.1 hl with rfl | hl
      · exact .inr List.mem_cons_self
      · exact .inl hl
    · exact .inr (List.mem_cons_of_mem _ hl)
  · exact fun l hl => hmem l (List.mem_cons_of_mem _ hl)
  · rw [hi]
    rfl
  · intro l hl
    rcases List.mem_cons.1 hl with rfl | hl
    · exact hmem l List.mem_cons_self
    · exact hm.keys l hl

/-- **Whatever the client does in its turn**, the broker and the sessions are what the clients
have brought about. -/
theorem Progress.step (hb : b₀.Placed) (hlive : ∀ i, (s₀ i).connection ∈ b₀.connections)
    {c : Channel.Call} (hstep : t.Step (ms i) ⟨c, (b.answer (ss i) c).1⟩ m')
    (h : t.Progress b₀ s₀ ms b ss) :
    t.Progress b₀ s₀ (Function.update ms i m') (b.answer (ss i) c).2.2
      (Function.update ss i (b.answer (ss i) c).2.1) := by
  generalize hi : ms i = m at hstep
  generalize he : (⟨c, (b.answer (ss i) c).1⟩ : (Channel.calls Stream).Exchange) = e at hstep
  cases hstep with
  | found x u =>
      obtain ⟨hr, hs⟩ := declareOn_of_declared he
      rw [hs, Function.update_eq_self]
      rcases h.seek hi hr with ⟨-, h⟩ | ⟨⟨text, hr'⟩, -⟩
      · exact h
      · cases hr'
  | missed x text =>
      obtain ⟨hr, hs⟩ := declareOn_of_declared he
      rw [hs, Function.update_eq_self]
      rcases h.seek hi hr with ⟨hr', -⟩ | ⟨-, h⟩
      · cases hr'
      · exact h
  | barred x hnot =>
      obtain ⟨hr, -⟩ := declareOn_of_declared he
      rcases h.seek hi hr with ⟨hr', -⟩ | ⟨⟨text, hr'⟩, -⟩
      · cases hr'
      · cases hr'
        cases hnot
  | reopened x u =>
      obtain ⟨rfl, -⟩ := reopen_of_asked he
      exact (h.reopen hi hlive).2
  | stuck x e =>
      obtain ⟨-, hr⟩ := reopen_of_asked he
      cases hr.symm.trans (h.reopen hi hlive).1
  | made x u =>
      obtain ⟨hr, hs⟩ := declareOn_of_declared he
      rw [hs, Function.update_eq_self]
      rcases h.make hb hi hr with ⟨-, h⟩ | ⟨hr', -⟩
      · exact h
      · cases hr'
  | refused x e =>
      obtain ⟨hr, hs⟩ := declareOn_of_declared he
      rw [hs, Function.update_eq_self]
      rcases h.make hb hi hr with ⟨hr', -⟩ | ⟨hr', h⟩
      · cases hr'
      · cases hr'
        exact h
  | @bound m key keys u =>
      obtain ⟨rfl, -⟩ := bind_of_asked (z := ⟨t.queue, t.exchange, key⟩) he
      show t.Progress b₀ s₀ _ _ (Function.update ss i (ss i))
      rw [Function.update_eq_self]
      exact (h.bind hi).2
  | @unbound m key keys e =>
      obtain ⟨-, hr⟩ := bind_of_asked (z := ⟨t.queue, t.exchange, key⟩) he
      cases hr.symm.trans (h.bind hi).1

end Turns

end QueueRelay.Topology

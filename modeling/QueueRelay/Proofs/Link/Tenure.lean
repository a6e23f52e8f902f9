/-
Which session the owner of a link holds.

The owner of a link holds one session at most.  It opens a session only when it holds none,
makes calls on the one it holds and on no other, and lets go of it in one of two ways: it
closes it, or it was told that the session does not report itself open.  Everything that can
be done with a link keeps to this, and so does everything that a sink does over one.
-/
import QueueRelay.Proofs.Program.Answering
import QueueRelay.Sink.Broker

namespace QueueRelay

open Program

/-! ### Things done one after the other -/

namespace Program

variable {I : Interface} {D S M : Type} {rule : M → I.Exchange → M → Prop} {m : M}

/-- Does one thing after the other with a state. -/
def course (act : D → S → Program I S) (deeds : List D) (s : S) : Program I S :=
  deeds.foldlM (fun s d => act d s) s

theorem keeps_course_of_mem {act : D → S → Program I S} {fits : S → M → Prop} {s : S}
    {deeds : List D} (hact : ∀ d ∈ deeds, ∀ s m, fits s m → (act d s).Keeps rule fits m)
    (hs : fits s m) : (course act deeds s).Keeps rule fits m := by
  unfold course
  induction deeds generalizing s m with
  | nil => exact hs
  | cons d deeds ih =>
      rw [List.foldlM_cons]
      refine (hact d List.mem_cons_self s m hs).bind fun s' m' hs' => ?_
      exact ih (fun d hd => hact d (List.mem_cons_of_mem _ hd)) hs'

theorem keeps_course {act : D → S → Program I S} {fits : S → M → Prop} {s : S}
    (hact : ∀ d s m, fits s m → (act d s).Keeps rule fits m) (deeds : List D) (hs : fits s m) :
    (course act deeds s).Keeps rule fits m :=
  keeps_course_of_mem (fun d _ => hact d) hs

theorem course_concat (act : D → S → Program I S) (deeds : List D)
    (d : D) (s : S) : course act (deeds ++ [d]) s = course act deeds s >>= act d := by
  unfold course
  rw [List.foldlM_append]
  simp

theorem yields_course_concat {act : D → S → Program I S} {deeds : List D} {d : D} {s s' : S}
    {t : List I.Exchange} : (course act (deeds ++ [d]) s).Yields t s' ↔
      ∃ u v r, t = u ++ v ∧ (course act deeds s).Yields u r ∧ (act d r).Yields v s' := by
  rw [course_concat]
  exact yields_bind

theorem course_append (act : D → S → Program I S) (deeds deeds' : List D) (s : S) :
    course act (deeds ++ deeds') s = course act deeds s >>= course act deeds' :=
  List.foldlM_append

theorem course_cons (act : D → S → Program I S) (d : D) (deeds : List D) (s : S) :
    course act (d :: deeds) s = act d s >>= course act deeds :=
  List.foldlM_cons

end Program

namespace Link

variable {C : Interface} {σ : Type}

/-- What the owner of a link may ask, by the session that it holds, and which session it
holds after the answer. -/
inductive Tenure : Option σ → (calls C σ).Exchange → Option σ → Prop
  | opened (s : σ) : Tenure none ⟨.connect, .ok s⟩ (some s)
  | refused (e : LinkError) : Tenure none ⟨.connect, .error e⟩ none
  | looked (s : σ) (isOpen : Bool) : Tenure (some s) ⟨.isOpen s, isOpen⟩ (some s)
  /-- A session that does not report itself open is let go of as it is. -/
  | lapsed (s : σ) : Tenure (some s) ⟨.isOpen s, false⟩ none
  | closed (s : σ) (r : Except LinkError Unit) : Tenure (some s) ⟨.close s, r⟩ none
  /-- A session can be closed and held on to. -/
  | shut (s : σ) (r : Except LinkError Unit) : Tenure (some s) ⟨.close s, r⟩ (some s)
  | asked (s : σ) (c : C.Call) (a : C.Answer c) : Tenure (some s) ⟨.ask s c, a⟩ (some s)

/-- The link says which session its owner holds. -/
def Holds (l : Link σ) (held : Option σ) : Prop := l.session = held

/-! ### What is done with a link -/

variable (l : Link σ)

theorem holds_isLive :
    (l.isLive (C := C)).Keeps Tenure (fun _ held => l.Holds held) l.session := by
  unfold isLive
  split
  · split
    · rename_i s hs
      rw [hs]
      exact keeps_perform.2 fun isOpen => ⟨some s, .looked s isOpen, hs⟩
    · exact rfl
  · exact rfl

theorem holds_discard :
    (l.discard (C := C)).Keeps Tenure (fun _ held => held = none) l.session := by
  unfold discard
  split
  · rename_i s hs
    rw [hs]
    refine keeps_perform_bind fun isOpen => ?_
    cases isOpen with
    | false => exact ⟨none, .lapsed s, rfl⟩
    | true =>
        exact ⟨some s, .looked s true,
          keeps_perform_bind fun r => ⟨none, .closed s r, rfl⟩⟩
  · rename_i hs
    exact hs

theorem holds_establish :
    (l.establish (C := C)).Keeps Tenure (fun r held => r.2.Holds held) l.session := by
  refine l.holds_discard.bind fun _ held hnone => ?_
  subst hnone
  refine keeps_perform_bind fun answer => ?_
  cases answer with
  | ok s => exact ⟨some s, .opened s, rfl⟩
  | error e => exact ⟨none, .refused e, rfl⟩

theorem holds_ensureLive :
    (l.ensureLive (C := C)).Keeps Tenure (fun r held => r.2.Holds held) l.session := by
  refine l.holds_isLive.bind fun live held hheld => ?_
  rw [← show l.session = held from hheld]
  split
  · split
    · exact rfl
    · exact rfl
  · exact l.holds_establish

/-- A link that was released holds nothing. -/
theorem holds_release :
    (l.release (C := C)).Keeps Tenure (fun l' held => l'.session = none ∧ held = none)
      l.session := by
  unfold release
  split
  · rename_i s hs
    rw [hs]
    exact keeps_perform_bind fun r => ⟨none, .closed s r, rfl, rfl⟩
  · rename_i hs
    refine ⟨rfl, ?_⟩
    cases h : l.session with
    | none => rfl
    | some s => exact absurd h (hs s)

/-- What the owner of a link can do with it. -/
inductive Deed (C : Interface) where
  | establish
  | ensureLive
  /-- Ask whether it is live. -/
  | look
  /-- A failure was noticed. -/
  | degrade (reason : String)
  | release
  /-- A call is made on the session that is held, whether or not the link is live. -/
  | ask (c : C.Call)
  /-- The session that is held is closed, and the link is not told. -/
  | closeSession

/-- Does something with the session that is held, if there is one. -/
def onSession {α : Type} (act : σ → Program (calls C σ) α) : Program (calls C σ) (Link σ) :=
  match l.session with
  | some s => (fun _ => l) <$> act s
  | none => return l

theorem holds_onSession {α : Type} {act : σ → Program (calls C σ) α}
    (hact : ∀ s, (act s).Keeps Tenure (fun _ held => held = some s) (some s)) :
    (l.onSession act).Keeps Tenure Holds l.session := by
  unfold onSession
  split
  · rename_i s hs
    rw [hs]
    exact keeps_map.2 ((hact s).weaken fun _ held hheld => hs.trans hheld.symm)
  · exact rfl

/-- Does something with a link. -/
def doing : Deed C → Link σ → Program (calls C σ) (Link σ)
  | .establish, l => Prod.snd <$> l.establish
  | .ensureLive, l => Prod.snd <$> l.ensureLive
  | .look, l => (fun _ => l) <$> l.isLive
  | .degrade reason, l => return l.degraded reason
  | .release, l => l.release
  | .ask c, l => l.onSession fun s => Link.ask s c
  | .closeSession, l => l.onSession fun s => Link.close s

theorem holds_doing (d : Deed C) {held : Option σ} (h : l.Holds held) :
    (doing d l).Keeps Tenure Holds held := by
  rw [← show l.session = held from h]
  cases d with
  | establish => exact keeps_map.2 l.holds_establish
  | ensureLive => exact keeps_map.2 l.holds_ensureLive
  | look => exact keeps_map.2 l.holds_isLive
  | degrade reason => exact rfl
  | release => exact l.holds_release.weaken fun _ _ h => h.1.trans h.2.symm
  | ask c => exact l.holds_onSession fun s => keeps_perform.2 fun a => ⟨_, .asked s c a, rfl⟩
  | closeSession => exact l.holds_onSession fun s => keeps_perform.2 fun r => ⟨_, .shut s r, rfl⟩

/-- A link keeps to it whatever is done with it. -/
theorem holds_course (deeds : List (Deed C)) :
    (course doing deeds ({} : Link σ)).Keeps Tenure Holds none :=
  keeps_course (fun d l _ h => holds_doing l d h) deeds rfl

theorem holds_course_release (deeds : List (Deed C)) :
    (course doing (deeds ++ [.release]) ({} : Link σ)).Keeps Tenure
      (fun _ held => held = none) none := by
  rw [course_concat]
  refine (holds_course deeds).bind fun l held hl => ?_
  rw [← show l.session = held from hl]
  exact l.holds_release.weaken fun _ _ h => h.2

end Link

/-! ### What a sink does over a link -/

namespace Sink

variable {P σ : Type} {C : Interface} (s : Sink P σ)

theorem holds_establish :
    (s.establish (C := C)).Keeps Link.Tenure (fun r held => r.2.link.Holds held)
      s.link.session :=
  s.link.holds_establish.bind fun _ _ h => h

theorem holds_close :
    (s.close (C := C)).Keeps Link.Tenure (fun s' held => s'.link.session = none ∧ held = none)
      s.link.session :=
  s.link.holds_release.bind fun _ _ h => h

theorem holds_overLiveLink
    {act : σ → Program (Link.calls C σ) (Except LinkError Unit × Sink P σ)}
    (hact : ∀ session, s.link.session = some session →
      (act session).Keeps Link.Tenure (fun r held => r.2.link.Holds held) (some session)) :
    (s.overLiveLink act).Keeps Link.Tenure (fun r held => r.2.link.Holds held)
      s.link.session := by
  refine s.link.holds_isLive.bind fun live held hheld => ?_
  rw [← show s.link.session = held from hheld]
  split
  · split
    · rename_i session hs
      rw [hs]
      exact hact session hs
    · exact rfl
  · exact rfl

end Sink

namespace BrokerSink

variable {σ δ : Type} (s : BrokerSink σ)

theorem session_failed (gone : Bool) (e : LinkError) :
    ((if gone then s.degraded e else s).rejected e).link.session = s.link.session := by
  cases gone <;> rfl

theorem holds_failedWith (e : LinkError) :
    (s.failedWith (δ := δ) e).Keeps Link.Tenure (fun s' held => s'.link.Holds held)
      s.link.session := by
  unfold failedWith
  split
  · exact session_failed s true e
  · refine keeps_bind.2 (keeps_map.2 (s.link.holds_isLive.weaken fun live held hheld => ?_))
    exact (session_failed s (!live) e).trans hheld

theorem holds_transmit (m : Message) :
    (transmit (δ := δ) m s).Keeps Link.Tenure (fun r held => r.2.link.Holds held)
      s.link.session := by
  refine s.holds_overLiveLink fun session hs => ?_
  refine keeps_perform_bind fun word =>
    ⟨some session, .asked (C := Channel.calls δ) session (.publish _ _ _ _) word, ?_⟩
  cases s.verdict m word with
  | ok u => exact hs
  | error e =>
      rw [← hs]
      exact keeps_map.2 (s.holds_failedWith e)

/-- Sending may open a new session, in place of the one that was held. -/
theorem holds_send (m : Message) :
    (send (δ := δ) m s).Keeps Link.Tenure (fun r held => r.2.link.Holds held)
      s.link.session := by
  unfold send Sink.sendThrough
  refine keeps_runIn (S := BrokerSink σ) (fun s held => s.link.Holds held)
    (fun c s held (hs : s.link.session = held) => ?_) (Sink.send m) rfl
  subst hs
  cases c with
  | establish => exact Sink.holds_establish s
  | transmit m => exact s.holds_transmit m

/-- What the owner of a sink can do with it, and with its link. -/
inductive Deed (δ : Type) where
  | establish
  | transmit (m : Message)
  | send (m : Message)
  | close
  | onLink (d : Link.Deed (Channel.calls δ))

/-- Does something with a sink. -/
def doing : Deed δ → BrokerSink σ → Program (BrokerLink σ δ) (BrokerSink σ)
  | .establish, s => Prod.snd <$> Sink.establish s
  | .transmit m, s => Prod.snd <$> transmit m s
  | .send m, s => Prod.snd <$> send m s
  | .close, s => Sink.close s
  | .onLink d, s => (fun l => { s with link := l }) <$> Link.doing d s.link

theorem holds_doing (d : Deed δ) {held : Option σ} (h : s.link.Holds held) :
    (doing d s).Keeps Link.Tenure (fun s' held => s'.link.Holds held) held := by
  rw [← show s.link.session = held from h]
  cases d with
  | establish => exact keeps_map.2 (Sink.holds_establish s)
  | transmit m => exact keeps_map.2 (s.holds_transmit m)
  | send m => exact keeps_map.2 (s.holds_send m)
  | close => exact (Sink.holds_close s).weaken fun _ _ h => h.1.trans h.2.symm
  | onLink d => exact keeps_map.2 (s.link.holds_doing d rfl)

variable (name endpoint : String) (place : BrokerPlace)

/-- The link of a sink keeps to it whatever is done with the sink. -/
theorem holds_course (deeds : List (Deed δ)) :
    (course doing deeds (ofPlace (σ := σ) name endpoint place)).Keeps Link.Tenure
      (fun s held => s.link.Holds held) none :=
  keeps_course (fun d s _ h => holds_doing s d h) deeds rfl

theorem holds_course_close (deeds : List (Deed δ)) :
    (course doing (deeds ++ [.close]) (ofPlace (σ := σ) name endpoint place)).Keeps Link.Tenure
      (fun _ held => held = none) none := by
  rw [course_concat]
  refine (holds_course name endpoint place deeds).bind fun s held hs => ?_
  rw [← show s.link.session = held from hs]
  exact (Sink.holds_close s).weaken fun _ _ h => h.2

end BrokerSink

end QueueRelay

/-
A sink publishes what it delivers, once.

To a sink its broker is what it sees through its link.  Opening, looking at and closing a
session publishes nothing, so only a publish can, and after one that the broker confirmed
the sink does nothing more with its link.
-/
import QueueRelay.Proofs.Broker.Journal
import QueueRelay.Proofs.Link.Own
import QueueRelay.Proofs.Sink.Send
import QueueRelay.Sink.Broker

namespace QueueRelay

open Program

namespace BrokerSink

variable {σ : Type} {m : Message} {s : BrokerSink σ} {entry : List Parcel}

/-- What an exchange on the link publishes. -/
def publishes (e : (BrokerLink σ Broker.Stream).Exchange) : List Parcel :=
  match e with
  | ⟨.ask _ k, a⟩ => Broker.published k a
  | _ => []

/-- The calls that are not made on a session publish nothing. -/
theorem once_own (c : (BrokerLink σ Broker.Stream).Call)
    (a : (BrokerLink σ Broker.Stream).Answer c) (hc : Link.Own c) :
    Once publishes entry false ⟨c, a⟩ false := by
  cases c with
  | connect | isOpen | close => exact once_nothing rfl
  | ask => exact hc.elim

/-- A program that only looks after the link publishes nothing. -/
theorem keeps_own {α : Type} {p : Program (BrokerLink σ Broker.Stream) α}
    (hp : p.Only Link.Own) : p.Keeps (Once publishes entry) (fun _ b => b = false) false :=
  hp.keeps once_own

/-- What the sink delivers is the payload of the message, with the key that its place
selects. -/
def parcel (place : BrokerPlace) (m : Message) : Parcel := (m.payload, some (place.aim m).2)

theorem keeps_establish (s : BrokerSink σ) :
    (Sink.establish (C := Channel.calls Broker.Stream) s).Keeps (Once publishes entry)
      (fun r b => r.2.place = s.place ∧ b = false) false := by
  refine (keeps_own s.link.only_establish).bind ?_
  intro r b hb
  exact ⟨rfl, hb⟩

theorem keeps_close (s : BrokerSink σ) :
    (Sink.close (C := Channel.calls Broker.Stream) s).Keeps (Once publishes entry)
      (fun s' b => s'.place = s.place ∧ b = false) false := by
  refine (keeps_own s.link.only_release).bind ?_
  intro l b hb
  exact ⟨rfl, hb⟩

theorem place_failed (s : BrokerSink σ) (gone : Bool) (e : LinkError) :
    ((if gone then s.degraded e else s).rejected e).place = s.place := by
  cases gone <;> rfl

theorem keeps_failedWith (s : BrokerSink σ) (e : LinkError) :
    (s.failedWith (δ := Broker.Stream) e).Keeps (Once publishes entry)
      (fun s' b => s'.place = s.place ∧ b = false) false := by
  unfold failedWith
  split
  · exact ⟨place_failed s true e, rfl⟩
  · refine keeps_bind.2 (keeps_map.2 ((keeps_own s.link.only_isLive).weaken ?_))
    intro live b hb
    exact ⟨place_failed s (!live) e, hb⟩

/-- The sink only takes a message for delivered when the broker confirmed it. -/
theorem confirmed_of_verdict {word : Except LinkError PublishStatus} {u : Unit}
    (h : s.verdict m word = .ok u) : word = .ok .confirmed := by
  unfold verdict at h
  split at h
  · rfl
  all_goals cases h

/-- A transmission publishes the message just if it is accepted. -/
theorem keeps_transmit (m : Message) (s : BrokerSink σ) :
    (transmit (δ := Broker.Stream) m s).Keeps (Once publishes [parcel s.place m])
      (fun r b => r.2.place = s.place ∧ Sink.Attempted m false ⟨.transmit m, r.1⟩ b) false := by
  refine (keeps_own s.link.only_isLive).bind ?_
  intro live b hb
  subst hb
  split
  · split
    · refine keeps_perform_bind ?_
      intro word
      cases hv : s.verdict m word with
      | ok u =>
          cases confirmed_of_verdict hv
          exact ⟨true, once_entry rfl, rfl, .accepted u⟩
      | error e =>
          refine ⟨false, once_nothing (Broker.published_eq_nil fun hw => ?_), ?_⟩
          · rw [hw] at hv
            cases hv
          · refine keeps_map.2 ((keeps_failedWith s e).weaken fun s' b hb => ?_)
            rw [hb.2]
            exact ⟨hb.1, .failed e⟩
    · exact ⟨rfl, .failed .closed⟩
  · exact ⟨rfl, .failed .closed⟩

/-- **Sending publishes a message just if it delivers it**, and then once. -/
theorem keeps_send {place : BrokerPlace} (m : Message) {s : BrokerSink σ}
    (hs : s.place = place) :
    (send (δ := Broker.Stream) m s).Keeps (Once publishes [parcel place m])
      (fun r b => r.2.place = place ∧ r.1.isDelivered = b) false := by
  unfold send Sink.sendThrough
  refine keeps_runIn_state (S := BrokerSink σ) (Sink.attempted_deterministic m)
    (fun c s b (hs : s.place = place) hc => ?_) (Sink.keeps_send m) hs
  subst hs
  obtain ⟨b', hb'⟩ := hc (.ok ())
  cases hb' with
  | accepted => exact keeps_transmit m s
  | established =>
      refine (keeps_establish s).weaken fun r b hr => ⟨hr.1, ?_⟩
      rw [hr.2]
      exact .established r.1

end BrokerSink

end QueueRelay

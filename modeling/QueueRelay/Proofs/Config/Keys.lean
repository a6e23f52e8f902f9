/-
Which keys of a file decide what a relay is told.

A file may hold keys for all three kinds of target, and keys of other programs besides.  What
is read of it are the keys of the source and of its topology, the two that choose the target
and its mode, and the keys of the target that is chosen.  All but one are read in a way in which
an empty value is as good as none; what is not the same is whether the mode is given at all.

The readers of single targets are compared first, each over its own keys.  For the whole the
two files have to choose the same target, and then agree on the keys of that one alone.
-/
import QueueRelay.Config
import QueueRelay.Proofs.Table

namespace QueueRelay.Config

variable {d d' : DotEnv}

/-! ### The keys -/

/-- The keys of the source and its topology. -/
def sourceKeys : List String :=
  ["rabbitmq_host", "rabbitmq_user", "rabbitmq_password", "rabbitmq_vhost",
    "rabbitmq_exchange_name", "queue_name"]

/-- The words that choose a target. -/
def services : List String := ["aws", "azure", "rabbitmq"]

/-- The keys of the target that a word chooses. -/
def targetKeys (service : String) : List String :=
  if service = "aws" then
    ["aws_access_key_id", "aws_secret_access_key", "aws_region", "aws_queue_url",
      "aws_topic_arn", "aws_endpoint_url"]
  else if service = "azure" then
    ["azure_service_bus_connection_str", "azure_queue_name", "azure_topic_name"]
  else if service = "rabbitmq" then
    ["target_rabbitmq_host", "target_rabbitmq_user", "target_rabbitmq_password",
      "target_rabbitmq_vhost", "target_rabbitmq_exchange", "target_rabbitmq_routing_key",
      "target_rabbitmq_queue"]
  else []

/-- The word that chooses the target, whose case does not matter. -/
def serviceOf (d : DotEnv) : String := Text.asciiLower (d.getOr "target_service" "")

/-- The keys that matter in a file. -/
def keysRead (d : DotEnv) : List String :=
  "use_queue" :: "target_service" :: (sourceKeys ++ targetKeys (serviceOf d))

/-- Two files that say the same, where no value is as good as an empty one. -/
structure Alike (d d' : DotEnv) : Prop where
  useQueue : d.get? "use_queue" = d'.get? "use_queue"
  service : serviceOf d = serviceOf d'
  source : ∀ key ∈ sourceKeys, d.nonEmpty? key = d'.nonEmpty? key
  target : ∀ key ∈ targetKeys (serviceOf d), d.nonEmpty? key = d'.nonEmpty? key

/-- Only three words choose a target. -/
theorem mem_services_of_mem {service key : String} (h : key ∈ targetKeys service) :
    service ∈ services := by
  by_cases haws : service = "aws"
  · simp [services, haws]
  by_cases hazure : service = "azure"
  · simp [services, hazure]
  by_cases hrabbitmq : service = "rabbitmq"
  · simp [services, hrabbitmq]
  · simp [targetKeys, haws, hazure, hrabbitmq] at h

/-- The keys of one target are none of the keys that are read for another. -/
theorem not_mem_keysRead {service key : String} (hs : service ≠ serviceOf d)
    (h : key ∈ targetKeys service) : key ∉ keysRead d := by
  have hother : ∀ s ∈ services, ∀ s' ∈ services, s ≠ s' → ∀ k ∈ targetKeys s,
      k ∉ targetKeys s' := by decide +kernel
  have hfixed : ∀ s ∈ services, ∀ k ∈ targetKeys s,
      k ∉ "use_queue" :: "target_service" :: sourceKeys := by decide +kernel
  have hservice : service ∈ services := mem_services_of_mem h
  intro hread
  unfold keysRead at hread
  rw [← List.cons_append, ← List.cons_append] at hread
  rcases List.mem_append.1 hread with hm | hm
  · exact hfixed service hservice key h hm
  · exact hother service hservice _ (mem_services_of_mem hm) hs key h hm

/-! ### Reading them -/

theorem getOr_eq (d : DotEnv) (key fallback : String) :
    d.getOr key fallback = (d.nonEmpty? key).getD fallback := by
  unfold DotEnv.getOr DotEnv.nonEmpty?
  cases d.get? key with
  | none => rfl
  | some value => by_cases hv : value.isEmpty = true <;> simp [Option.filter, hv]

theorem brokerOf_congr {host user password vhost : String}
    (h : ∀ key ∈ [host, user, password, vhost], d.nonEmpty? key = d'.nonEmpty? key) :
    brokerOf d host user password vhost = brokerOf d' host user password vhost := by
  simp only [List.forall_mem_cons] at h
  obtain ⟨hhost, huser, hpassword, hvhost, -⟩ := h
  simp only [brokerOf, getOr_eq, hhost, huser, hpassword, hvhost]

theorem cloudTargetOf_congr (h : ∀ key ∈ targetKeys "aws", d.nonEmpty? key = d'.nonEmpty? key)
    (useQueue : Bool) : cloudTargetOf d useQueue = cloudTargetOf d' useQueue := by
  simp only [targetKeys, ↓reduceIte, List.forall_mem_cons] at h
  obtain ⟨hid, hsecret, hregion, hurl, harn, hendpoint, -⟩ := h
  simp only [cloudTargetOf, getOr_eq, hid, hsecret, hregion, hurl, harn, hendpoint]

theorem busTargetOf_congr (h : ∀ key ∈ targetKeys "azure", d.nonEmpty? key = d'.nonEmpty? key)
    (useQueue : Bool) : busTargetOf d useQueue = busTargetOf d' useQueue := by
  simp only [targetKeys, String.reduceEq, ↓reduceIte, List.forall_mem_cons] at h
  obtain ⟨hconnection, hqueue, htopic, -⟩ := h
  simp only [busTargetOf, getOr_eq, hconnection, hqueue, htopic]

theorem brokerTargetOf_congr
    (h : ∀ key ∈ targetKeys "rabbitmq", d.nonEmpty? key = d'.nonEmpty? key) (useQueue : Bool) :
    brokerTargetOf d useQueue = brokerTargetOf d' useQueue := by
  have hbroker : ∀ key ∈ ["target_rabbitmq_host", "target_rabbitmq_user",
      "target_rabbitmq_password", "target_rabbitmq_vhost"],
      d.nonEmpty? key = d'.nonEmpty? key :=
    fun key hkey => h key (List.mem_append_left _ hkey)
  simp only [targetKeys, String.reduceEq, ↓reduceIte, List.forall_mem_cons] at h
  obtain ⟨-, -, -, -, hexchange, hkey, hqueue, -⟩ := h
  simp only [brokerTargetOf, brokerOf_congr hbroker, getOr_eq, hexchange, hkey, hqueue]

theorem targetOf_congr (h : Alike d d') : targetOf d = targetOf d' := by
  have huse : d.getBool "use_queue" true = d'.getBool "use_queue" true := by
    unfold DotEnv.getBool
    rw [h.useQueue]
  have htarget := h.target
  have hservice : Text.asciiLower (d.getOr "target_service" "") =
      Text.asciiLower (d'.getOr "target_service" "") := h.service
  simp only [serviceOf] at htarget
  unfold targetOf
  rw [hservice] at htarget ⊢
  rw [huse]
  dsimp only
  split
  · next haws => rw [cloudTargetOf_congr (haws ▸ htarget)]
  · split
    · next hazure => rw [busTargetOf_congr (hazure ▸ htarget)]
    · split
      · next hrabbitmq => rw [brokerTargetOf_congr (hrabbitmq ▸ htarget)]
      · rfl

/-! ### The whole file -/

/-- Files that have the same values for the keys that matter say the same. -/
theorem alike_of_get? (h : ∀ key ∈ keysRead d, d.get? key = d'.get? key) : Alike d d' := by
  have hnonEmpty : ∀ key ∈ keysRead d, d.nonEmpty? key = d'.nonEmpty? key := by
    intro key hkey
    unfold DotEnv.nonEmpty?
    rw [h key hkey]
  refine ⟨h _ (by simp [keysRead]), ?_, ?_, ?_⟩
  · unfold serviceOf
    rw [getOr_eq, getOr_eq, hnonEmpty _ (by simp [keysRead])]
  · intro key hkey
    exact hnonEmpty key (by simp [keysRead, hkey])
  · intro key hkey
    exact hnonEmpty key (by simp [keysRead, hkey])

theorem ofDotEnv_congr (h : Alike d d') : ofDotEnv d = ofDotEnv d' := by
  have hsource : brokerOf d "rabbitmq_host" "rabbitmq_user" "rabbitmq_password"
      "rabbitmq_vhost" = brokerOf d' "rabbitmq_host" "rabbitmq_user" "rabbitmq_password"
      "rabbitmq_vhost" :=
    brokerOf_congr fun key hkey => h.source key (List.mem_append_left _ hkey)
  have hexchange := h.source "rabbitmq_exchange_name" (by simp [sourceKeys])
  have hqueue := h.source "queue_name" (by simp [sourceKeys])
  simp only [ofDotEnv, targetOf_congr h, hsource, getOr_eq, hexchange, hqueue]

theorem validate_of_ofDotEnv {c : Config} (h : ofDotEnv d = .ok c) : c.validate = .ok () := by
  unfold ofDotEnv at h
  cases ht : targetOf d with
  | error e =>
      rw [ht] at h
      cases h
  | ok target =>
      rw [ht] at h
      simp only [bind, Except.bind, pure, Except.pure] at h
      split at h
      · cases h
      · next hv =>
          cases h
          exact hv

/-- **What a relay is told depends on the keys that matter alone.**  Files that say the same on
them, where no value is as good as an empty one except for the mode, give the same
configuration or the same error.  Whatever else is written to a file has no effect, and nor do
the keys of a target that is not the chosen one.  What comes of a file is valid. -/
theorem keys_decide (h : Alike d d') :
    ofDotEnv d = ofDotEnv d' ∧
      (∀ key value, key ∉ keysRead d → ofDotEnv ⟨d.entries.set key value⟩ = ofDotEnv d) ∧
      (∀ service, service ≠ serviceOf d → ∀ key ∈ targetKeys service, key ∉ keysRead d) ∧
      ∀ c, ofDotEnv d = .ok c → c.validate = .ok () := by
  refine ⟨ofDotEnv_congr h, ?_, ?_, ?_⟩
  · intro key value hkey
    refine (ofDotEnv_congr (alike_of_get? fun k hk => ?_)).symm
    have hne : key ≠ k := by
      rintro rfl
      exact hkey hk
    exact ((Table.get?_set d.entries key k value).trans (if_neg hne)).symm
  · intro service hs key hkey
    exact not_mem_keysRead hs hkey
  · intro c hc
    exact validate_of_ofDotEnv hc

/-- One file chooses its target in capitals and has keys of another, the other one spells out
that it gives no host. -/
theorem keys_decide_of_two :
    let d := DotEnv.ofPairs [("target_service", "AZURE"), ("azure_queue_name", "jobs"),
      ("azure_service_bus_connection_str", "Endpoint=sb://h"), ("aws_region", "eu")]
    let d' := DotEnv.ofPairs [("rabbitmq_host", ""), ("target_service", "azure"),
      ("azure_queue_name", "jobs"), ("azure_service_bus_connection_str", "Endpoint=sb://h")]
    Alike d d' ∧ ofDotEnv d = ofDotEnv d' ∧ "aws_region" ∉ keysRead d ∧
      ∃ c, ofDotEnv d = .ok c ∧ c.validate = .ok () := by
  intro d d'
  have halike : Alike d d' :=
    ⟨by decide +kernel, by decide +kernel, by decide +kernel, by decide +kernel⟩
  obtain ⟨hsame, -, hother, hvalid⟩ := keys_decide halike
  have hread : "aws_region" ∉ keysRead d :=
    hother "aws" (by decide +kernel) _ (by decide +kernel)
  have hok : (ofDotEnv d).isOk = true := by decide +kernel
  cases hc : ofDotEnv d with
  | error e =>
      rw [hc] at hok
      cases hok
  | ok c => exact ⟨halike, hc ▸ hsame, hread, c, rfl, hvalid c hc⟩

end QueueRelay.Config

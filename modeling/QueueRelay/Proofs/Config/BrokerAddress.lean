/-
What comes back out of a connection URI.

The URI is made by reading host and port as a URL and then changing its parts.  When the host
holds none of the marks that end a host, what was read is the host and the port and nothing
else (`url_eq`), and the URI is the text of a URL in the form that reading gives it
(`canonical_connection`), so that it is read back part by part.  The port and the heartbeat
come back as they are.  The virtual host is one segment, and comes back unless the segment is
lost.  User name and password come back unless they hold an escape: their `%` is not encoded.
-/
import QueueRelay.Config.BrokerAddress
import QueueRelay.Proofs.Url.Roundtrip

namespace QueueRelay.BrokerAddress

open Url

variable {b : BrokerAddress} {host : Host}

/-! ### The address without credentials -/

/-- The host holds no mark that ends a host. -/
def HasPlainHost (b : BrokerAddress) : Prop := ∀ c ∈ b.host.toList, c ∉ ['/', '?', '#', '\\']

theorem isPlainScheme_amqp : IsPlainScheme "amqp".toList where
  first := ⟨'a', rfl, rfl⟩
  member := forall_mem_of_all (by decide)
  lower := forall_mem_of_all (by decide)
  kind := rfl

/-- The text that is read as the authority. -/
def authorityText (b : BrokerAddress) : List Char :=
  b.host.toList.filter (fun c => !isIgnored c) ++ portText (some b.port)

theorem meaning_address (b : BrokerAddress) :
    meaning ("amqp://" ++ b.hostPort ++ "/").toList =
      "amqp".toList ++ ':' :: '/' :: '/' :: (b.authorityText ++ ['/']) := by
  have htext : ("amqp://" ++ b.hostPort ++ "/").toList =
      "amqp://".toList ++ (b.host.toList ++ (portText (some b.port) ++ ['/'])) := by
    simp only [hostPort, String.toList_append, toList_toString, List.append_assoc]
    rfl
  have hlast : ("amqp://".toList ++ (b.host.toList ++
      (portText (some b.port) ++ ['/']))).getLast? = some '/' := by
    rw [← List.append_assoc, ← List.append_assoc, List.getLast?_concat]
  have hport : (portText (some b.port)).filter (fun c => !isIgnored c) = portText (some b.port) :=
    List.filter_eq_self.mpr fun c hc =>
      not_isIgnored (not_isBoundary_iff.mp (not_isBoundary_portText hc)).1
  rw [htext, meaning_eq_filter (fun c hc => ?_) fun c hc => ?_, List.filter_append,
    List.filter_append, List.filter_append, hport, authorityText]
  · have hfront : "amqp://".toList.filter (fun c => !isIgnored c) =
        "amqp".toList ++ [':', '/', '/'] := by decide
    have hend : ['/'].filter (fun c => !isIgnored c) = ['/'] := by decide
    rw [hfront, hend, List.append_assoc, List.append_assoc]
    rfl
  · cases hc
    decide
  · rw [hlast] at hc
    cases hc
    decide

theorem url_of_validate (h : b.validate = .ok ()) : ∃ u, b.url = .ok u := by
  unfold validate at h
  cases hblank : Text.allBlank b.host with
  | true =>
      rw [hblank] at h
      cases h
  | false =>
      cases hname : b.username.isEmpty with
      | true =>
          rw [hblank, hname] at h
          cases h
      | false =>
          cases hu : b.url with
          | error e =>
              rw [hblank, hname, hu] at h
              cases h
          | ok u => exact ⟨u, rfl⟩

/-- The text after the slashes is read as an authority and a path of one slash. -/
theorem parse_address (hh : b.HasPlainHost) : Url.parse ("amqp://" ++ b.hostPort ++ "/") =
    (readAuthority .plain "amqp" b.authorityText).bind fun read =>
      .ok (read.1.followedBy "amqp".toList (read.2 ++ ['/'])) := by
  have htext : ∀ c ∈ b.authorityText, c ≠ '/' ∧ c ≠ '?' ∧ c ≠ '#' := by
    intro c hc
    rcases List.mem_append.mp hc with hhost | hport
    · have hm := hh c (List.mem_filter.mp hhost).1
      simp only [List.mem_cons, not_or] at hm
      exact ⟨hm.1, hm.2.1, hm.2.2.1⟩
    · obtain ⟨-, hs, hq, hn, -⟩ := not_isBoundary_iff.mp (not_isBoundary_portText hport)
      exact ⟨hs, hq, hn⟩
  have hat : b.authorityText ≠ ['@'] := by
    intro he
    have hcolon : ':' ∈ b.authorityText := List.mem_append_right _ List.mem_cons_self
    rw [he] at hcolon
    exact absurd hcolon (by decide)
  have hrest : ∀ c, ['/'].head? = some c → c = '/' ∨ c = '?' ∨ c = '#' := by
    rintro c ⟨⟩
    exact .inl rfl
  rw [parse_plain isPlainScheme_amqp (meaning_address b), readHierarchy_append htext hat hrest]
  rfl

/-- Host and port are all that is read of such an address. -/
theorem url_eq (hh : b.HasPlainHost) {u : Url} (hu : b.url = .ok u) : ∃ a : Authority,
    u = (⟨"amqp".toList, some a, ['/'], none, none⟩ : Url).withSegment b.vhost ∧
      a.host.Plain ∧ a.host.isEmpty = false ∧ a.port = some b.port ∧ b.port ≤ 65535 := by
  have hback : '\\' ∉ b.host.toList.filter (fun c => !isIgnored c) := fun hm =>
    hh '\\' (List.mem_filter.mp hm).1 (by decide)
  cases hread : readAuthority .plain "amqp" b.authorityText with
  | error e =>
      rw [url, parse_address hh, hread] at hu
      cases hu
  | ok read =>
      obtain ⟨a, overhang⟩ := read
      have hreads := readAuthority_iff.mp hread
      obtain ⟨hle, rfl, haddr, hport⟩ := reads_port hreads hback
      rw [url, parse_address hh, hread] at hu
      cases hu
      exact ⟨a, rfl, opaqueHost_plain hreads.host, haddr, hport, hle⟩

/-! ### The connection URI -/

/-- The URL whose text is the connection URI to a host. -/
def connection (b : BrokerAddress) (host : Host) : Url where
  scheme := "amqp".toList
  authority := some
    { username := encode inUserinfoSet b.username.toList
      password :=
        if b.password.value.isEmpty then none
        else some (encode inUserinfoSet b.password.value.toList)
      host
      port := some b.port }
  path := '/' :: pushed b.vhost
  query := some (encode inQuerySet ("heartbeat=" ++ toString b.heartbeatSecs).toList)
  fragment := none

/-- An address that holds up gives a URI, the text of a URL with its port and its parts. -/
theorem uri_eq (hh : b.HasPlainHost) (hv : b.validate = .ok ()) :
    ∃ host : Host, b.uri = .ok (b.connection host).render ∧ host.Plain ∧ host.isEmpty = false ∧
      b.port ≤ 65535 := by
  obtain ⟨u, hu⟩ := url_of_validate hv
  obtain ⟨a, rfl, hplain, haddr, hport, hle⟩ := url_eq hh hu
  refine ⟨a.host, ?_, hplain, haddr, hle⟩
  have hcred : ((⟨"amqp".toList, some a, ['/'], none, none⟩ : Url).withSegment
      b.vhost).withCredentials? b.username b.password.value =
        some { b.connection a.host with query := none } := by
    simp only [withSegment, pushSegment_root, withCredentials?, haddr, Bool.false_eq_true,
      if_false, connection, hport]
  simp only [uri, hu, bind, Except.bind, hcred]
  rfl

/-- The parts of the URI are in the form that reading gives them. -/
theorem canonical_connection (hplain : host.Plain) (haddr : host.isEmpty = false)
    (hle : b.port ≤ 65535) : (b.connection host).Canonical where
  scheme := isPlainScheme_amqp
  authority := by
    refine ⟨_, rfl, ?_, ?_, hplain, haddr, ?_⟩
    · exact spares_inUserinfoSet.written_encode fun _ _ => id
    · intro password hp
      obtain ⟨hne, hp⟩ := Option.ite_none_left_eq_some.mp hp
      cases hp
      refine ⟨encode_ne_nil fun hn => hne ?_, spares_inUserinfoSet.written_encode fun _ _ => id⟩
      rw [String.toList_eq_nil_iff.mp hn]
      rfl
    · rintro port ⟨⟩
      exact ⟨hle, nofun⟩
  path := ⟨[pushed b.vhost], by simp [connection], by simpa using isSegment_pushed b.vhost⟩
  query := by
    rintro query ⟨⟩
    exact spares_inQuerySet.written_encode fun _ _ => id
  fragment := nofun

theorem heartbeat_written (b : BrokerAddress) :
    encode inQuerySet ("heartbeat=" ++ toString b.heartbeatSecs).toList =
      ("heartbeat=" ++ toString b.heartbeatSecs).toList := by
  refine encode_of_written fun c hc => ?_
  have plain : ∀ c ∈ "heartbeat=".toList ++ hexDigits, c.toNat < 0x80 ∧ inQuerySet c = false :=
    forall_mem_of_all (by decide)
  refine plain c ?_
  rw [String.toList_append, toList_toString, List.mem_append] at hc
  exact List.mem_append.mpr (hc.imp_right fun hd => (mem_decimal hd).2)

/-- An address that holds up has a connection URI, and reading the URI gives the port and the
heartbeat back.  User name and password are given back exactly when they hold no escape, and
the virtual host, always one segment, exactly when it is not one or two dots and holds no tab
and no line break. -/
theorem uri_read_back (b : BrokerAddress) (hh : b.HasPlainHost) (hv : b.validate = .ok ()) :
    ∃ text u a segment, b.uri = .ok text ∧ Url.parse text = .ok u ∧ u.authority = some a ∧
      a.port = some b.port ∧
      (decode? a.username = some b.username.toList ↔ ¬ HasEscape b.username.toList) ∧
      (decode? (a.password.getD []) = some b.password.value.toList ↔
        ¬ HasEscape b.password.value.toList) ∧
      u.path = '/' :: segment ∧ '/' ∉ segment ∧
      (decode? segment = some b.vhost.toList ↔
        (∀ c ∈ b.vhost.toList, isIgnored c = false) ∧ b.vhost ≠ "." ∧ b.vhost ≠ "..") ∧
      u.query = some ("heartbeat=" ++ toString b.heartbeatSecs).toList ∧ u.fragment = none := by
  obtain ⟨host, huri, hplain, haddr, hle⟩ := uri_eq hh hv
  have hcanonical := canonical_connection hplain haddr hle
  have hpassword : ((if b.password.value.isEmpty then none
      else some (encode inUserinfoSet b.password.value.toList)).getD []) =
        encode inUserinfoSet b.password.value.toList := by
    split
    · rename_i he
      rw [String.isEmpty_iff.mp he]
      rfl
    · rfl
  refine ⟨_, _, _, pushed b.vhost, huri, parse_render hcanonical, rfl, rfl,
    spares_inUserinfoSet.decode?_encode_iff, ?_, rfl, (isSegment_pushed b.vhost).no_slash,
    decode?_pushed_iff b.vhost, congrArg some (heartbeat_written b), rfl⟩
  change decode? (Option.getD (if _ then _ else _) []) = _ ↔ _
  rw [hpassword]
  exact spares_inUserinfoSet.decode?_encode_iff

/-- A login without `%` and a virtual host with a slash come back whole. -/
theorem uri_read_back_slash :
    let b : BrokerAddress :=
      { host := "mq", username := "relay@ops", password := ⟨"p:ss/w rd"⟩, vhost := "/jobs" }
    b.HasPlainHost ∧ b.validate = .ok () ∧
      ∃ text u a segment, b.uri = .ok text ∧ Url.parse text = .ok u ∧ u.authority = some a ∧
        a.port = some 5672 ∧ decode? a.username = some "relay@ops".toList ∧
        decode? (a.password.getD []) = some "p:ss/w rd".toList ∧
        u.path = '/' :: segment ∧ '/' ∉ segment ∧ decode? segment = some "/jobs".toList := by
  dsimp only
  have hh : HasPlainHost
      { host := "mq", username := "relay@ops", password := ⟨"p:ss/w rd"⟩, vhost := "/jobs" } :=
    forall_mem_of_all (by decide)
  obtain ⟨text, u, a, segment, huri, hu, ha, hport, hname, hpass, hpath, hslash, hvhost, -⟩ :=
    uri_read_back _ hh rfl
  exact ⟨hh, rfl, text, u, a, segment, huri, hu, ha, hport,
    hname.mpr (not_hasEscape (by decide)), hpass.mpr (not_hasEscape (by decide)), hpath, hslash,
    hvhost.mpr ⟨forall_mem_of_all (by decide), by decide, by decide⟩⟩

/-- An escape in a password is read as what it stands for: `%41` comes back as `A`. -/
theorem escape_in_password_read :
    let b : BrokerAddress := { host := "h", password := ⟨"p%41ss"⟩, vhost := "v" }
    b.HasPlainHost ∧ b.validate = .ok () ∧
      b.uri = .ok "amqp://guest:p%41ss@h:5672/v?heartbeat=600" ∧
      ∃ u a, Url.parse "amqp://guest:p%41ss@h:5672/v?heartbeat=600" = .ok u ∧
        u.authority = some a ∧ a.password = some "p%41ss".toList ∧
        decode? "p%41ss".toList = some "pAss".toList ∧
        decode? "p%41ss".toList ≠ some b.password.value.toList := by
  dsimp only
  have hh : HasPlainHost { host := "h", password := ⟨"p%41ss"⟩, vhost := "v" } :=
    forall_mem_of_all (by decide)
  have hd : decode? "p%41ss".toList = some "pAss".toList := by decide +kernel
  refine ⟨hh, rfl, rfl, _, _, rfl, rfl, rfl, hd, ?_⟩
  rw [hd]
  decide

end QueueRelay.BrokerAddress

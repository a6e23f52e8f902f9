/-
Authorities that are read plainly.

`ReadsAuthority` says what it takes to read an authority plainly: what stands before the last
`@` is the login, and what stands after it is a host up to a colon outside brackets and then
the port (`readAuthority_iff`).  A host comes out as an IPv6 address or as a name that holds no
character with a meaning of its own (`opaqueHost_plain`), so that the `@` in front of it and
the colon behind it are found again, and with them every part of an authority in the form
that reading gives it (`readAuthority_render`).
-/
import Mathlib.Data.List.TakeWhile
import QueueRelay.Proofs.Url.Ipv6
import QueueRelay.Url

namespace QueueRelay.Url

variable {set : Char → Bool} {c : Char} {s t overhang : List Char} {pieces : List Nat} {n : Nat}
  {host : Host} {a : Authority} {scheme : String}

/-! ### Hosts kept as they stand -/

/-- Characters that a name read plainly does not hold. -/
def inHostSet (c : Char) : Bool := isControl c || isForbidden c

theorem spares_inHostSet : Spares inHostSet := forall_mem_of_all (by decide)

theorem coversBlanks_inHostSet : CoversBlanks inHostSet where
  control c hc := by simp [inHostSet, hc]
  space := rfl

/-- What reading a host plainly can give. -/
inductive Host.Plain : Host → Prop
  | domain {name : List Char} (written : Written inHostSet name) : Plain (.domain name)
  | ipv6 {pieces : List Nat} (is : IsIpv6 pieces) : Plain (.ipv6 pieces)

theorem opaqueHost_plain (h : opaqueHost s = .ok host) : host.Plain := by
  unfold opaqueHost at h
  split at h
  · unfold bracketHost at h
    split at h
    · split at h
      · rename_i hp
        cases h
        exact .ipv6 (isIpv6_of_parse hp)
      · cases h
    · cases h
  split at h
  · cases h
  · rename_i hf
    cases h
    refine .domain (spares_inHostSet.written_encode fun c hc hset => ?_)
    have hn : isForbidden c = false := by
      rw [Bool.not_eq_true, List.any_eq_false] at hf
      exact Bool.eq_false_iff.mpr (hf c hc)
    rwa [inHostSet, hn, Bool.or_false] at hset

theorem opaqueHost_domain (h : Written inHostSet s) : opaqueHost s = .ok (.domain s) := by
  have hb : s.head? ≠ some '[' := fun he =>
    h.not_mem (by decide) (List.mem_of_mem_head? he)
  have hf : s.any isForbidden = false := List.any_eq_false.mpr fun c hc hset =>
    h.not_mem (by rw [inHostSet, hset, Bool.or_true]) hc
  have hk : Written isControl s := h.mono fun c hset => by rw [inHostSet, hset, Bool.true_or]
  rw [opaqueHost, if_neg hb, hf, if_neg Bool.false_ne_true, encode_of_written hk]

/-- A host is read back from what is written for it. -/
theorem Host.Plain.opaqueHost_render (h : host.Plain) :
    opaqueHost host.render = .ok host := by
  cases h with
  | domain written => exact opaqueHost_domain written
  | @ipv6 pieces is =>
      have hl : ('[' :: renderIpv6 pieces ++ [']']).getLast? = some ']' := List.getLast?_concat
      have hm : (('[' :: renderIpv6 pieces ++ [']']).drop 1).dropLast = renderIpv6 pieces :=
        List.dropLast_concat
      have hh : ('[' :: renderIpv6 pieces ++ [']']).head? = some '[' := rfl
      rw [Host.render, opaqueHost, if_pos hh, bracketHost, if_pos hl, hm, parseIpv6_renderIpv6 is]

theorem splitHost_cons {inside : Bool} (h : ¬ (c = ':' ∧ inside = false)) :
    splitHost inside (c :: s) = Prod.map (c :: ·) id
      (splitHost (if c = '[' then true else if c = ']' then false else inside) s) := by
  rw [splitHost, if_neg h]
  rfl

theorem splitHost_append {inside : Bool}
    (h : ∀ c ∈ s, c ≠ '[' ∧ c ≠ ']' ∧ (c = ':' → inside = true)) :
    splitHost inside (s ++ t) = Prod.map (s ++ ·) id (splitHost inside t) := by
  induction s with
  | nil => rfl
  | cons c s ih =>
      obtain ⟨⟨hopen, hclose, hcolon⟩, hs⟩ := List.forall_mem_cons.mp h
      have hc : ¬ (c = ':' ∧ inside = false) := fun ⟨hc, hf⟩ => by
        rw [hcolon hc] at hf
        cases hf
      rw [List.cons_append, splitHost_cons hc, if_neg hopen, if_neg hclose, ih hs]
      rfl

/-- The host goes up to the colon in front of the port. -/
theorem Host.Plain.splitHost_render (h : host.Plain)
    (ht : t = [] ∨ ∃ after, t = ':' :: after) :
    splitHost false (host.render ++ t) = (host.render, t) := by
  have hstop : splitHost false t = ([], t) := by
    obtain rfl | ⟨after, rfl⟩ := ht
    · rfl
    · exact if_pos ⟨rfl, rfl⟩
  cases h with
  | @domain name written =>
      have hname : ∀ c ∈ name, c ≠ '[' ∧ c ≠ ']' ∧ (c = ':' → false = true) := fun c hc =>
        have holds : ∀ d, inHostSet d = true → c ≠ d := fun d hd he =>
          written.not_mem hd (he ▸ hc)
        ⟨holds '[' (by decide), holds ']' (by decide), fun he => absurd he (holds ':' (by decide))⟩
      rw [Host.render, splitHost_append hname, hstop]
      simp
  | @ipv6 pieces is =>
      have hgroups : ∀ c ∈ renderIpv6 pieces, c ≠ '[' ∧ c ≠ ']' ∧ (c = ':' → true = true) := by
        intro c hc
        refine ⟨?_, ?_, fun _ => rfl⟩
        · rintro rfl
          exact absurd (mem_renderIpv6 hc) (by decide)
        · rintro rfl
          exact absurd (mem_renderIpv6 hc) (by decide)
      have hclose : splitHost true (']' :: t) = ([']'], t) := by
        rw [splitHost_cons (by decide), if_neg (by decide), if_pos rfl, hstop]
        rfl
      have hopen : splitHost false ('[' :: (renderIpv6 pieces ++ ']' :: t)) =
          Prod.map ('[' :: ·) id (splitHost true (renderIpv6 pieces ++ ']' :: t)) := by
        rw [splitHost_cons (by decide), if_pos rfl]
      have htext : (Host.ipv6 pieces).render ++ t = '[' :: (renderIpv6 pieces ++ ']' :: t) := by
        simp [Host.render]
      rw [htext, hopen, splitHost_append hgroups, hclose]
      rfl

/-! ### What it takes to read an authority -/

/-- The text before the last `@`, if there is one. -/
def beforeAt (s : List Char) : List Char := ((splitLastAt s).map Prod.fst).getD []

/-- The text after the last `@`. -/
def afterAt (s : List Char) : List Char := ((splitLastAt s).map Prod.snd).getD s

/-- The port of what stands after a host, and the text after it. -/
def readPortText : List Char → Except UrlError (Option Nat × List Char)
  | ':' :: rest => readPort rest
  | rest => .ok (none, rest)

theorem readPortText_none (h : ∀ after, s = ':' :: after → False) :
    readPortText s = .ok (none, s) := by
  rw [readPortText]
  exact h

/-- What it takes to read an authority plainly. -/
structure ReadsAuthority (scheme : String) (s : List Char) (a : Authority)
    (overhang : List Char) : Prop where
  login : readUserinfo (beforeAt s) = (a.username, a.password)
  host : opaqueHost (splitHost false (afterAt s)).1 = .ok a.host
  port : ∃ port, readPortText (splitHost false (afterAt s)).2 = .ok (port, overhang) ∧
    a.port = if port = defaultPort scheme then none else port
  addressed : a.host.isEmpty = true →
    (splitHost false (afterAt s)).2.head? ≠ some ':' ∧ a.username = [] ∧ a.password = none

/-- Reading an authority plainly, its parts told apart. -/
theorem readAuthority_eq (scheme : String) (s : List Char) :
    readAuthority .plain scheme s =
      let (username, password) := readUserinfo (beforeAt s)
      let (hostText, rest) := splitHost false (afterAt s)
      (opaqueHost hostText).bind fun host =>
        if host.isEmpty && rest.head? = some ':' then .error .emptyHost
        else (readPortText rest).bind fun (port, overhang) =>
          if host.isEmpty && (!username.isEmpty || password.isSome) then .error .emptyHost
          else
            let port := if port = defaultPort scheme then none else port
            .ok (⟨username, password, host, port⟩, overhang) := by
  unfold readAuthority beforeAt afterAt
  cases splitLastAt s
  all_goals
    simp only [Option.map_none, Option.map_some, Option.getD_none, Option.getD_some, reduceCtorEq,
      decide_false, Bool.false_and, Bool.false_eq_true, if_false, if_true, Bool.or_false]
    refine congrArg (Except.bind _) (funext fun host => ?_)
    split
    · rfl
    · generalize (splitHost false _).2 = rest
      split
      · refine congrArg (Except.bind _) (funext fun read => ?_)
        split <;> rfl
      · rename_i hn
        rw [readPortText_none hn]
        refine congrArg (Except.bind (.ok (none, rest))) (funext fun read => ?_)
        split <;> rfl

theorem readAuthority_iff :
    readAuthority .plain scheme s = .ok (a, overhang) ↔ ReadsAuthority scheme s a overhang := by
  rw [readAuthority_eq]
  constructor
  · intro h
    cases hhost : opaqueHost (splitHost false (afterAt s)).1 with
    | error e => simp [hhost, Except.bind] at h
    | ok host =>
        simp only [hhost, Except.bind] at h
        split at h
        · cases h
        rename_i hcolon
        split at h
        · cases h
        rename_i port hport
        split at h
        · cases h
        rename_i hlogin
        cases h
        refine ⟨rfl, hhost, ⟨_, hport, rfl⟩, fun he => ?_⟩
        simp only [he, Bool.true_and, decide_eq_true_eq] at hcolon hlogin
        exact ⟨hcolon, by simpa using hlogin⟩
  · rintro ⟨hlogin, hhost, ⟨port, hport, hp⟩, haddr⟩
    have hcolon : (a.host.isEmpty && (splitHost false (afterAt s)).2.head? = some ':') = false := by
      simpa using fun he => (haddr he).1
    have hnone : (a.host.isEmpty && (!a.username.isEmpty || a.password.isSome)) = false := by
      simpa using fun he => (haddr he).2
    simp only [hlogin, hhost, hport, Except.bind, hcolon, hnone, ← hp, Bool.false_eq_true, if_false]

/-! ### Authorities in the form that reading gives them -/

/-- An authority whose parts are in the form that reading gives them. -/
structure Authority.Canonical (scheme : String) (a : Authority) : Prop where
  username : Written inUserinfoSet a.username
  password : ∀ password ∈ a.password, password ≠ [] ∧ Written inUserinfoSet password
  host : a.host.Plain
  addressed : a.host.isEmpty = false
  port : ∀ port ∈ a.port, port ≤ 65535 ∧ some port ≠ defaultPort scheme

/-- Characters that end an authority or one of its parts, or mean nothing at the ends of a
text. -/
def isBoundary (c : Char) : Bool :=
  c.toNat ≤ 0x20 || c == '/' || c == '?' || c == '#' || c == '@'

theorem not_isBoundary_iff : isBoundary c = false ↔
    0x20 < c.toNat ∧ c ≠ '/' ∧ c ≠ '?' ∧ c ≠ '#' ∧ c ≠ '@' := by
  simp [isBoundary, and_assoc]

theorem eq_true_of_isBoundary (hc : isBoundary c = true) (hblank : CoversBlanks set)
    (hmarks : ∀ c ∈ ['/', '?', '#', '@'], set c = true) : set c = true := by
  simp only [isBoundary, Bool.or_eq_true, decide_eq_true_eq, beq_iff_eq] at hc
  rcases hc with (((hc | hc) | hc) | hc) | hc
  · exact hblank.eq_true hc
  all_goals exact hmarks c (by simp [hc])

theorem Written.not_isBoundary (h : Written set s) (hblank : CoversBlanks set)
    (hmarks : ∀ c ∈ ['/', '?', '#', '@'], set c = true) (hc : c ∈ s) : isBoundary c = false :=
  Bool.eq_false_iff.mpr fun hb => h.not_mem (eq_true_of_isBoundary hb hblank hmarks) hc

theorem Host.Plain.not_isBoundary (h : host.Plain) (hc : c ∈ host.render) :
    isBoundary c = false := by
  cases h with
  | domain written =>
      exact written.not_isBoundary coversBlanks_inHostSet (forall_mem_of_all (by decide)) hc
  | ipv6 is =>
      have hplain : ∀ c ∈ '[' :: ']' :: ':' :: hexDigits, isBoundary c = false :=
        forall_mem_of_all (by decide)
      refine hplain c ?_
      simp only [Host.render, List.mem_append, List.mem_cons, List.not_mem_nil, or_false] at hc
      rcases hc with (rfl | hc) | rfl
      · simp
      · rcases mem_renderIpv6 hc with rfl | hd
        · simp
        · simp [mem_hexDigits hd]
      · simp

/-- The port with its mark. -/
def portText : Option Nat → List Char
  | some port => ':' :: Nat.toDigits 10 port
  | none => []

/-- User name and password with the colon between them. -/
def Authority.login (a : Authority) : List Char :=
  match a.password with
  | some password => a.username ++ ':' :: password
  | none => a.username

theorem Authority.render_eq (a : Authority) :
    a.render = a.userinfo ++ (a.host.render ++ portText a.port) := by
  cases hp : a.port <;> simp [Authority.render, portText, hp]

/-- A login is written, with its mark behind it, or there is none. -/
theorem Authority.userinfo_cases (a : Authority) :
    a.userinfo = a.login ++ ['@'] ∨ a.userinfo = [] ∧ a.username = [] ∧ a.password = none := by
  unfold Authority.userinfo Authority.login
  cases a.password with
  | some password => exact .inl (by simp)
  | none =>
      dsimp only
      split
      · exact .inr ⟨rfl, List.isEmpty_iff.mp ‹_›, rfl⟩
      · exact .inl rfl

theorem toList_toString (n : Nat) : (toString n).toList = Nat.toDigits 10 n :=
  String.toList_ofList

theorem mem_decimal (hc : c ∈ Nat.toDigits 10 n) : c.isDigit = true ∧ c ∈ hexDigits := by
  have hd : c.isDigit = true := Nat.isDigit_of_mem_toDigits (by decide) (by decide) hc
  have hrange : '0' ≤ c ∧ c ≤ '9' := by
    rw [Char.isDigit, Bool.and_eq_true, decide_eq_true_eq, decide_eq_true_eq] at hd
    exact hd
  exact ⟨hd, mem_hexDigits (by simp [hexValue?, hrange])⟩

theorem not_isBoundary_portText {port : Option Nat} (hc : c ∈ portText port) :
    isBoundary c = false := by
  have hplain : ∀ c ∈ ':' :: hexDigits, isBoundary c = false := forall_mem_of_all (by decide)
  cases port with
  | none => cases hc
  | some port =>
      refine hplain c ?_
      rcases List.mem_cons.mp hc with rfl | hd
      · exact List.mem_cons_self
      · exact List.mem_cons_of_mem ':' (mem_decimal hd).2

theorem Authority.Canonical.not_isBoundary_login (h : a.Canonical scheme) (hc : c ∈ a.login) :
    isBoundary c = false := by
  have written : ∀ {s}, Written inUserinfoSet s → c ∈ s → isBoundary c = false :=
    fun hs hc => hs.not_isBoundary coversBlanks_inUserinfoSet (forall_mem_of_all (by decide)) hc
  unfold Authority.login at hc
  split at hc
  · rename_i password hp
    rcases List.mem_append.mp hc with hn | hc
    · exact written h.username hn
    rcases List.mem_cons.mp hc with rfl | hp'
    · rfl
    · exact written (h.password password hp).2 hp'
  · exact written h.username hc

/-- Only the `@` behind the login is a boundary. -/
theorem Authority.Canonical.mem_render (h : a.Canonical scheme) (hc : c ∈ a.render) :
    c = '@' ∨ isBoundary c = false := by
  rw [a.render_eq, List.mem_append, List.mem_append] at hc
  rcases hc with hu | hhost | hport
  · rcases a.userinfo_cases with he | ⟨he, -⟩
    · rw [he, List.mem_append, List.mem_singleton] at hu
      rcases hu with hl | rfl
      · exact .inr (h.not_isBoundary_login hl)
      · exact .inl rfl
    · rw [he] at hu
      cases hu
  · exact .inr (h.host.not_isBoundary hhost)
  · exact .inr (not_isBoundary_portText hport)

theorem splitLastAt_append (h : '@' ∉ t) : splitLastAt (s ++ '@' :: t) = some (s, t) := by
  have hkeep : ∀ c ∈ t.reverse, (c != '@') = true := fun c hc =>
    bne_iff_ne.mpr fun he => h (he ▸ List.mem_reverse.mp hc)
  have hafter : (s ++ '@' :: t).reverse.takeWhile (· != '@') = t.reverse := by
    rw [List.reverse_append, List.reverse_cons, List.append_assoc,
      List.takeWhile_append_of_pos hkeep]
    simp
  rw [splitLastAt]
  simp only [hafter, List.length_reverse, List.length_append, List.length_cons,
    List.reverse_reverse]
  rw [if_neg (by omega), show s.length + (t.length + 1) - t.length - 1 = s.length by omega,
    List.take_left']
  rfl

theorem splitLastAt_none (h : '@' ∉ s) : splitLastAt s = none := by
  have hafter : s.reverse.takeWhile (· != '@') = s.reverse :=
    List.takeWhile_eq_self_iff.mpr fun c hc =>
      bne_iff_ne.mpr fun he => h (he ▸ List.mem_reverse.mp hc)
  rw [splitLastAt, hafter, if_pos List.length_reverse]

theorem readUserinfo_login (h : a.Canonical scheme) :
    readUserinfo a.login = (a.username, a.password) := by
  have hcolon : ∀ c ∈ a.username, (c != ':') = true := fun c hc =>
    bne_iff_ne.mpr fun he => h.username.not_mem (by decide) (he ▸ hc)
  unfold readUserinfo Authority.login
  cases hp : a.password with
  | some password =>
      obtain ⟨hne, hw⟩ := h.password password hp
      simp [List.takeWhile_append_of_pos hcolon, List.dropWhile_append_of_pos hcolon,
        encode_of_written h.username, encode_of_written hw, hne]
  | none =>
      simp [List.takeWhile_eq_self_iff.mpr hcolon, List.dropWhile_eq_nil_iff.mpr hcolon,
        encode_of_written h.username]

theorem readPort_toDigits (n : Nat) : readPort (Nat.toDigits 10 n) =
    if 65535 < n then .error .badPort else .ok (some n, []) := by
  have hdigit : ∀ c ∈ Nat.toDigits 10 n, c.isDigit = true := fun c hc => (mem_decimal hc).1
  have hvalue : (Nat.toDigits 10 n).foldl (fun n c => n * 10 + (c.toNat - 48)) 0 = n := by
    have hpush : (fun (n : Nat) (c : Char) => n * 10 + (c.toNat - 48)) =
        fun n c => 10 * n + (c.toNat - '0'.toNat) :=
      funext fun n => funext fun c => by rw [Nat.mul_comm]; rfl
    rw [hpush]
    exact Nat.ofDigitChars_toDigits (by decide) (by decide)
  rw [readPort]
  simp [List.takeWhile_eq_self_iff.mpr hdigit, List.dropWhile_eq_nil_iff.mpr hdigit, hvalue,
    Nat.toDigits_ne_nil]

theorem Authority.Canonical.render_ne_at (h : a.Canonical scheme) : a.render ≠ ['@'] := by
  intro he
  obtain ⟨c, hc⟩ : ∃ c, c ∈ a.host.render := by
    refine List.exists_mem_of_ne_nil _ ?_
    have hne := h.addressed
    cases hh : a.host with
    | domain name =>
        rw [hh] at hne
        exact fun hn => by simp [Host.isEmpty, show name = [] from hn] at hne
    | ipv4 address => cases hh ▸ h.host
    | ipv6 pieces => exact List.cons_ne_nil _ _
  have hm : c ∈ a.render := by
    rw [a.render_eq]
    exact List.mem_append_right _ (List.mem_append_left _ hc)
  rw [he, List.mem_singleton] at hm
  exact (not_isBoundary_iff.mp (h.host.not_isBoundary hc)).2.2.2.2 hm

/-- An authority in the form that reading gives it is read back. -/
theorem readAuthority_render (h : a.Canonical scheme) :
    readAuthority .plain scheme a.render = .ok (a, []) := by
  have hat : '@' ∉ a.host.render ++ portText a.port := by
    rw [List.mem_append]
    rintro (hc | hc)
    · cases h.host.not_isBoundary hc
    · cases not_isBoundary_portText hc
  have hsplit : splitHost false (a.host.render ++ portText a.port) =
      (a.host.render, portText a.port) :=
    h.host.splitHost_render (by cases a.port <;> simp [portText])
  obtain ⟨hlogin, hafter⟩ : readUserinfo (beforeAt a.render) = (a.username, a.password) ∧
      afterAt a.render = a.host.render ++ portText a.port := by
    rw [a.render_eq]
    rcases a.userinfo_cases with hu | ⟨hu, hn, hp⟩
    · rw [hu, List.append_assoc, List.singleton_append, beforeAt, afterAt, splitLastAt_append hat]
      exact ⟨readUserinfo_login h, rfl⟩
    · rw [hu, List.nil_append, beforeAt, afterAt, splitLastAt_none hat, hn, hp]
      exact ⟨rfl, rfl⟩
  have hport : readPortText (portText a.port) = .ok (a.port, []) := by
    cases hp : a.port with
    | none => rfl
    | some port =>
        exact (readPort_toDigits port).trans (if_neg (Nat.not_lt_of_le (h.port port hp).1))
  have hown : a.port = if a.port = defaultPort scheme then none else a.port := by
    cases hp : a.port with
    | none => exact (ite_self none).symm
    | some port => rw [if_neg (h.port port hp).2]
  refine readAuthority_iff.mpr ⟨hlogin, ?_, ⟨a.port, ?_, hown⟩, fun he => ?_⟩
  · rw [hafter, hsplit]
    exact h.host.opaqueHost_render
  · rw [hafter, hsplit]
    exact hport
  · rw [h.addressed] at he
    cases he

/-! ### A host and a port -/

theorem afterAt_append (h : '@' ∉ t) : ∃ rest, rest <:+ s ∧ afterAt (s ++ t) = rest ++ t := by
  by_cases hs : '@' ∈ s
  · obtain ⟨back, front, he, hb⟩ := List.eq_append_cons_of_mem (List.mem_reverse.mpr hs)
    have hsplit : s = front.reverse ++ '@' :: back.reverse := by
      rw [List.reverse_eq_iff.mp he]
      simp
    have hat : '@' ∉ back.reverse ++ t := fun hm =>
      (List.mem_append.mp hm).elim (fun hm => hb (List.mem_reverse.mp hm)) h
    refine ⟨back.reverse, ⟨front.reverse ++ ['@'], by simp [hsplit]⟩, ?_⟩
    rw [afterAt, hsplit, List.append_assoc, List.cons_append, splitLastAt_append hat]
    rfl
  · refine ⟨s, List.suffix_rfl, ?_⟩
    rw [afterAt, splitLastAt_none fun hm => (List.mem_append.mp hm).elim hs h]
    rfl

theorem splitHost_spec (inside : Bool) (s : List Char) :
    (splitHost inside s).1 ++ (splitHost inside s).2 = s ∧
      ((splitHost inside s).2 = [] ∨ ∃ after, (splitHost inside s).2 = ':' :: after) := by
  induction s generalizing inside with
  | nil => exact ⟨rfl, .inl rfl⟩
  | cons c s ih =>
      by_cases h : c = ':' ∧ inside = false
      · rw [splitHost, if_pos h]
        exact ⟨rfl, .inr ⟨s, by rw [h.1]⟩⟩
      · obtain ⟨happ, hend⟩ := ih (if c = '[' then true else if c = ']' then false else inside)
        rw [splitHost_cons h]
        exact ⟨congrArg (c :: ·) happ, hend⟩

/-- A host that holds a colon is an address in brackets. -/
theorem getLast?_of_opaqueHost (h : opaqueHost s = .ok host) (hc : ':' ∈ s) :
    s.getLast? = some ']' := by
  unfold opaqueHost at h
  split at h
  · unfold bracketHost at h
    split at h
    · assumption
    · cases h
  split at h
  · cases h
  · rename_i hf
    exact absurd (List.any_eq_true.mpr ⟨':', hc, rfl⟩) hf

/-- Only a backslash may end a port text early. -/
theorem backslash_mem_of_readPort {port : Option Nat} (h : readPort s = .ok (port, overhang))
    (hc : ':' ∈ s) : '\\' ∈ s := by
  unfold readPort at h
  dsimp only at h
  split at h
  · cases h
  split at h
  · rename_i hrest
    rw [Bool.or_eq_true, decide_eq_true_eq] at hrest
    rcases hrest with hnil | hhead
    · have hd := List.dropWhile_eq_nil_iff.mp (List.isEmpty_iff.mp hnil) ':' hc
      cases hd
    · exact (List.dropWhile_suffix _).mem (List.mem_of_mem_head? hhead)
  · cases h

/-- Where a text ends in a colon and a number, and holds no backslash, the number is the port
and nothing is left over. -/
theorem reads_port (h : ReadsAuthority scheme (s ++ ':' :: Nat.toDigits 10 n) a overhang)
    (hs : '\\' ∉ s) : n ≤ 65535 ∧ overhang = [] ∧ a.host.isEmpty = false ∧
      a.port = if some n = defaultPort scheme then none else some n := by
  have hdigits : ∀ d ∈ [':', '@', '\\', ']'], d ∉ Nat.toDigits 10 n := fun d hd hm => by
    have all : ∀ d ∈ [':', '@', '\\', ']'], d.isDigit = false := forall_mem_of_all (by decide)
    cases (all d hd).symm.trans (mem_decimal hm).1
  obtain ⟨front, hfront, hafter⟩ := afterAt_append (s := s) (t := ':' :: Nat.toDigits 10 n)
    fun hm => (List.mem_cons.mp hm).elim (by decide) (hdigits '@' (by decide))
  obtain ⟨happ, hend⟩ := splitHost_spec false (afterAt (s ++ ':' :: Nat.toDigits 10 n))
  obtain ⟨-, hhost, ⟨port, hport, hp⟩, haddr⟩ := h
  rw [hafter] at happ hend hhost hport haddr
  generalize splitHost false (front ++ ':' :: Nat.toDigits 10 n) = cut
    at happ hend hhost hport haddr
  obtain ⟨hostText, rest⟩ := cut
  dsimp only at happ hend hhost hport haddr
  rcases hend with rfl | ⟨after, rfl⟩
  · -- no colon outside brackets: the last digit would have to close them
    rw [List.append_nil] at happ
    have hlast := getLast?_of_opaqueHost hhost (happ ▸ List.mem_append_right _ List.mem_cons_self)
    rw [happ, List.append_cons, List.getLast?_append_of_ne_nil _ Nat.toDigits_ne_nil] at hlast
    exact absurd (List.mem_of_mem_getLast? hlast) (hdigits ']' (by decide))
  · change readPort after = _ at hport
    have heq : after = Nat.toDigits 10 n := by
      rcases List.append_eq_append_iff.mp happ with ⟨between, hfr, htail⟩ | ⟨between, -, htail⟩
      · cases between with
        | nil => exact (List.cons.inj htail).2
        | cons c between =>
            -- a colon before the last one leaves a port text that only a backslash can end
            obtain ⟨rfl, rfl⟩ := List.cons.inj htail
            have hm : '\\' ∈ between ++ ':' :: Nat.toDigits 10 n := backslash_mem_of_readPort
              hport (List.mem_append_right _ List.mem_cons_self)
            rcases List.mem_append.mp hm with hb | hb
            · have hb : '\\' ∈ front := hfr ▸ List.mem_append_right _ (List.mem_cons_of_mem _ hb)
              exact absurd (hfront.mem hb) hs
            · exact absurd hb fun hb =>
                (List.mem_cons.mp hb).elim (by decide) (hdigits '\\' (by decide))
      · cases between with
        | nil => exact (List.cons.inj htail).2.symm
        | cons c between =>
            have hm : ':' ∈ Nat.toDigits 10 n :=
              (List.cons.inj htail).2 ▸ List.mem_append_right _ List.mem_cons_self
            exact absurd hm (hdigits ':' (by decide))
    rw [heq] at hport
    have hread := (readPort_toDigits n).symm.trans hport
    split at hread
    · cases hread
    · rename_i hle
      cases hread
      refine ⟨Nat.le_of_not_lt hle, rfl, ?_, hp⟩
      exact Bool.eq_false_iff.mpr fun he => (haddr he).1 rfl

end QueueRelay.Url

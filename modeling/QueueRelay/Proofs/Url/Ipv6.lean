/-
IPv6 addresses in their shortest form, and their reading.

The shortest form leaves the first longest run of zeros out.  Reading it back rests on the
double colon: groups hold none and end in none (`splitDoubleColon_joinGroups`), so that it
stands where the run stood, and how many zeros it stands for is counted from the groups on
its two sides (`parseIpv6_renderIpv6`).
-/
import Mathlib.Data.List.Basic
import QueueRelay.Proofs.Url.Encoding
import QueueRelay.Url.Host

namespace QueueRelay.Url

variable {c : Char} {s t : List Char} {n m : Nat} {dotted : Bool} {pieces left right : List Nat}

/-! ### Splitting -/

theorem splitAt_eq_splitOn (c : Char) (s : List Char) : splitAt c s = s.splitOn c := by
  induction s with
  | nil => rfl
  | cons d s ih =>
      rw [List.splitOn_eq_splitOnP, List.splitOnP_cons_eq_if_modifyHead,
        ← List.splitOn_eq_splitOnP, ← ih, splitAt]
      by_cases hd : d = c
      · rw [if_pos hd, if_pos (beq_iff_eq.mpr hd)]
      · obtain ⟨part, parts, hp⟩ := List.exists_cons_of_ne_nil (List.splitOn_ne_nil c s)
        rw [if_neg hd, if_neg (mt beq_iff_eq.mp hd), ih, hp]
        rfl

theorem length_splitAt (c : Char) (s : List Char) : (splitAt c s).length = s.count c + 1 := by
  fun_induction splitAt c s <;> simp_all

/-! ### Groups -/

/-- A number with one more hexadecimal digit. -/
def pushDigit (n : Nat) (c : Char) : Option Nat := (hexValue? c).map (n * 16 + ·)

theorem foldlM_pushDigit (h : s.foldlM pushDigit n = some m) :
    m < (n + 1) * Nat.pow 16 s.length ∧ ∀ c ∈ s, (hexValue? c).isSome := by
  induction s generalizing n with
  | nil =>
      cases h
      exact ⟨by simp, nofun⟩
  | cons c s ih =>
      rw [List.foldlM_cons] at h
      obtain ⟨k, hk, hm⟩ := Option.bind_eq_some_iff.mp h
      obtain ⟨d, hd, rfl⟩ := Option.map_eq_some_iff.mp hk
      obtain ⟨hlt, hall⟩ := ih hm
      refine ⟨hlt.trans_le ?_, List.forall_mem_cons.mpr ⟨Option.isSome_of_eq_some hd, hall⟩⟩
      have hd := hexValue?_lt hd
      calc (n * 16 + d + 1) * Nat.pow 16 s.length
          ≤ ((n + 1) * 16) * Nat.pow 16 s.length := Nat.mul_le_mul_right _ (by omega)
        _ = (n + 1) * (16 * Nat.pow 16 s.length) := Nat.mul_assoc _ _ _
        _ = (n + 1) * Nat.pow 16 (s.length + 1) := congrArg _ Nat.pow_succ'.symm

theorem hexValue?_digitChar (h : n < 16) : hexValue? n.digitChar = some n := by
  have all : ∀ n < 16, hexValue? (Nat.digitChar n) = some n := by decide
  exact all n h

theorem foldlM_toDigits (n : Nat) : (Nat.toDigits 16 n).foldlM pushDigit 0 = some n := by
  induction n using Nat.strongRecOn with
  | ind n ih =>
      rw [Nat.toDigits_eq_if (by decide)]
      split
      · rename_i hn
        simp [pushDigit, hexValue?_digitChar hn]
      · have hd : n % 16 < 16 := Nat.mod_lt n (by decide)
        rw [List.foldlM_append, ih (n / 16) (by omega)]
        simp [pushDigit, hexValue?_digitChar hd, Nat.div_add_mod']

theorem isSome_of_mem_toDigits (h : c ∈ Nat.toDigits 16 n) : (hexValue? c).isSome :=
  (foldlM_pushDigit (foldlM_toDigits n)).2 c h

theorem ipv6Group?_toDigits (h : n < 65536) : ipv6Group? (Nat.toDigits 16 n) = some n := by
  have hl : (Nat.toDigits 16 n).length ≤ 4 :=
    (Nat.length_toDigits_le_iff (by decide) (by decide)).mpr h
  have hn : (Nat.toDigits 16 n).isEmpty = false := by simp [Nat.toDigits_ne_nil]
  unfold ipv6Group?
  rw [hn, if_neg (by simp [hl])]
  exact foldlM_toDigits n

theorem ipv6Group?_lt (h : ipv6Group? s = some n) : n < 65536 := by
  unfold ipv6Group? at h
  split at h
  · cases h
  · rename_i hs
    have hl : s.length ≤ 4 := by
      simp only [Bool.or_eq_true, decide_eq_true_eq, not_or, Nat.not_lt] at hs
      exact hs.2
    have hlt := (foldlM_pushDigit h).1
    have hp : Nat.pow 16 s.length ≤ 65536 := Nat.pow_le_pow_right (by decide) hl
    omega

theorem groups_map_toDigits (dotted : Bool) (h : ∀ n ∈ pieces, n < 65536) :
    ipv6Groups? dotted (pieces.map (Nat.toDigits 16)) = some pieces := by
  have undotted : ∀ n, (Nat.toDigits 16 n).contains '.' = false := fun n => by
    rw [List.contains_eq_mem, decide_eq_false_iff_not]
    exact fun hd => absurd (isSome_of_mem_toDigits hd) (by decide)
  induction pieces with
  | nil => rfl
  | cons n pieces ih =>
      obtain ⟨hn, hp⟩ := List.forall_mem_cons.mp h
      cases pieces with
      | nil =>
          simp only [List.map_cons, List.map_nil, ipv6Groups?, undotted, Bool.and_false,
            Bool.false_eq_true, if_false, ipv6Group?_toDigits hn]
          rfl
      | cons k pieces =>
          simp only [List.map_cons] at ih ⊢
          simp only [ipv6Groups?, ipv6Group?_toDigits hn, ih hp]
          rfl

/-! ### Groups with colons between them -/

theorem colon_not_mem_toDigits : ':' ∉ Nat.toDigits 16 n := fun h =>
  absurd (isSome_of_mem_toDigits h) (by decide)

@[simp] theorem joinGroups_singleton (n : Nat) : joinGroups [n] = Nat.toDigits 16 n :=
  List.intercalate_singleton

theorem joinGroups_cons_cons (n k : Nat) (pieces : List Nat) :
    joinGroups (n :: k :: pieces) = Nat.toDigits 16 n ++ ':' :: joinGroups (k :: pieces) := by
  simp [joinGroups, List.intercalate_cons_cons]

/-- The first group is at the front, and something is always written for it. -/
theorem exists_joinGroups (n : Nat) (pieces : List Nat) : ∃ d digits after,
    joinGroups (n :: pieces) = d :: digits ++ after ∧ d :: digits = Nat.toDigits 16 n := by
  obtain ⟨d, digits, hd⟩ := List.exists_cons_of_ne_nil (Nat.toDigits_ne_nil (n := n) (b := 16))
  cases pieces with
  | nil => exact ⟨d, digits, [], by rw [joinGroups_singleton, hd, List.append_nil], hd.symm⟩
  | cons k pieces => exact ⟨d, digits, _, by rw [joinGroups_cons_cons, hd], hd.symm⟩

theorem joinGroups_isEmpty (n : Nat) (pieces : List Nat) :
    (joinGroups (n :: pieces)).isEmpty = false := by
  obtain ⟨d, digits, after, hj, -⟩ := exists_joinGroups n pieces
  rw [hj]
  rfl

theorem mem_joinGroups (h : c ∈ joinGroups pieces) : c = ':' ∨ (hexValue? c).isSome := by
  induction pieces with
  | nil => cases h
  | cons n pieces ih =>
      cases pieces with
      | nil =>
          rw [joinGroups_singleton] at h
          exact .inr (isSome_of_mem_toDigits h)
      | cons k pieces =>
          rw [joinGroups_cons_cons, List.mem_append, List.mem_cons] at h
          rcases h with hn | hc | hk
          · exact .inr (isSome_of_mem_toDigits hn)
          · exact .inl hc
          · exact ih hk

/-- One side of a double colon is read back. -/
theorem ipv6Side?_joinGroups (dotted : Bool) (h : ∀ n ∈ pieces, n < 65536) :
    ipv6Side? dotted (joinGroups pieces) = some pieces := by
  cases pieces with
  | nil => rfl
  | cons n pieces =>
      have hs : splitAt ':' (joinGroups (n :: pieces)) = (n :: pieces).map (Nat.toDigits 16) := by
        rw [splitAt_eq_splitOn]
        refine List.splitOn_intercalate ':' (fun group hg => ?_) (by simp)
        obtain ⟨k, -, rfl⟩ := List.mem_map.mp hg
        exact colon_not_mem_toDigits
      rw [ipv6Side?, joinGroups_isEmpty, if_neg Bool.false_ne_true, hs,
        groups_map_toDigits dotted h]

/-! ### The double colon -/

theorem splitDoubleColon_cons (h : c = ':' → s.head? ≠ some ':') :
    splitDoubleColon (c :: s) = (splitDoubleColon s).map (Prod.map (c :: ·) id) := by
  rw [splitDoubleColon]
  · rfl
  · rintro rest rfl rfl
    exact h rfl rfl

theorem splitDoubleColon_append (h : ':' ∉ s) :
    splitDoubleColon (s ++ t) = (splitDoubleColon t).map (Prod.map (s ++ ·) id) := by
  induction s with
  | nil => exact Option.map_id'.symm
  | cons c s ih =>
      obtain ⟨hc, hs⟩ := List.ne_and_not_mem_of_not_mem_cons h
      rw [List.cons_append, splitDoubleColon_cons (fun he => absurd he.symm hc), ih hs,
        Option.map_map]
      rfl

/-- Groups hold no double colon, and none begins in them. -/
theorem splitDoubleColon_joinGroups (pieces : List Nat) (s : List Char) :
    splitDoubleColon (joinGroups pieces ++ s) =
      (splitDoubleColon s).map (Prod.map (joinGroups pieces ++ ·) id) := by
  induction pieces with
  | nil => exact Option.map_id'.symm
  | cons n pieces ih =>
      cases pieces with
      | nil =>
          rw [joinGroups_singleton]
          exact splitDoubleColon_append colon_not_mem_toDigits
      | cons k pieces =>
          have hk : (joinGroups (k :: pieces) ++ s).head? ≠ some ':' := by
            obtain ⟨d, digits, after, hj, hd⟩ := exists_joinGroups k pieces
            have hm : d ∈ Nat.toDigits 16 k := hd ▸ List.mem_cons_self
            rw [hj]
            rintro ⟨⟩
            exact colon_not_mem_toDigits hm
          rw [joinGroups_cons_cons, List.append_assoc,
            splitDoubleColon_append colon_not_mem_toDigits, List.cons_append,
            splitDoubleColon_cons fun _ => hk, ih, Option.map_map, Option.map_map]
          refine congrArg (Option.map · _) (funext fun p => ?_)
          simp [Prod.map]

/-! ### Runs of zeros -/

theorem eq_replicate_append_drop {k : Nat} (h : k ≤ zeroRun pieces) :
    pieces = List.replicate k 0 ++ pieces.drop k := by
  induction k generalizing pieces with
  | zero => rfl
  | succ k ih =>
      cases pieces with
      | nil => cases h
      | cons n pieces =>
          by_cases hn : n = 0
          · subst hn
            have hk : k ≤ zeroRun pieces := Nat.le_of_succ_le_succ h
            rw [List.replicate_succ, List.cons_append, List.drop_succ_cons, ← ih hk]
          · have hz : zeroRun (n :: pieces) = 0 := by simp [zeroRun, hn]
            omega

/-- Zeros stand where the longest run is said to be. -/
theorem longestRun_le (pieces : List Nat) :
    (longestRun pieces).2 ≤ zeroRun (pieces.drop (longestRun pieces).1) := by
  have fold : ∀ (places : List Nat) (best : Nat × Nat), best.2 ≤ zeroRun (pieces.drop best.1) →
      let found := places.foldl
        (fun best i =>
          let run := zeroRun (pieces.drop i)
          if best.2 < run then (i, run) else best) best
      found.2 ≤ zeroRun (pieces.drop found.1) := by
    intro places
    induction places with
    | nil => exact fun _ hb => hb
    | cons i places ih =>
        intro best hb
        refine ih _ ?_
        dsimp only
        split
        · exact Nat.le_refl _
        · exact hb
  exact fold _ (0, 0) (Nat.zero_le _)

/-! ### Reading addresses -/

/-- Eight groups, each of sixteen bits. -/
structure IsIpv6 (pieces : List Nat) : Prop where
  length : pieces.length = 8
  lt : ∀ n ∈ pieces, n < 65536

theorem parseIpv6_joinGroups (h : IsIpv6 pieces) : parseIpv6 (joinGroups pieces) = some pieces := by
  have hs : splitDoubleColon (joinGroups pieces) = none := by
    have := splitDoubleColon_joinGroups pieces []
    rwa [List.append_nil] at this
  rw [parseIpv6, hs]
  simp only [ipv6Side?_joinGroups true h.lt, Option.bind_eq_bind, Option.bind_some, h.length,
    if_pos]

theorem parseIpv6_doubleColon (hl : ∀ n ∈ left, n < 65536) (hr : ∀ n ∈ right, n < 65536)
    (hlen : left.length + right.length ≤ 7) :
    parseIpv6 (joinGroups left ++ [':', ':'] ++ joinGroups right) =
      some (left ++ List.replicate (8 - left.length - right.length) 0 ++ right) := by
  have hs : splitDoubleColon (joinGroups left ++ [':', ':'] ++ joinGroups right) =
      some (joinGroups left, joinGroups right) := by
    rw [List.append_assoc, splitDoubleColon_joinGroups]
    simp [splitDoubleColon]
  rw [parseIpv6, hs]
  simp only [ipv6Side?_joinGroups _ hl, ipv6Side?_joinGroups _ hr, Option.bind_eq_bind,
    Option.bind_some, if_pos hlen]

/-- An address in its shortest form is read back. -/
theorem parseIpv6_renderIpv6 (h : IsIpv6 pieces) : parseIpv6 (renderIpv6 pieces) = some pieces := by
  have hz := longestRun_le pieces
  unfold renderIpv6
  generalize longestRun pieces = found at hz
  obtain ⟨start, run⟩ := found
  dsimp only at hz ⊢
  split
  · exact parseIpv6_joinGroups h
  · rename_i hrun
    have hd := eq_replicate_append_drop hz
    rw [List.drop_drop] at hd
    have hlen := congrArg List.length hd
    simp only [List.length_drop, List.length_append, List.length_replicate, h.length] at hlen
    have hstart : (pieces.take start).length = start := by
      rw [List.length_take, h.length]
      omega
    rw [parseIpv6_doubleColon (fun n hn => h.lt n (List.mem_of_mem_take hn))
      (fun n hn => h.lt n (List.mem_of_mem_drop hn))
      (by rw [hstart, List.length_drop, h.length]; omega)]
    have hcount : 8 - (pieces.take start).length - (pieces.drop (start + run)).length = run := by
      rw [hstart, List.length_drop, h.length]
      omega
    rw [hcount, List.append_assoc, ← hd, List.take_append_drop]

theorem octet?_le (h : octet? s = some n) : n ≤ 255 := by
  unfold octet? at h
  split at h
  · cases h
  · dsimp only at h
    split at h
    · cases h
      assumption
    · cases h

theorem octets_le {parts : List (List Char)} {octets : List Nat}
    (h : parts.mapM octet? = some octets) : ∀ n ∈ octets, n ≤ 255 := by
  induction parts generalizing octets with
  | nil =>
      cases h
      exact nofun
  | cons part parts ih =>
      rw [List.mapM_cons] at h
      obtain ⟨n, hn, h⟩ := Option.bind_eq_some_iff.mp h
      obtain ⟨rest, hr, h⟩ := Option.bind_eq_some_iff.mp h
      cases h
      exact List.forall_mem_cons.mpr ⟨octet?_le hn, ih hr⟩

theorem dottedGroups?_lt {groups : List Nat} (h : dottedGroups? s = some groups) :
    ∀ n ∈ groups, n < 65536 := by
  obtain ⟨octets, ho, h⟩ := Option.bind_eq_some_iff.mp h
  have hle := octets_le ho
  split at h
  · rename_i a b c d
    cases h
    simp only [List.forall_mem_cons] at hle ⊢
    obtain ⟨ha, hb, hc, hd, -⟩ := hle
    exact ⟨by omega, by omega, nofun⟩
  · cases h

theorem ipv6Groups?_lt {parts : List (List Char)} {groups : List Nat}
    (h : ipv6Groups? dotted parts = some groups) : ∀ n ∈ groups, n < 65536 := by
  induction parts generalizing groups with
  | nil =>
      cases h
      exact nofun
  | cons part parts ih =>
      cases parts with
      | nil =>
          simp only [ipv6Groups?] at h
          split at h
          · exact dottedGroups?_lt h
          · obtain ⟨n, hn, rfl⟩ := Option.map_eq_some_iff.mp h
            exact List.forall_mem_singleton.mpr (ipv6Group?_lt hn)
      | cons next parts =>
          obtain ⟨n, hn, h⟩ := Option.bind_eq_some_iff.mp h
          obtain ⟨rest, hr, h⟩ := Option.bind_eq_some_iff.mp h
          cases h
          exact List.forall_mem_cons.mpr ⟨ipv6Group?_lt hn, ih hr⟩

theorem ipv6Side?_lt {groups : List Nat} (h : ipv6Side? dotted s = some groups) :
    ∀ n ∈ groups, n < 65536 := by
  unfold ipv6Side? at h
  split at h
  · cases h
    exact nofun
  · exact ipv6Groups?_lt h

/-- What is read as an address is one. -/
theorem isIpv6_of_parse (h : parseIpv6 s = some pieces) : IsIpv6 pieces := by
  unfold parseIpv6 at h
  split at h
  · obtain ⟨groups, hg, h⟩ := Option.bind_eq_some_iff.mp h
    split at h
    · rename_i hl
      cases h
      exact ⟨hl, ipv6Side?_lt hg⟩
    · cases h
  · obtain ⟨left, hl, h⟩ := Option.bind_eq_some_iff.mp h
    obtain ⟨right, hr, h⟩ := Option.bind_eq_some_iff.mp h
    split at h
    · cases h
      refine ⟨by simp only [List.length_append, List.length_replicate]; omega, fun n hn => ?_⟩
      rcases List.mem_append.mp hn with hn | hn
      · rcases List.mem_append.mp hn with hn | hn
        · exact ipv6Side?_lt hl n hn
        · rw [List.eq_of_mem_replicate hn]
          decide
      · exact ipv6Side?_lt hr n hn
    · cases h

theorem mem_renderIpv6 (h : c ∈ renderIpv6 pieces) : c = ':' ∨ (hexValue? c).isSome := by
  unfold renderIpv6 at h
  dsimp only at h
  split at h
  · exact mem_joinGroups h
  · simp only [List.mem_append, List.mem_cons, List.not_mem_nil, or_false, or_self] at h
    rcases h with (h | h) | h
    · exact mem_joinGroups h
    · exact .inl h
    · exact mem_joinGroups h

end QueueRelay.Url

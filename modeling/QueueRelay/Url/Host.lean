import QueueRelay.Url.Domain
import QueueRelay.Url.Encoding
/-!
Hosts.

A host in brackets is an IPv6 address.  Under a scheme with its own rules any other host
is a domain name or, when its last label is a number, an IPv4 address; under every other
scheme it is kept as it stands, controls and non-ASCII characters percent-encoded.
-/
namespace QueueRelay.Url

/-- Why a text is no URL. -/
inductive UrlError where
  | emptyHost
  | badDomain
  | badPort
  | badIpv4
  | badIpv6
  | badDomainCharacter
  | relative
deriving DecidableEq

/-- The wording of an error. -/
def UrlError.message : UrlError → String
  | emptyHost => "empty host"
  | badDomain => "invalid international domain name"
  | badPort => "invalid port number"
  | badIpv4 => "invalid IPv4 address"
  | badIpv6 => "invalid IPv6 address"
  | badDomainCharacter => "invalid domain character"
  | relative => "relative URL without a base"

/-- Who a URL addresses. -/
inductive Host where
  | domain (name : List Char)
  | ipv4 (address : Nat)
  | ipv6 (pieces : List Nat)
deriving DecidableEq

/-- Splits a text at every character `c`. -/
def splitAt (c : Char) : List Char → List (List Char)
  | [] => [[]]
  | d :: rest =>
    if d = c then [] :: splitAt c rest
    else match splitAt c rest with
      | [] => [[d]]
      | part :: parts => (d :: part) :: parts

/-! ### IPv6 -/

/-- A group of one to four hexadecimal digits. -/
def ipv6Group? (s : List Char) : Option Nat :=
  if s.isEmpty || 4 < s.length then none
  else s.foldlM (fun n c => (hexValue? c).map (n * 16 + ·)) 0

/-- A number up to 255 in decimal without leading zeros. -/
def octet? (s : List Char) : Option Nat :=
  if s.isEmpty || !s.all Char.isDigit || (s.head? = some '0' && 1 < s.length) || 3 < s.length then
    none
  else
    let n := s.foldl (fun n c => n * 10 + (c.toNat - 48)) 0
    if n ≤ 255 then some n else none

/-- Four octets with points between them, as two groups. -/
def dottedGroups? (s : List Char) : Option (List Nat) := do
  match ← (splitAt '.' s).mapM octet? with
  | [a, b, c, d] => some [a * 256 + b, c * 256 + d]
  | _ => none

/-- The groups between single colons; only the last part of all may be dotted. -/
def ipv6Groups? (dotted : Bool) : List (List Char) → Option (List Nat)
  | [] => some []
  | [part] =>
    if dotted && part.contains '.' then dottedGroups? part else (ipv6Group? part).map ([·])
  | part :: rest => do return (← ipv6Group? part) :: (← ipv6Groups? dotted rest)

/-- The groups of one side of a double colon; an empty side has none. -/
def ipv6Side? (dotted : Bool) (s : List Char) : Option (List Nat) :=
  if s.isEmpty then some [] else ipv6Groups? dotted (splitAt ':' s)

/-- The text before the first double colon and the text after it. -/
def splitDoubleColon : List Char → Option (List Char × List Char)
  | [] => none
  | ':' :: ':' :: rest => some ([], rest)
  | c :: rest => (splitDoubleColon rest).map fun (before, after) => (c :: before, after)

/-- Eight groups; a double colon stands for one or more groups of zero. -/
def parseIpv6 (s : List Char) : Option (List Nat) :=
  match splitDoubleColon s with
  | none => do
    let groups ← ipv6Side? true s
    if groups.length = 8 then some groups else none
  | some (before, after) => do
    let left ← ipv6Side? false before
    let right ← ipv6Side? true after
    if left.length + right.length ≤ 7 then
      some (left ++ List.replicate (8 - left.length - right.length) 0 ++ right)
    else none

/-- How many zeros a list begins with. -/
def zeroRun (pieces : List Nat) : Nat := (pieces.takeWhile (· = 0)).length

/-- The start and the length of the first longest run of zeros. -/
def longestRun (pieces : List Nat) : Nat × Nat :=
  (List.range pieces.length).foldl
    (fun best i =>
      let run := zeroRun (pieces.drop i)
      if best.2 < run then (i, run) else best)
    (0, 0)

/-- Groups with colons between them. -/
def joinGroups (pieces : List Nat) : List Char :=
  List.intercalate [':'] (pieces.map (Nat.toDigits 16))

/-- An IPv6 address in its shortest form. -/
def renderIpv6 (pieces : List Nat) : List Char :=
  let (start, run) := longestRun pieces
  if run < 2 then joinGroups pieces
  else joinGroups (pieces.take start) ++ [':', ':'] ++ joinGroups (pieces.drop (start + run))

/-! ### IPv4 -/

/-- The value of a digit in a base up to sixteen. -/
def digitIn? (base : Nat) (c : Char) : Option Nat :=
  (hexValue? c).filter (· < base)

/-- A number in decimal, in octal after a leading zero, or in hexadecimal after `0x`. -/
def ipv4Number? (s : List Char) : Option Nat :=
  let (digits, base) := match s with
    | '0' :: 'x' :: rest | '0' :: 'X' :: rest => (rest, 16)
    | '0' :: d :: rest => (d :: rest, 8)
    | _ => (s, 10)
  if s.isEmpty then none
  else digits.foldlM (fun n c => (digitIn? base c).map (n * base + ·)) 0

/-- The labels of a domain, without the empty one after a final point. -/
def labels (s : List Char) : List (List Char) :=
  let parts := splitAt '.' s
  if parts.getLast? = some [] then parts.dropLast else parts

/-- Whether the last label is a number, so that the host has to be an IPv4 address. -/
def endsInNumber (s : List Char) : Bool :=
  match (labels s).getLast? with
  | none => false
  | some label => (!label.isEmpty && label.all Char.isDigit) || (ipv4Number? label).isSome

/-- Up to four numbers; the last one fills the bytes that are left. -/
def parseIpv4 (s : List Char) : Option Nat := do
  let numbers ← (labels s).mapM ipv4Number?
  let last ← numbers.getLast?
  let front := numbers.dropLast
  if 3 < front.length || front.any (255 < ·) || Nat.pow 256 (4 - front.length) ≤ last then none
  else
    some (front.zipIdx.foldr (fun (n, i) rest => n * Nat.pow 256 (3 - i) + rest) last)

/-- Four decimal numbers with points between them. -/
def renderIpv4 (address : Nat) : List Char :=
  List.intercalate ['.']
    ([24, 16, 8, 0].map fun shift => Nat.toDigits 10 (address / Nat.pow 2 shift % 256))

/-! ### Hosts of either kind -/

/-- Characters that no host kept as it stands may hold. -/
def isForbidden (c : Char) : Bool :=
  c == '\x00' || c == '\t' || c == '\n' || c == '\r' || c == ' ' || c == '#' || c == '/' ||
    c == ':' || c == '<' || c == '>' || c == '?' || c == '@' || c == '[' || c == '\\' ||
    c == ']' || c == '^' || c == '|'

/-- Characters that no domain name may hold. -/
def isForbiddenInDomain (c : Char) : Bool :=
  isForbidden c || isControl c || c == '%'

/-- An address in brackets. -/
def bracketHost (s : List Char) : Except UrlError Host :=
  if s.getLast? = some ']' then
    match parseIpv6 (s.drop 1).dropLast with
    | some pieces => .ok (.ipv6 pieces)
    | none => .error .badIpv6
  else .error .badIpv6

/-- The host of a URL whose scheme has no rules of its own. -/
def opaqueHost (s : List Char) : Except UrlError Host :=
  if s.head? = some '[' then bracketHost s
  else if s.any isForbidden then .error .badDomainCharacter
  else .ok (.domain (encode isControl s))

/-- The host of a URL whose scheme has its own rules. -/
def domainHost (s : List Char) : Except UrlError Host :=
  if s.head? = some '[' then bracketHost s
  else
    match (decode? s).bind domainToAscii? with
    | none => .error .badDomain
    | some name =>
      if name.isEmpty then .error .emptyHost
      else if name.any isForbiddenInDomain then .error .badDomainCharacter
      else if endsInNumber name then
        match parseIpv4 name with
        | some address => .ok (.ipv4 address)
        | none => .error .badIpv4
      else .ok (.domain name)

/-- A host as it is written in a URL. -/
def Host.render : Host → List Char
  | domain name => name
  | ipv4 address => renderIpv4 address
  | ipv6 pieces => '[' :: renderIpv6 pieces ++ [']']

/-- Whether there is nobody to address. -/
def Host.isEmpty : Host → Bool
  | domain name => name.isEmpty
  | _ => false

end QueueRelay.Url

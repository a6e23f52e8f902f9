/-!
Domain names in ASCII.

A label is brought to lower case, and one that still holds a character outside ASCII is
written in Punycode after `xn--`.  A label that comes with this mark has to stand for one
that needs it.

Outside ASCII this is part of the rules only.  Letters are folded for the Latin, Greek,
Cyrillic, Armenian and full-width ranges; the other mappings, the normal form, and the
characters and directions that are not allowed are left out.  What depends on a host that
may hold such characters takes it as a parameter (`Bus.Credentials.parseWith`).
-/
namespace QueueRelay.Url

/-! ### Punycode -/

/-- The digit for a value below thirty-six. -/
def punycodeDigit (n : Nat) : Char :=
  if n < 26 then Char.ofNat (97 + n) else Char.ofNat (22 + n)

/-- Divides `delta` down until it fits the last digit, counting the steps. -/
def adaptFrom (delta k : Nat) : Nat :=
  if _h : 455 < delta then adaptFrom (delta / 35) (k + 36)
  else k + 36 * delta / (delta + 38)
termination_by delta

/-- The bias for the next number. -/
def adapt (delta count : Nat) (first : Bool) : Nat :=
  let delta := if first then delta / 700 else delta / 2
  adaptFrom (delta + delta / count) 0

/-- The threshold of a digit position. -/
def threshold (k bias : Nat) : Nat :=
  if k ≤ bias then 1 else if bias + 26 ≤ k then 26 else k - bias

/-- One number in digits of varying base. -/
def variableDigits (bias : Nat) : Nat → Nat → Nat → List Char
  | 0, _, _ => []
  | fuel + 1, q, k =>
    let t := threshold k bias
    if q < t then [punycodeDigit q]
    else punycodeDigit (t + (q - t) % (36 - t)) ::
      variableDigits bias fuel ((q - t) / (36 - t)) (k + 36)

/-- Where the encoder stands. -/
structure PunycodeState where
  delta : Nat
  bias : Nat
  handled : Nat
  output : List Char

/-- Writes out the code points equal to `n`, in the order of the label. -/
def punycodePass (n basic : Nat) (label : List Char) (s : PunycodeState) : PunycodeState :=
  label.foldl
    (fun s c =>
      if c.toNat < n then { s with delta := s.delta + 1 }
      else if c.toNat = n then
        { delta := 0
          bias := adapt s.delta (s.handled + 1) (s.handled = basic)
          handled := s.handled + 1
          output := s.output ++ variableDigits s.bias 32 s.delta 36 }
      else s)
    s

/-- A label in Punycode, without the mark in front. -/
def punycode (label : List Char) : List Char :=
  let basic := label.filter (·.toNat < 0x80)
  let others := ((label.map Char.toNat).filter (0x80 ≤ ·)).eraseDups.mergeSort
  let start : PunycodeState :=
    ⟨0, 72, basic.length, if basic.isEmpty then [] else basic ++ ['-']⟩
  let (s, _) := others.foldl
    (fun (s, from') n =>
      let s := { s with delta := s.delta + (n - from') * (s.handled + 1) }
      let s := punycodePass n basic.length label s
      ({ s with delta := s.delta + 1 }, n + 1))
    (start, 0x80)
  s.output

/-- The value of a digit. -/
def punycodeValue? (c : Char) : Option Nat :=
  if '0' ≤ c ∧ c ≤ '9' then some (c.toNat - 22)
  else if 'a' ≤ c ∧ c ≤ 'z' then some (c.toNat - 97)
  else none

/-- Reads one number of varying base: its value and the text after it. -/
def readVariable? (bias : Nat) : List Char → Nat → Nat → Nat → Option (Nat × List Char)
  | [], _, _, _ => none
  | c :: rest, value, weight, k => do
    let digit ← punycodeValue? c
    let value := value + digit * weight
    let t := threshold k bias
    if digit < t then return (value, rest)
    else readVariable? bias rest value (weight * (36 - t)) (k + 36)

/-- Puts in the characters that the numbers in a text stand for, at most `fuel` of them. -/
def insertEncoded? : Nat → List Char → Nat → Nat → Nat → List Char → Option (List Char)
  | _, [], _, _, _, output => some output
  | 0, _, _, _, _, _ => none
  | fuel + 1, text, n, i, bias, output => do
    let (delta, rest) ← readVariable? bias text 0 1 36
    let length := output.length + 1
    let n := n + (i + delta) / length
    let place := (i + delta) % length
    if 0x110000 ≤ n ∨ (0xD800 ≤ n ∧ n < 0xE000) then none
    else
      insertEncoded? fuel rest n (place + 1) (adapt delta length (i = 0))
        (output.take place ++ Char.ofNat n :: output.drop place)

/-- The label that a Punycode text stands for. -/
def punycodeDecode? (text : List Char) : Option (List Char) :=
  let encoded := (text.reverse.takeWhile (· != '-')).reverse
  let basic := (text.take (text.length - encoded.length)).dropLast
  insertEncoded? encoded.length encoded 0x80 0 72 basic

/-! ### Names -/

/-- One letter in lower case, or one full-width character in its plain form. -/
def foldChar (c : Char) : Char :=
  let n := c.toNat
  if 65 ≤ n && n ≤ 90 then Char.ofNat (n + 32)
  else if (0xC0 ≤ n && n ≤ 0xDE && n != 0xD7) || (0x410 ≤ n && n ≤ 0x42F) ||
      (0x391 ≤ n && n ≤ 0x3AB && n != 0x3A2) then Char.ofNat (n + 32)
  else if 0x400 ≤ n && n ≤ 0x40F then Char.ofNat (n + 80)
  else if 0x531 ≤ n && n ≤ 0x556 then Char.ofNat (n + 48)
  else if (0x100 ≤ n && n ≤ 0x137) || (0x14A ≤ n && n ≤ 0x177) || (0x460 ≤ n && n ≤ 0x481) ||
      (0x48A ≤ n && n ≤ 0x4BF) || (0x1E00 ≤ n && n ≤ 0x1E95) then
    if n % 2 = 0 then Char.ofNat (n + 1) else c
  else if (0x139 ≤ n && n ≤ 0x148) || (0x179 ≤ n && n ≤ 0x17E) then
    if n % 2 = 1 then Char.ofNat (n + 1) else c
  else if 0xFF21 ≤ n && n ≤ 0xFF3A then Char.ofNat (n - 0xFF21 + 97)
  else if 0xFF01 ≤ n && n ≤ 0xFF5E then Char.ofNat (n - 0xFEE0)
  else if n == 0x3002 then '.'
  else c

/-- A character outside ASCII that no name may hold. -/
def isBarred (c : Char) : Bool :=
  c.toNat == 0xFFFD || (0x80 ≤ c.toNat && c.toNat ≤ 0xA0)

/-- Whether a text behind the mark `xn--` stands for a label that needs it. -/
def isEncodedLabel (text : List Char) : Bool :=
  match punycodeDecode? text with
  | some label =>
    label.any (0x80 ≤ ·.toNat) && !label.any isBarred && label.map foldChar == label &&
      punycode label == text
  | none => false

/-- One label in ASCII. -/
def labelToAscii? (label : List Char) : Option (List Char) :=
  if label.all (·.toNat < 0x80) then
    match label with
    | 'x' :: 'n' :: '-' :: '-' :: text => if isEncodedLabel text then some label else none
    | _ => some label
  else some (['x', 'n', '-', '-'] ++ punycode label)

/-- The labels of a folded name, each in ASCII. -/
def asciiLabels? : List Char → List Char → Option (List Char)
  | current, [] => labelToAscii? current.reverse
  | current, '.' :: rest => do
    return (← labelToAscii? current.reverse) ++ '.' :: (← asciiLabels? [] rest)
  | current, c :: rest => asciiLabels? (c :: current) rest

/-- A domain name in ASCII; nothing for one that holds what no name may hold. -/
def domainToAscii? (name : List Char) : Option (List Char) :=
  let folded := (name.filter fun c => c.toNat != 0xAD).map foldChar
  if folded.any isBarred then none else asciiLabels? [] folded

end QueueRelay.Url

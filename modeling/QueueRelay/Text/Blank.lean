/-!
Blank characters and trimming.

A character is blank when it has the Unicode property White_Space.  The property has
been closed for years, so its twenty-five members are listed here.
-/
namespace QueueRelay.Text

/-- A character with the Unicode property White_Space. -/
def isBlank (c : Char) : Bool :=
  let n := c.toNat
  (9 ≤ n && n ≤ 13) || n == 0x20 || n == 0x85 || n == 0xA0 || n == 0x1680 ||
    (0x2000 ≤ n && n ≤ 0x200A) || n == 0x2028 || n == 0x2029 || n == 0x202F ||
    n == 0x205F || n == 0x3000

/-- The characters left after the blank ones at either end are taken away. -/
def trimList (s : List Char) : List Char :=
  ((s.dropWhile isBlank).reverse.dropWhile isBlank).reverse

/-- The text without the blank characters at either end. -/
def trim (s : String) : String :=
  String.ofList (trimList s.toList)

/-- A text that is empty or holds only blank characters. -/
def allBlank (s : String) : Bool :=
  s.toList.all isBlank

/-- Lower case on the letters A to Z; every other character is kept. -/
def asciiLower (s : String) : String :=
  String.ofList (s.toList.map Char.toLower)

end QueueRelay.Text

import QueueRelay.Url.Encoding
/-!
Paths.

The path of a URL is kept in its written form.  Reading one takes its segments from left
to right: a segment of one dot is left out, and a segment of two dots also takes the
segment before it away; when such a segment is the last one the path ends in a slash.
-/
namespace QueueRelay.Url

/-- A segment that stands for the place it is at. -/
def isSingleDot (s : List Char) : Bool :=
  s = ['.'] || (s.map Char.toLower) = ['%', '2', 'e']

/-- A segment that stands for the place one up. -/
def isDoubleDot (s : List Char) : Bool :=
  let s := s.map Char.toLower
  s = ['.', '.'] || s = ['%', '2', 'e', '.'] || s = ['.', '%', '2', 'e'] ||
    s = ['%', '2', 'e', '%', '2', 'e']

/-- The segments of a path text, its separators being the characters `isSlash`. -/
def segments (isSlash : Char → Bool) : List Char → List (List Char)
  | [] => [[]]
  | c :: rest =>
    if isSlash c then [] :: segments isSlash rest
    else match segments isSlash rest with
      | [] => [[c]]
      | part :: parts => (c :: part) :: parts

/-- The segments, last one first, after the dotted ones have been resolved. -/
def resolveDots : List (List Char) → List (List Char) → List (List Char)
  | seen, [] => seen
  | seen, [last] =>
    if isDoubleDot last then [] :: seen.drop 1
    else if isSingleDot last then [] :: seen
    else last :: seen
  | seen, part :: rest =>
    if isDoubleDot part then resolveDots (seen.drop 1) rest
    else if isSingleDot part then resolveDots seen rest
    else resolveDots (part :: seen) rest

/-- A path from its segments: each with a slash in front. -/
def renderSegments (parts : List (List Char)) : List Char :=
  parts.flatMap fun part => '/' :: part

/-- The written form of a path text.  The slash in front is not one of its segments. -/
def readPath (isSlash : Char → Bool) (s : List Char) : List Char :=
  let s := match s with
    | c :: rest => if isSlash c then rest else s
    | [] => []
  renderSegments (resolveDots [] ((segments isSlash s).map (encode inPathSet))).reverse

/-- The written path without its last segment; the slash before it stays. -/
def dropLastSegment (path : List Char) : List Char :=
  (path.reverse.dropWhile (· != '/')).reverse

/-- Characters that a URL text may hold anywhere and that mean nothing. -/
def isIgnored (c : Char) : Bool := c == '\t' || c == '\n' || c == '\r'

/-- The written path with one more segment.  A slash at the end of a longer path is not
doubled, and a segment of one or two dots adds nothing. -/
def pushSegment (path : List Char) (segment : String) : List Char :=
  let path := if 1 < path.length && path.getLast? = some '/' then path.dropLast else path
  let segment := segment.toList
  if segment = ['.'] || segment = ['.', '.'] then path
  else
    let path := if path.length = 1 then path else path ++ ['/']
    let part := encode inSegmentSet (segment.filter fun c => !isIgnored c)
    if isDoubleDot part then
      let path := if 1 < path.length then path.dropLast else path
      dropLastSegment path
    else if isSingleDot part then path
    else path ++ part

end QueueRelay.Url

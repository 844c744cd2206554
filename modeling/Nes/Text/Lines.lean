/-!
# Lines

The lines of a text. A line ends with a line feed, and a carriage return right before the line feed is part of the end.
Anywhere else a carriage return is a character like the others.
-/

namespace Nes

namespace Lines

/-- A character in front of the first line. -/
def consFirst (c : Char) : List (List Char) → List (List Char)
  | [] => [[c]]
  | line :: rest => (c :: line) :: rest

/-- The lines of a text. What stands behind the last end of line is a line unless it is empty. -/
def split : List Char → List (List Char)
  | [] => []
  | '\n' :: cs => [] :: split cs
  | '\r' :: '\n' :: cs => [] :: split cs
  | c :: cs => consFirst c (split cs)

end Lines

/-- The lines of a text. -/
def lines (s : String) : List String := (Lines.split s.toList).map String.ofList

end Nes

/-! # Lines

A line ends at a line feed, at a carriage return, or at both in this order.
-/

namespace CodeAtlas.Text

/-- Turns every line end into a line feed. -/
def unifyBreaks : List Char → List Char
  | [] => []
  | '\r' :: '\n' :: rest => '\n' :: unifyBreaks rest
  | '\r' :: rest => '\n' :: unifyBreaks rest
  | c :: rest => c :: unifyBreaks rest

def cutLines : List Char → List (List Char)
  | [] => [[]]
  | c :: rest =>
    if c == '\n' then [] :: cutLines rest
    else
      match cutLines rest with
      | [] => [[c]]
      | line :: lines => (c :: line) :: lines

def lines (s : String) : List String := (cutLines (unifyBreaks s.toList)).map String.ofList

end CodeAtlas.Text

import CodeAtlas.Text.Ranges

/-! # White space

The white space of this library is that of Unicode together with the four information separators.
Trimming removes it at both ends of a text; nothing else is blank, in particular not the
zero-width space and not the byte order mark.
-/

namespace CodeAtlas.Text

def blanks : Ranges := [
  (0x9, 0xd), (0x1c, 0x20), (0x85, 0x85), (0xa0, 0xa0), (0x1680, 0x1680), (0x2000, 0x200a),
  (0x2028, 0x2029), (0x202f, 0x202f), (0x205f, 0x205f), (0x3000, 0x3000)]

def isBlank (c : Char) : Bool := blanks.contains c

def dropWhileEnd (p : Char → Bool) (cs : List Char) : List Char :=
  (cs.reverse.dropWhile p).reverse

/-- The text without the characters of `p` at either end. -/
def trimWhere (p : Char → Bool) (cs : List Char) : List Char :=
  dropWhileEnd p (cs.dropWhile p)

/-- The text without white space at either end. -/
def trim (s : String) : String := .ofList (trimWhere isBlank s.toList)

def allBlank (s : String) : Bool := s.toList.all isBlank

end CodeAtlas.Text

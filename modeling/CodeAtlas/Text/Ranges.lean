/-! # Sets of characters given by ranges

A character class is a list of closed ranges of code points.
-/

namespace CodeAtlas.Text

abbrev Ranges := List (Nat × Nat)

def Ranges.contains (r : Ranges) (c : Char) : Bool :=
  r.any fun (first, last) => first ≤ c.toNat && c.toNat ≤ last

end CodeAtlas.Text

import CodeAtlas.Text.Utf8
import CodeAtlas.Tree.Node

/-! # Places in a source

A source is a list of octets. A node that covers a range of them has their text, and its place is
counted in line breaks and octets.
-/

namespace CodeAtlas

abbrev Source := ByteArray

namespace Source

def slice (s : Source) (start stop : Nat) : String :=
  Text.Utf8.decodeLossy (s.extract start stop).toList

/-- The number of line breaks before an offset. -/
def rowAt (s : Source) (offset : Nat) : Nat := (s.extract 0 offset).toList.count 10

/-- The number of octets between the last line break and an offset. -/
def columnAt (s : Source) (offset : Nat) : Nat :=
  ((s.extract 0 offset).toList.reverse.takeWhile (· != 10)).length

end Source

/-- What is said of a node by its grammar. -/
structure Mark where
  kind : String
  named : Bool
  field : Option String
  missing : Bool

/-- A node over a range of a source, or over nothing. A node is taken to be faulty if it stands
for an error or one of its children is faulty. -/
def Node.over (s : Source) (mark : Mark) (range : Option (Nat × Nat)) (flag : Option Bool)
    (children : List Node) : Node :=
  let faulty := mark.kind == "ERROR" || mark.missing || children.any (·.label.hasError)
  let label : Label := {
    kind := mark.kind
    named := mark.named
    field := mark.field
    text := (range.map fun (a, b) => s.slice a b).getD ""
    row := (range.map fun (a, _) => s.rowAt a).getD 0
    column := (range.map fun (a, _) => s.columnAt a).getD 0
    missing := mark.missing
    hasError := flag.getD faulty }
  .mk label children

end CodeAtlas

import CodeAtlas.Extract.Process
import CodeAtlas.Tree.Source

/-! # From a source to a file result

A source is parsed, and its tree is extracted.
-/

namespace CodeAtlas.Extract

/-- A parser gives every source a tree, with faulty nodes where the source is at fault. -/
abbrev Parser := Source → Node

def parseSource (parser : Parser) (tolerant : Bool) (s : Source) :
    Except ParseFailure ParsedSource :=
  accept tolerant (parser s)

def processSource (parser : Parser) (v : Vocabulary) (tolerant : Bool) (path : String)
    (s : Source) : FileResult String :=
  ofParse (.standard v) path (parseSource parser tolerant s)

def refuseText (path : String) : FileResult String := .failed path Failure.sourceIsText.message

end CodeAtlas.Extract

import CodeAtlas.Data.Json.Printer
import CodeAtlas.Extract.Batch

/-! # Sources and their lines

A run finds its sources by their paths, and a path need not be a text. The line of a result holds
the path as it is, and can be written only if it is a text.
-/

namespace CodeAtlas.Run

open Text (LooseChar LooseText)

structure Stray where
  octets : List UInt8
  content : Source
  illegible : (Text.Utf8.decode? octets).isOk = false

inductive Target where
  | file (path : String)
  | stray (s : Stray)

def Target.path : Target → LooseText
  | .file path => .ofString path
  | .stray s => .ofOctets s.octets

/-- A result as a batch yields it, and its path as it is. Where that is no text, the result holds
what is shown of it. -/
structure Yielded where
  path : LooseText
  result : FileResult String
  path_eq : result.path = path.shown

def quoted (path : LooseText) : LooseText :=
  let escape : LooseChar → LooseText
    | .char c => (Json.escape false c).map .char
    | .octet b => [.octet b]
  .char '"' :: (path.flatMap escape ++ [.char '"'])

namespace Yielded

def ofResult (r : FileResult String) : Yielded := ⟨.ofString r.path, r, by simp⟩

/-- The text of a field of a result, in which the path stands as it is. -/
def entry (x : Yielded) (f : String × Value) : LooseText :=
  .ofString (Json.string false f.1 ++ ": ") ++
    if f.1 = "file" then quoted x.path else .ofString (Json.render .line 1 f.2)

def line (x : Yielded) : LooseText :=
  .ofString "\x7b" ++
    ((LooseText.ofString ", ").intercalate (x.result.toFields.map x.entry) ++ .ofString "\x7d")

def written (x : Yielded) : Result String := x.line.encode.mapError .notEncodable

end Yielded

def Target.yielded (parser : Extract.Parser) (fs : Files) (v : Vocabulary) (tolerant : Bool) :
    Target → Yielded
  | .file path =>
    .ofResult (Batch.resultOf fs (fun p => .ok (Extract.processFile parser fs v tolerant p)) path)
  | .stray s =>
    let path := LooseText.ofOctets s.octets
    ⟨path, Extract.processSource parser v tolerant path.shown s.content, Extract.path_ofParse ..⟩

end CodeAtlas.Run

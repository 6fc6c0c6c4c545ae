import CodeAtlas.Text.Utf8

/-! # Texts with octets that are no characters

The name of a file is a sequence of octets. Where they are not UTF-8, the octets that belong to no
character stay in the text as they are, and the text cannot be written as UTF-8.
-/

namespace CodeAtlas.Text

inductive LooseChar where
  | char (c : Char)
  | octet (b : UInt8)
  deriving DecidableEq, Repr

abbrev LooseText := List LooseChar

/-- The surrogate that stands for an octet. -/
def surrogate (b : UInt8) : Nat := 0xdc00 + b.toNat

namespace LooseChar

def code : LooseChar → Nat
  | char c => c.toNat
  | octet b => surrogate b

def shown : LooseChar → Char
  | char c => c
  | octet _ => Utf8.replacement

end LooseChar

/-- The first octets in a text: how many characters stand before them, and the octets. -/
structure Unencodable where
  place : Nat
  octets : List UInt8
  deriving DecidableEq, Repr

def Unencodable.message (u : Unencodable) : String :=
  match u.octets with
  | [b] =>
    let escape : String := .ofList (hexDigits 4 (surrogate b))
    s!"'utf-8' codec can't encode character '\\u{escape}' in position {u.place}: " ++
      "surrogates not allowed"
  | bs =>
    s!"'utf-8' codec can't encode characters in position {u.place}-" ++
      s!"{u.place + bs.length - 1}: surrogates not allowed"

namespace LooseText

def ofString (s : String) : LooseText := s.toList.map .char

/-- The text of octets: those of an ill-formed subsequence stand for themselves. -/
def ofOctets : List UInt8 → LooseText
  | [] => []
  | b :: rest =>
    match _h : Utf8.step b rest with
    | .char c r => .char c :: ofOctets r
    | .fault _ taken r => taken.map .octet ++ ofOctets r
termination_by l => l.length
decreasing_by
  all_goals
    have := Utf8.step_length b rest
    rw [_h] at this
    simpa [Utf8.Step.remaining, Nat.lt_succ_iff] using this

/-- The order of texts by the codes of what they are made of. -/
def precedes : LooseText → LooseText → Bool
  | [], _ => true
  | _ :: _, [] => false
  | c :: t, c' :: t' => c.code < c'.code || c.code = c'.code && precedes t t'

/-- The text with a replacement character in the place of each octet. -/
def shown (t : LooseText) : String := .ofList (t.map (·.shown))

@[simp] theorem shown_ofString (s : String) : (ofString s).shown = s := by
  rw [shown, ofString, List.map_map]
  exact (congrArg String.ofList (List.map_id _)).trans String.ofList_toList

def leadingOctets : LooseText → List UInt8
  | .octet b :: t => b :: leadingOctets t
  | _ => []

/-- The characters of a text that starts at `place`, if it is made of nothing else. -/
def chars? (place : Nat) : LooseText → Except Unencodable (List Char)
  | [] => .ok []
  | .char c :: t => do
    let cs ← chars? (place + 1) t
    return c :: cs
  | .octet b :: t => .error ⟨place, b :: leadingOctets t⟩

def encode (t : LooseText) : Except Unencodable String := (chars? 0 t).map String.ofList

end LooseText

end CodeAtlas.Text

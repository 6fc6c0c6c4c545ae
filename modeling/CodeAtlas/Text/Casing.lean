import CodeAtlas.Text.CasingTable

/-! # Lower-casing

Full lower-casing of a text. All characters but one have an image of their own; a capital sigma
becomes the final form at the end of a word, so the image of a text is not determined by the
images of its characters.
-/

namespace CodeAtlas.Text

def simpleLower (c : Char) : Char :=
  if c.toNat < 0x80 then c.toLower
  else
    match lowerRuns.find? fun (first, last, step, _) =>
      first ≤ c.toNat && c.toNat ≤ last && (c.toNat - first) % step == 0 with
    | some (_, _, _, shift) => .ofNat (c.toNat + shift).toNat
    | none => c

def lowerChar (c : Char) : List Char :=
  if c == '\u0130' then ['i', '\u0307'] else [simpleLower c]

/-- A cased letter comes next, looking through ignorable characters. -/
def casedAhead (cs : List Char) : Bool :=
  match cs.dropWhile caseIgnorable.contains with
  | [] => false
  | c :: _ => cased.contains c

/-- Lower-cases a text that continues the reversed text `before`. -/
def lowerFrom (before : List Char) : List Char → List Char
  | [] => []
  | c :: rest =>
    let image :=
      if c == 'Σ' then
        if casedAhead before && !casedAhead rest then ['ς'] else ['σ']
      else lowerChar c
    image ++ lowerFrom (c :: before) rest

def lower (s : String) : String := .ofList (lowerFrom [] s.toList)

end CodeAtlas.Text

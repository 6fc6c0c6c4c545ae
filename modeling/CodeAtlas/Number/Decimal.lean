import CodeAtlas.Number.Binary64
import CodeAtlas.Text.Digits

/-! # Decimal numerals

Reading the text of a number with an optional fraction and an optional exponent. The words for
infinity and for no number are numerals too, in letters of any case.
-/

namespace CodeAtlas.Binary64

def digitsAhead : List Char → List Nat × List Char
  | [] => ([], [])
  | c :: rest =>
    match Text.digitValue? c with
    | some d =>
      let (ds, r) := digitsAhead rest
      (d :: ds, r)
    | none => ([], c :: rest)

/-- The exponent that is the whole of a text; an empty text has exponent zero. -/
def exponent? : List Char → Option Int
  | [] => some 0
  | e :: rest =>
    if e == 'e' || e == 'E' then
      let (negative, rest) := match rest with
        | '-' :: rest => (true, rest)
        | '+' :: rest => (false, rest)
        | rest => (false, rest)
      match digitsAhead rest with
      | ([], _) => none
      | (ds, []) =>
        let n : Int := Text.ofDigits 10 ds
        some (if negative then -n else n)
      | _ => none
    else none

/-- Reads a numeral without a sign. -/
def ofUnsigned? (negative : Bool) (cs : List Char) : Option Binary64 :=
  let word := String.ofList (cs.map Char.toLower)
  if word = "inf" || word = "infinity" then some (infinity negative)
  else if word = "nan" then some nan
  else
    let (whole, rest) := digitsAhead cs
    let (places, rest) := match rest with
      | '.' :: rest => digitsAhead rest
      | rest => ([], rest)
    if whole.isEmpty && places.isEmpty then none
    else
      (exponent? rest).map fun e =>
        ofDecimal negative (Text.ofDigits 10 (whole ++ places)) (e - places.length)

/-- Reads a numeral, with white space around it. -/
def ofText? (s : String) : Option Binary64 :=
  match Text.trimWhere Text.isNumeralBlank s.toList with
  | '-' :: rest => ofUnsigned? true rest
  | '+' :: rest => ofUnsigned? false rest
  | rest => ofUnsigned? false rest

end CodeAtlas.Binary64

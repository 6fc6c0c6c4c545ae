/-! # Octets as text

Octets written with sixty-four characters, four for every three octets. Other characters are passed
over.
-/

namespace CodeAtlas.Text.Base64

def value? (c : Char) : Option Nat :=
  if 'A' ≤ c && c ≤ 'Z' then some (c.toNat - 'A'.toNat)
  else if 'a' ≤ c && c ≤ 'z' then some (c.toNat - 'a'.toNat + 26)
  else if c.isDigit then some (c.toNat - '0'.toNat + 52)
  else if c == '+' then some 62
  else if c == '/' then some 63
  else none

/-- Decodes a text; `place` characters of a group of four have been read, with the bits `left`
over, and `pads` marks of an incomplete group since then. -/
def decodeFrom (place left pads : Nat) : List Char → Option (List UInt8)
  | [] => if place = 0 then some [] else none
  | c :: rest =>
    if c == '=' then
      if 2 ≤ place && 4 ≤ place + pads + 1 then some []
      else decodeFrom place left (if 2 ≤ place then pads + 1 else pads) rest
    else
      match value? c with
      | none => decodeFrom place left pads rest
      | some v =>
        match place with
        | 0 => decodeFrom 1 v 0 rest
        | 1 => (decodeFrom 2 (v % 16) 0 rest).map (.ofNat (left * 4 + v / 16) :: ·)
        | 2 => (decodeFrom 3 (v % 4) 0 rest).map (.ofNat (left * 16 + v / 4) :: ·)
        | _ => (decodeFrom 0 0 0 rest).map (.ofNat (left * 64 + v) :: ·)

/-- Decodes a text, unless its last group is incomplete. -/
def decode? (cs : List Char) : Option (List UInt8) := decodeFrom 0 0 0 cs

end CodeAtlas.Text.Base64

/-! # The SHA-1 digest

The 160-bit digest of a list of octets, written as forty hexadecimal digits.
-/

namespace CodeAtlas.Digest

/-- The five words of the running digest. -/
structure Sha1 where
  a : UInt32
  b : UInt32
  c : UInt32
  d : UInt32
  e : UInt32
  deriving DecidableEq

namespace Sha1

def start : Sha1 := ⟨0x67452301, 0xefcdab89, 0x98badcfe, 0x10325476, 0xc3d2e1f0⟩

def rotate (n : UInt32) (x : UInt32) : UInt32 := (x <<< n) ||| (x >>> (32 - n))

/-- The message with a one bit, zeros and its length in bits, a multiple of 64 octets long. -/
def pad (message : List UInt8) : List UInt8 :=
  let bits := 8 * message.length
  let zeros := (119 - message.length % 64) % 64
  message ++ 0x80 :: List.replicate zeros 0 ++
    (List.range 8).reverse.map fun i => UInt8.ofNat (bits / Nat.pow 256 i)

/-- Groups octets by four into words, the most significant first. -/
def words : List UInt8 → List UInt32
  | a :: b :: c :: d :: rest =>
    (a.toUInt32 <<< 24 ||| b.toUInt32 <<< 16 ||| c.toUInt32 <<< 8 ||| d.toUInt32) :: words rest
  | _ => []

def extend (ws : List UInt32) : List UInt32 :=
  rotate 1 (ws.getD 2 0 ^^^ ws.getD 7 0 ^^^ ws.getD 13 0 ^^^ ws.getD 15 0) :: ws

/-- The eighty words that a block of sixteen contributes. -/
def schedule (block : List UInt32) : List UInt32 :=
  (Nat.repeat extend 64 block.reverse).reverse

def mix (t : Nat) (b c d : UInt32) : UInt32 × UInt32 :=
  if t < 20 then ((b &&& c) ||| (~~~b &&& d), 0x5a827999)
  else if t < 40 then (b ^^^ c ^^^ d, 0x6ed9eba1)
  else if t < 60 then ((b &&& c) ||| (b &&& d) ||| (c &&& d), 0x8f1bbcdc)
  else (b ^^^ c ^^^ d, 0xca62c1d6)

def round (s : Sha1) (t : Nat) (w : UInt32) : Sha1 :=
  let (f, k) := mix t s.b s.c s.d
  ⟨rotate 5 s.a + f + s.e + k + w, s.a, rotate 30 s.b, s.c, s.d⟩

def absorb (s : Sha1) (block : List UInt32) : Sha1 :=
  let r := (schedule block).zipIdx.foldl (fun s (w, t) => round s t w) s
  ⟨s.a + r.a, s.b + r.b, s.c + r.c, s.d + r.d, s.e + r.e⟩

/-- Takes in words, sixteen at a time; `blocks` of them. -/
def absorbAll : (blocks : Nat) → Sha1 → List UInt32 → Sha1
  | 0, s, _ => s
  | n + 1, s, ws => absorbAll n (s.absorb (ws.take 16)) (ws.drop 16)

def ofBytes (message : List UInt8) : Sha1 :=
  let ws := words (pad message)
  absorbAll (ws.length / 16) start ws

/-- The digest as forty hexadecimal digits. -/
def hex (s : Sha1) : List Char :=
  [s.a, s.b, s.c, s.d, s.e].flatMap fun w =>
    (List.range 8).reverse.map fun i => Nat.digitChar (w.toNat / Nat.pow 16 i % 16)

end Sha1

end CodeAtlas.Digest

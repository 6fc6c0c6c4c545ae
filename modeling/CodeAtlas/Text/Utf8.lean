import CodeAtlas.Text.Quoted

/-! # UTF-8

Reading octets as UTF-8 text. `decodeLossy` puts the replacement character in the place of every
maximal ill-formed subsequence; `decode?` reports the first one instead.
-/

namespace CodeAtlas.Text.Utf8

def replacement : Char := '\ufffd'

/-- Why a sequence is ill-formed. -/
inductive Fault where
  /-- An octet that opens no character. -/
  | invalidStart
  /-- An octet that does not continue the character that was opened. -/
  | invalidContinuation
  /-- The text ends inside a character. -/
  | unexpectedEnd
  deriving DecidableEq, Repr

/-- One reading step: a character, or a fault together with its octets. -/
inductive Step where
  | char (c : Char) (rest : List UInt8)
  | fault (why : Fault) (taken : List UInt8) (rest : List UInt8)

def Step.remaining : Step → List UInt8
  | .char _ rest => rest
  | .fault _ _ rest => rest

/-- What the first octet of a character demands: the number of octets that follow, the payload
bits of the first, and the range of the second. -/
def lead? (b : UInt8) : Option (Nat × Nat × UInt8 × UInt8) :=
  if 0xc2 ≤ b && b ≤ 0xdf then some (1, b.toNat - 0xc0, 0x80, 0xbf)
  else if b == 0xe0 then some (2, 0, 0xa0, 0xbf)
  else if b == 0xed then some (2, 0xd, 0x80, 0x9f)
  else if 0xe1 ≤ b && b ≤ 0xef then some (2, b.toNat - 0xe0, 0x80, 0xbf)
  else if b == 0xf0 then some (3, 0, 0x90, 0xbf)
  else if b == 0xf4 then some (3, 4, 0x80, 0x8f)
  else if 0xf1 ≤ b && b ≤ 0xf3 then some (3, b.toNat - 0xf0, 0x80, 0xbf)
  else none

/-- Takes `n` continuation octets, the first of them between `lo` and `hi`. -/
def continuation : (n : Nat) → (lo hi : UInt8) → (code : Nat) → (taken rest : List UInt8) → Step
  | 0, _, _, code, _, rest => .char (.ofNat code) rest
  | _ + 1, _, _, _, taken, [] => .fault .unexpectedEnd taken []
  | n + 1, lo, hi, code, taken, b :: rest =>
    if lo ≤ b && b ≤ hi then
      continuation n 0x80 0xbf (code * 64 + (b.toNat - 0x80)) (taken ++ [b]) rest
    else .fault .invalidContinuation taken (b :: rest)

def step (b : UInt8) (rest : List UInt8) : Step :=
  if b < 0x80 then .char (.ofNat b.toNat) rest
  else
    match lead? b with
    | none => .fault .invalidStart [b] rest
    | some (n, bits, lo, hi) => continuation n lo hi bits [b] rest

theorem continuation_length (n : Nat) (lo hi : UInt8) (code : Nat) (taken l : List UInt8) :
    (continuation n lo hi code taken l).remaining.length ≤ l.length := by
  induction n, lo, hi, code, taken, l using continuation.induct with
  | case1 => simp [continuation, Step.remaining]
  | case2 => simp [continuation, Step.remaining]
  | case3 n lo hi code taken b rest h ih =>
    simp only [continuation, h, if_true, List.length_cons]; omega
  | case4 n lo hi code taken b rest h => simp [continuation, h, Step.remaining]

/-- What is left after a step is no longer than what followed the first octet. -/
theorem step_length (b : UInt8) (l : List UInt8) : (step b l).remaining.length ≤ l.length := by
  unfold step
  split
  · simp [Step.remaining]
  · split
    · simp [Step.remaining]
    · exact continuation_length ..

/-- Reads octets as text that starts at an offset: the characters, a replacement character for each
ill-formed subsequence, each with the offset of its first octet. -/
def decodeAt (offset : Nat) : List UInt8 → List (Char × Nat)
  | [] => []
  | b :: rest =>
    match _h : step b rest with
    | .char c r => (c, offset) :: decodeAt (offset + c.utf8Size) r
    | .fault _ taken r => (replacement, offset) :: decodeAt (offset + taken.length) r
termination_by l => l.length
decreasing_by
  all_goals
    have := step_length b rest
    rw [_h] at this
    simpa [Step.remaining, Nat.lt_succ_iff] using this

def decodeLossyChars (bytes : List UInt8) : List Char := (decodeAt 0 bytes).map (·.1)

/-- Octets that are not text: where the first fault lies, its octets and its cause. -/
structure Malformed where
  position : Nat
  octets : List UInt8
  why : Fault
  deriving DecidableEq, Repr

/-- Reads octets as text that starts at `position`. -/
def decodeChars? (position : Nat) : List UInt8 → Except Malformed (List Char)
  | [] => .ok []
  | b :: rest =>
    match _h : step b rest with
    | .char c r => do
      let cs ← decodeChars? (position + c.utf8Size) r
      return c :: cs
    | .fault why taken _ => .error ⟨position, taken, why⟩
termination_by l => l.length
decreasing_by
  have := step_length b rest
  rw [_h] at this
  simpa [Step.remaining, Nat.lt_succ_iff] using this

/-- The text of the octets, with replacement characters where they are ill-formed. -/
def decodeLossy (bytes : List UInt8) : String := .ofList (decodeLossyChars bytes)

/-- The text of the octets, if they are well-formed. -/
def decode? (bytes : List UInt8) : Except Malformed String :=
  (decodeChars? 0 bytes).map String.ofList

def hexOctet (b : UInt8) : String := .ofList (hexDigits 2 b.toNat)

/-- The place that a message gives. What the octets break off in is looked at by itself, once there
is nothing more to come; its place is counted from its own start. -/
def Malformed.shownPosition (m : Malformed) : Nat :=
  if m.why = .unexpectedEnd then 0 else m.position

def Malformed.message (m : Malformed) : String :=
  let what := match m.why with
    | .invalidStart => "invalid start byte"
    | .invalidContinuation => "invalid continuation byte"
    | .unexpectedEnd => "unexpected end of data"
  match m.octets with
  | [b] =>
    s!"'utf-8' codec can't decode byte 0x{hexOctet b} in position {m.shownPosition}: {what}"
  | bs =>
    s!"'utf-8' codec can't decode bytes in position {m.shownPosition}-" ++
      s!"{m.shownPosition + bs.length - 1}: {what}"

end CodeAtlas.Text.Utf8

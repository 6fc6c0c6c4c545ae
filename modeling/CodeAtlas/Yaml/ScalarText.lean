import CodeAtlas.Data.Json.Reader
import CodeAtlas.Yaml.Cursor

/-! # The text of scalars

A scalar is written plainly, between quotes, or as a block of lines. Line ends inside it are
folded: one becomes a space, and of several the first one is dropped.
-/

namespace CodeAtlas.Yaml

/-- Folds a line end and the line ends after it. -/
def fold (first : Char) (others : List Char) : List Char :=
  (if first != '\n' then [first] else if others.isEmpty then [' '] else []) ++ others

/-- A character that ends the word of a plain scalar, where `following` comes after it. -/
def endsWord (inFlow : Bool) (c following : Char) : Bool :=
  isSpaceOrEnd c ||
    (c == ':' && (isSpaceOrEnd following || (inFlow && ",[]\x7b\x7d".toList.contains following))) ||
    (inFlow && ",?[]\x7b\x7d".toList.contains c)

def wordLength (inFlow : Bool) : List Char → Nat
  | [] => 0
  | c :: rest => if endsWord inFlow c (rest.headD '\x00') then 0 else wordLength inFlow rest + 1

/-- Line ends between the words of a plain scalar, with spaces among them; nothing if a document
ends there. -/
def plainBreaks : (fuel : Nat) → Cursor → Option (List Char) × Cursor
  | 0, c => (some [], c)
  | fuel + 1, c =>
    let c := c.dropWhile (· == ' ')
    match c.lineBreak? with
    | none => (some [], c)
    | some (b, c) =>
      if c.atDocumentMarker then (none, c)
      else
        let (bs, c) := plainBreaks fuel c
        (bs.map (b :: ·), c)

/-- What separates the words of a plain scalar, whether a line ends there, and the place after it.
There is no separator at the end of the scalar. -/
def plainSpaces (c : Cursor) : List Char × Bool × Cursor :=
  let (spaces, c) := c.span (· == ' ')
  match c.lineBreak? with
  | none => (spaces, false, c)
  | some (b, c) =>
    if c.atDocumentMarker then ([], true, c)
    else
      match plainBreaks c.rest.length c with
      | (none, c) => ([], true, c)
      | (some bs, c) => (fold b bs, true, c)

/-- Reads the words of a plain scalar after the separator `spaces`: its text, whether a line ends
after it, and the place after it. -/
def plainWords (inFlow : Bool) (indent : Int) :
    (fuel : Nat) → (spaces : List Char) → (crossed : Bool) → Cursor → List Char × Bool × Cursor
  | 0, _, crossed, c => ([], crossed, c)
  | fuel + 1, spaces, crossed, c =>
    let n := if c.next == '#' then 0 else wordLength inFlow c.rest
    if n = 0 then ([], crossed, c)
    else
      let word := c.rest.take n
      let (gap, crossed, c) := plainSpaces (c.skip n)
      if gap.isEmpty || c.next == '#' || (!inFlow && (c.column : Int) < indent) then
        (spaces ++ word, crossed, c)
      else
        let (more, crossed, c) := plainWords inFlow indent fuel gap crossed c
        (spaces ++ word ++ more, crossed, c)

def plainScalar (inFlow : Bool) (indent : Int) (c : Cursor) : List Char × Bool × Cursor :=
  plainWords inFlow indent (c.rest.length + 1) [] false c

def escaped? (c : Char) : Option Char :=
  match c with
  | '0' => some '\x00'
  | 'a' => some '\x07'
  | 'b' => some '\x08'
  | 't' => some '\t'
  | '\t' => some '\t'
  | 'n' => some '\n'
  | 'v' => some '\x0b'
  | 'f' => some '\x0c'
  | 'r' => some '\x0d'
  | 'e' => some '\x1b'
  | ' ' => some ' '
  | '"' => some '"'
  | '\\' => some '\\'
  | '/' => some '/'
  | 'N' => some '\x85'
  | '_' => some '\xa0'
  | 'L' => some '\u2028'
  | 'P' => some '\u2029'
  | _ => none

/-- The number of hexadecimal digits after an escape. -/
def escapeWidth? (c : Char) : Option Nat :=
  match c with
  | 'x' => some 2
  | 'u' => some 4
  | 'U' => some 8
  | _ => none

def charOfCode (n : Nat) : Except Fault Char :=
  if n < 0x110000 then .ok (Json.unitChar n)
  else if n < 0x80000000 then .error (.unusable (.unusable "chr() arg not in range(0x110000)"))
  else .error (.unusable (.beyondRange "signed integer is greater than maximum"))

def hexCode (width : Nat) (c : Cursor) : Except Fault (Nat × Cursor) :=
  match (c.rest.take width).mapM Json.hexValue? with
  | some digits =>
    if digits.length < width then .error (.malformed "expected more hexadecimal digits")
    else .ok (Text.ofDigits 16 digits, c.skip width)
  | none => .error (.malformed "expected a hexadecimal digit")

def lowAhead? (c : Cursor) : Option (Nat × Cursor) :=
  if c.next == '\\' && c.peek 1 == 'u' then
    match hexCode 4 (c.skip 2) with
    | .ok (n, c) => if Json.isLow n then some (n, c) else none
    | .error _ => none
  else none

/-- Reads hexadecimal digits as the code of a character. Two surrogates that follow one another are
one character. -/
def hexChar (width : Nat) (c : Cursor) : Except Fault (Char × Cursor) := do
  let (n, c) ← hexCode width c
  match if Json.isHigh n then lowAhead? c else none with
  | some (low, c) => return (Json.pairChar n low, c)
  | none => return (← charOfCode n, c)

/-- Line ends inside a quoted scalar, with white space among them. -/
def quotedBreaks : (fuel : Nat) → Cursor → Except Fault (List Char × Cursor)
  | 0, c => .ok ([], c)
  | fuel + 1, c => do
    if c.atDocumentMarker then throw (.malformed "found a document marker inside a scalar")
    let c := c.dropWhile fun x => x == ' ' || x == '\t'
    match c.lineBreak? with
    | none => return ([], c)
    | some (b, c) =>
      let (bs, c) ← quotedBreaks fuel c
      return (b :: bs, c)

def quotedSpaces (c : Cursor) : Except Fault (List Char × Cursor) := do
  let (spaces, c) := c.span fun x => x == ' ' || x == '\t'
  if isEnd c.next then throw (.malformed "the text ends inside a scalar")
  match c.lineBreak? with
  | none => return (spaces, c)
  | some (b, c) =>
    let (bs, c) ← quotedBreaks (c.rest.length + 1) c
    return (fold b bs, c)

def escape (c : Cursor) : Except Fault (List Char × Cursor) :=
  match escaped? c.next, escapeWidth? c.next, c.lineBreak? with
  | some x, _, _ => .ok ([x], c.advance)
  | none, some width, _ => do
    let (x, c) ← hexChar width c.advance
    return ([x], c)
  | none, none, some (_, c) => quotedBreaks (c.rest.length + 1) c
  | none, none, none => .error (.malformed "found an unknown escape")

def quotedRest (double : Bool) : (fuel : Nat) → Cursor → Except Fault (List Char × Cursor)
  | 0, _ => .error (.malformed "the text ends inside a scalar")
  | fuel + 1, c => do
    let here := c.next
    if isSpaceOrEnd here then
      let (cs, c) ← quotedSpaces c
      let (more, c) ← quotedRest double fuel c
      return (cs ++ more, c)
    else if double && here == '\\' then
      let (cs, c) ← escape c.advance
      let (more, c) ← quotedRest double fuel c
      return (cs ++ more, c)
    else if !double && here == '\'' && c.peek 1 == '\'' then
      let (more, c) ← quotedRest double fuel (c.skip 2)
      return ('\'' :: more, c)
    else if here == (if double then '"' else '\'') then return ([], c.advance)
    else
      let (more, c) ← quotedRest double fuel c.advance
      return (here :: more, c)

def quotedScalar (c : Cursor) : Except Fault (List Char × Cursor) :=
  quotedRest (c.next == '"') (c.rest.length + 1) c.advance

/-- What becomes of the line ends at the end of a block. -/
inductive Chomping where
  | strip
  | clip
  | keep
  deriving DecidableEq, Repr

def chomping? (c : Cursor) : Option (Chomping × Cursor) :=
  if c.next == '+' then some (.keep, c.advance)
  else if c.next == '-' then some (.strip, c.advance)
  else none

def increment? (c : Cursor) : Except Fault (Option Nat × Cursor) :=
  if c.next == '0' then .error (.malformed "expected an indentation from 1 to 9")
  else if c.next.isDigit then .ok (some (c.next.toNat - '0'.toNat), c.advance)
  else .ok (none, c)

def blockHeader (c : Cursor) : Except Fault (Chomping × Option Nat × Cursor) := do
  let (chomping, increment, c) ←
    match chomping? c with
    | some (chomping, c) =>
      let (increment, c) ← increment? c
      pure (chomping, increment, c)
    | none =>
      match ← increment? c with
      | (some n, c) =>
        match chomping? c with
        | some (chomping, c) => pure (chomping, some n, c)
        | none => pure (Chomping.clip, some n, c)
      | (none, c) => pure (Chomping.clip, none, c)
  if isGap c.next then return (chomping, increment, ← c.skipRemark)
  else throw (.malformed "expected chomping or indentation indicators")

/-- Line ends before the first line of a block, and the deepest indentation among them. -/
def leadingBreaks : (fuel : Nat) → (deepest : Nat) → Cursor → List Char × Nat × Cursor
  | 0, deepest, c => ([], deepest, c)
  | fuel + 1, deepest, c =>
    if c.next == ' ' then leadingBreaks fuel (max deepest (c.column + 1)) c.advance
    else
      match c.lineBreak? with
      | none => ([], deepest, c)
      | some (b, c) =>
        let (bs, deepest, c) := leadingBreaks fuel deepest c
        (b :: bs, deepest, c)

def skipIndent (indent : Nat) (c : Cursor) : Cursor :=
  c.skip (min (indent - c.column) (c.rest.takeWhile (· == ' ')).length)

/-- Line ends between the lines of a block. -/
def blockBreaks (indent : Nat) : (fuel : Nat) → Cursor → List Char × Cursor
  | 0, c => ([], c)
  | fuel + 1, c =>
    let c := skipIndent indent c
    match c.lineBreak? with
    | none => ([], c)
    | some (b, c) =>
      let (bs, c) := blockBreaks indent fuel c
      (b :: bs, c)

/-- Reads the lines of a block after the line ends `breaks`: their text, the line end after the
last of them, the line ends after that, and the place after them. -/
def blockLines (folded : Bool) (indent : Nat) :
    (fuel : Nat) → (breaks : List Char) → Cursor → List Char × List Char × List Char × Cursor
  | 0, breaks, c => ([], [], breaks, c)
  | fuel + 1, breaks, c =>
    let flush := c.next != ' ' && c.next != '\t'
    let (line, c) := c.span (!isLineEnd ·)
    let (lineEnd, c) : List Char × Cursor :=
      match c.lineBreak? with
      | some (b, c) => ([b], c)
      | none => ([], c)
    let (after, c) := blockBreaks indent (c.rest.length + 1) c
    if c.column = indent && !isEnd c.next then
      let glue :=
        if folded && lineEnd == ['\n'] && flush && c.next != ' ' && c.next != '\t' then
          if after.isEmpty then [' '] else []
        else lineEnd
      let (more, last, tail, c) := blockLines folded indent fuel after c
      (breaks ++ line ++ glue ++ more, last, tail, c)
    else (breaks ++ line, lineEnd, after, c)

/-- Reads a block scalar inside a block with an indentation, which is below zero at the top. -/
def blockScalar (parent : Int) (c : Cursor) : Except Fault (List Char × Cursor) := do
  let folded := c.next == '>'
  let (chomping, increment, c) ← blockHeader c.advance
  let least := max (parent + 1).toNat 1
  let (breaks, indent, c) :=
    match increment with
    | some n =>
      let indent := least + n - 1
      let (breaks, c) := blockBreaks indent (c.rest.length + 1) c
      (breaks, indent, c)
    | none =>
      let (breaks, deepest, c) := leadingBreaks (c.rest.length + 1) 0 c
      (breaks, max least deepest, c)
  let (text, last, tail, c) :=
    if c.column = indent && !isEnd c.next then
      blockLines folded indent (c.rest.length + 1) breaks c
    else ([], [], breaks, c)
  return (text ++ (if chomping = .strip then [] else last) ++
    (if chomping = .keep then tail else []), c)

end CodeAtlas.Yaml

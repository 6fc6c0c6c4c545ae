import CodeAtlas.Yaml.ScalarText

/-! # Tokens of YAML

The marks and texts of which a YAML text consists. Where blocks start and end is part of the
tokens: it follows from the indentation. A key without a mark of its own is recognised by the
colon after it, and its mark is put before it then.
-/

namespace CodeAtlas.Yaml

inductive Token where
  /-- The version that a document is written in: the number before the point. -/
  | versionDirective (major : Nat)
  | tagDirective (handle lead : String)
  | otherDirective
  | documentStart
  | documentEnd
  | sequenceOpen
  | sequenceClose
  | mappingOpen
  | mappingClose
  | blockSequence
  | blockMapping
  | blockEnd
  | comma
  | dash
  | key
  | value
  | alias (name : String)
  | anchor (name : String)
  /-- A tag; without a handle it is written out, or left open. -/
  | tag (handle : Option String) (suffix : String)
  | scalar (text : String) (plain : Bool)
  | streamEnd
  deriving DecidableEq, Repr

structure KeyPlace where
  /-- The number of tokens before it. -/
  number : Nat
  /-- Nothing but a key can stand there. -/
  required : Bool
  index : Nat
  line : Nat
  column : Nat
  deriving DecidableEq, Repr

/-- The tokens read so far, and what decides about the next one. -/
structure Lexer where
  cursor : Cursor
  tokens : Array Token
  /-- How many brackets and braces are open. -/
  flow : Nat
  /-- The column of the innermost block. -/
  indent : Int
  /-- The columns of the blocks around it. -/
  outer : List Int
  /-- A key without a mark may start here. -/
  keyAllowed : Bool
  /-- Places where a key may have started, by the number of open brackets. -/
  places : List (Nat × KeyPlace)
  done : Bool
  deriving DecidableEq, Inhabited

namespace Lexer

abbrev Step := Lexer → Except Fault Lexer

def missingColon : Fault := .malformed "could not find expected ':'"

def start (cs : List Char) : Lexer := ⟨.ofChars cs, #[], 0, -1, [], true, [], false⟩

def push (l : Lexer) (t : Token) : Lexer := { l with tokens := l.tokens.push t }

def pushBefore (l : Lexer) (n : Nat) (t : Token) : Lexer :=
  { l with tokens := l.tokens.insertIdxIfInBounds n t }

def skip (l : Lexer) (n : Nat) : Lexer := { l with cursor := l.cursor.skip n }

/-- The place where a key may have started between the open brackets. -/
def place? (l : Lexer) : Option KeyPlace := (l.places.find? (·.1 = l.flow)).map (·.2)

/-- Forgets the place where a key may have started, unless it must be one. -/
def dropPlace : Step := fun l =>
  match l.place? with
  | some p =>
    if p.required then .error missingColon
    else .ok { l with places := l.places.filter (·.1 ≠ l.flow) }
  | none => .ok l

/-- Remembers that a key may start here. -/
def savePlace : Step := fun l =>
  if l.keyAllowed then do
    let l ← dropPlace l
    let c := l.cursor
    let p : KeyPlace :=
      ⟨l.tokens.size, l.flow = 0 && l.indent = c.column, c.index, c.line, c.column⟩
    return { l with places := (l.flow, p) :: l.places }
  else .ok l

/-- A key has to lie on one line and within so many characters. -/
def keyLimit : Nat := 1024

/-- Forgets the places that the cursor has left too far behind. -/
def dropStale : Step := fun l =>
  let c := l.cursor
  let stale (p : KeyPlace) : Bool := p.line ≠ c.line || keyLimit < c.index - p.index
  if l.places.any fun p => stale p.2 && p.2.required then .error missingColon
  else .ok { l with places := l.places.filter fun p => !stale p.2 }

/-- Ends the blocks that lie to the right of a column, which are no more than `outer`. -/
def unwindFrom (column : Int) : (outer : List Int) → Lexer → Lexer
  | [], l => l
  | i :: rest, l =>
    if column < l.indent then
      unwindFrom column rest { l.push .blockEnd with indent := i, outer := rest }
    else l

/-- Ends the blocks that lie to the right of a column. -/
def unwind (column : Int) (l : Lexer) : Lexer :=
  if l.flow = 0 then unwindFrom column l.outer l else l

/-- Starts a block at a column, unless one is there. -/
def openBlock? (l : Lexer) (column : Nat) : Option Lexer :=
  if l.indent < column then some { l with indent := column, outer := l.indent :: l.outer } else none

/-- Moves over spaces, comments and line ends. -/
def skipToToken : (fuel : Nat) → Lexer → Lexer
  | 0, l => l
  | fuel + 1, l =>
    let c := l.cursor.dropWhile (· == ' ')
    let c := if c.next == '#' then c.dropWhile (!isLineEnd ·) else c
    match c.lineBreak? with
    | some (_, c) =>
      skipToToken fuel { l with cursor := c, keyAllowed := l.keyAllowed || l.flow = 0 }
    | none => { l with cursor := c }

def directiveNumber (c : Cursor) : Except Fault (Nat × Cursor) := do
  let (digits, c) := c.span Char.isDigit
  if digits.isEmpty then throw (.malformed "expected a digit")
  return (Text.ofDigits 10 (digits.map fun d => d.toNat - '0'.toNat), c)

/-- A handle of tags at a place: `!`, or a name between two of these. -/
def tagHandle (c : Cursor) : Except Fault (String × Cursor) := do
  if c.next != '!' then throw (.malformed "expected '!'")
  if c.peek 1 == ' ' then return ("!", c.advance)
  let (name, d) := c.advance.span isNameChar
  if d.next != '!' then throw (.malformed "expected '!'")
  return ("!" ++ .ofList name ++ "!", d.advance)

def isTagChar (c : Char) : Bool := c.isAlphanum || "-;/?:@&=+$,_.!~*'()[]".toList.contains c

def tagEscapes : (fuel : Nat) → Cursor → Except Fault (List UInt8 × Cursor)
  | 0, c => .ok ([], c)
  | fuel + 1, c =>
    if c.next == '%' then
      match Json.hexValue? (c.peek 1), Json.hexValue? (c.peek 2) with
      | some a, some b => do
        let (bytes, c) ← tagEscapes fuel (c.skip 3)
        return (UInt8.ofNat (16 * a + b) :: bytes, c)
      | _, _ => .error (.malformed "expected two hexadecimal digits")
    else .ok ([], c)

def tagText : (fuel : Nat) → Cursor → Except Fault (List Char × Cursor)
  | 0, c => .ok ([], c)
  | fuel + 1, c => do
    if c.next == '%' then
      let (bytes, c) ← tagEscapes (c.rest.length + 1) c
      match Text.Utf8.decode? bytes with
      | .error _ => throw (.malformed "escapes that are no text")
      | .ok s =>
        let (more, c) ← tagText fuel c
        return (s.toList ++ more, c)
    else if isTagChar c.next then
      let (more, d) ← tagText fuel c.advance
      return (c.next :: more, d)
    else return ([], c)

/-- The text of a tag at a place, which must not be empty. -/
def tagText1 (c : Cursor) : Except Fault (String × Cursor) := do
  let (text, d) ← tagText (c.rest.length + 1) c
  if d.index = c.index then throw (.malformed "expected a tag")
  return (.ofList text, d)

def directive : Step := fun l => do
  let (name, c) := l.cursor.advance.span isNameChar
  if name.isEmpty || !isGap c.next then throw (.malformed "expected the name of a directive")
  let (token, c) : Token × Cursor ←
    if name == "YAML".toList then do
      let (major, c) ← directiveNumber (c.dropWhile (· == ' '))
      if c.next != '.' then throw (.malformed "expected a digit or '.'")
      let (_, c) ← directiveNumber c.advance
      if !isGap c.next then throw (.malformed "expected a digit or ' '")
      pure (.versionDirective major, c)
    else if name == "TAG".toList then do
      let (handle, c) ← tagHandle (c.dropWhile (· == ' '))
      if c.next != ' ' then throw (.malformed "expected ' '")
      let (lead, c) ← tagText1 (c.dropWhile (· == ' '))
      if !isGap c.next then throw (.malformed "expected ' '")
      pure (.tagDirective handle lead, c)
    else pure (.otherDirective, c.dropWhile (!isLineEnd ·))
  return { l with cursor := ← c.skipRemark }.push token

/-- A mark stands in a word before its end. -/
def hasHandle (cs : List Char) : Bool := (cs.takeWhile (!isGap ·)).contains '!'

def tag : Step := fun l => do
  let c := l.cursor
  let (token, c) : Token × Cursor ←
    if c.peek 1 == '<' then do
      let (suffix, c) ← tagText1 (c.skip 2)
      if c.next != '>' then throw (.malformed "expected '>'")
      pure (.tag none suffix, c.advance)
    else if isSpaceOrEnd (c.peek 1) then pure (.tag none "!", c.advance)
    else if hasHandle (c.rest.drop 1) then do
      let (handle, c) ← tagHandle c
      let (suffix, c) ← tagText1 c
      pure (.tag (some handle) suffix, c)
    else do
      let (suffix, c) ← tagText1 c.advance
      pure (.tag (some "!") suffix, c)
  if isGap c.next then return { l with cursor := c }.push token
  else throw (.malformed "expected ' '")

def anchorName (l : Lexer) : Except Fault (String × Cursor) := do
  let (name, c) := l.cursor.advance.span isNameChar
  if name.isEmpty || !(isSpaceOrEnd c.next || "?:,]\x7d%@`".toList.contains c.next) then
    throw (.malformed "expected a name")
  return (.ofList name, c)

/-- What is common to the marks around documents. -/
def leaveBlocks : Step := fun l => do
  let l ← dropPlace (l.unwind (-1))
  return { l with keyAllowed := false }

def documentMarker (t : Token) : Step := fun l => return ((← leaveBlocks l).skip 3).push t

def finish : Step := fun l =>
  return { (← leaveBlocks l).push .streamEnd with places := [], done := true }

def openFlow (t : Token) : Step := fun l => do
  let l ← savePlace l
  return ({ l with flow := l.flow + 1, keyAllowed := true }.skip 1).push t

def closeFlow (t : Token) : Step := fun l => do
  let l ← dropPlace l
  return ({ l with flow := l.flow - 1, keyAllowed := false }.skip 1).push t

def comma : Step := fun l => do
  let l ← dropPlace { l with keyAllowed := true }
  return (l.skip 1).push .comma

/-- Starts a block with a mark that may only stand where a key may. -/
def openBlockWith (t : Token) : Step := fun l =>
  if l.flow ≠ 0 then .ok l
  else if !l.keyAllowed then .error (.malformed "an entry is not allowed here")
  else .ok (((l.openBlock? l.cursor.column).map (·.push t)).getD l)

def dash : Step := fun l => do
  let l ← openBlockWith .blockSequence l
  let l ← dropPlace { l with keyAllowed := true }
  return (l.skip 1).push .dash

def key : Step := fun l => do
  let l ← openBlockWith .blockMapping l
  let l ← dropPlace { l with keyAllowed := l.flow = 0 }
  return (l.skip 1).push .key

/-- The mark of a value. If a key may have started before it, it did. -/
def value : Step := fun l =>
  match l.place? with
  | some p =>
    let l := { l with places := l.places.filter (·.1 ≠ l.flow) }.pushBefore p.number .key
    let l :=
      if l.flow = 0 then
        ((l.openBlock? p.column).map (·.pushBefore p.number .blockMapping)).getD l
      else l
    .ok ((({ l with keyAllowed := false } : Lexer).skip 1).push .value)
  | none => do
    let l ← openBlockWith .blockMapping l
    let l ← dropPlace { l with keyAllowed := l.flow = 0 }
    return (l.skip 1).push .value

/-- A scalar or another token that may be a key, which has been read up to `c`. -/
def content (t : Token) (c : Cursor) (keyAllowed : Bool) (l : Lexer) : Lexer :=
  { l with cursor := c, keyAllowed := keyAllowed }.push t

/-- A plain scalar may start here. -/
def atPlain (l : Lexer) : Bool :=
  let c := l.cursor.next
  !(isSpaceOrEnd c || "-?:,[]\x7b\x7d#&*!|>'\"%@`".toList.contains c) ||
    (!isSpaceOrEnd (l.cursor.peek 1) && (c == '-' || (l.flow = 0 && (c == '?' || c == ':'))))

def token : Step := fun l => do
  let c := l.cursor
  let x := c.next
  let alone := isSpaceOrEnd (c.peek 1)
  if isEnd x then finish l
  else if x == '%' && c.column = 0 then directive (← leaveBlocks l)
  else if c.isMarker '-' then documentMarker .documentStart l
  else if c.isMarker '.' then documentMarker .documentEnd l
  else if x == '[' then openFlow .sequenceOpen l
  else if x == '\x7b' then openFlow .mappingOpen l
  else if x == ']' then closeFlow .sequenceClose l
  else if x == '\x7d' then closeFlow .mappingClose l
  else if x == ',' then comma l
  else if x == '-' && alone then dash l
  else if x == '?' && (l.flow ≠ 0 || alone) then key l
  else if x == ':' && (l.flow ≠ 0 || alone) then value l
  else if x == '*' then
    let l ← savePlace l
    let (name, c) ← anchorName l
    return l.content (.alias name) c false
  else if x == '&' then
    let l ← savePlace l
    let (name, c) ← anchorName l
    return l.content (.anchor name) c false
  else if x == '!' then tag { (← savePlace l) with keyAllowed := false }
  else if (x == '|' || x == '>') && l.flow = 0 then
    let l ← dropPlace { l with keyAllowed := true }
    let (text, c) ← blockScalar l.indent c
    return l.content (.scalar (.ofList text) false) c true
  else if x == '\'' || x == '"' then
    let l ← savePlace l
    let (text, c) ← quotedScalar c
    return l.content (.scalar (.ofList text) false) c false
  else if l.atPlain then
    let l ← savePlace l
    let (text, crossed, c) := plainScalar (l.flow ≠ 0) (l.indent + 1) c
    return l.content (.scalar (.ofList text) true) c crossed
  else throw (.malformed "found a character that cannot start any token")

def step : Step := fun l => do
  let l ← dropStale (l.skipToToken (l.cursor.rest.length + 1))
  token (l.unwind l.cursor.column)

/-- Reads tokens up to the end of the text or the first fault. -/
def run : (fuel : Nat) → Lexer → Array Token × Option Fault
  | 0, l => (l.tokens, none)
  | fuel + 1, l =>
    if l.done then (l.tokens, none)
    else
      match step l with
      | .ok l => run fuel l
      | .error f => (l.tokens, some f)

end Lexer

def tokens (cs : List Char) : List Token × Option Fault :=
  let cs := if cs.head? == some '\ufeff' then cs.drop 1 else cs
  let (ts, fault) := (Lexer.start cs).run (cs.length + 2)
  (ts.toList, fault)

end CodeAtlas.Yaml

import CodeAtlas.Text.Identifier
import CodeAtlas.Text.Utf8
import CodeAtlas.Tree.Source

/-! # Tokens of Java

The tokens of a source text. Keywords are words like any other, since most of them are keywords
only where the grammar asks for them. Every token carries the comments in front of it. The closing
bracket `>` is always a token of its own; operators that contain it are several adjacent tokens.
-/

namespace CodeAtlas.Java

structure Letter where
  char : Char
  offset : Nat
  row : Nat
  column : Nat
  deriving Repr

structure Span where
  start : Nat
  stop : Nat
  row : Nat
  column : Nat
  deriving Repr, Inhabited

inductive TokenClass where
  /-- An identifier or a keyword. -/
  | word
  /-- An operator, a bracket or a quote. -/
  | symbol
  /-- A literal, or a part of one, that makes a node of the kind given. -/
  | literal (kind : String)
  | finish
  deriving DecidableEq, Repr, Inhabited

structure Comment where
  kind : String
  span : Span
  deriving Repr

structure Token where
  sort : TokenClass
  text : String
  span : Span
  comments : List Comment
  deriving Repr, Inhabited

namespace Lexer

def place (row lineStart : Nat) : List (Char × Nat) → List Letter
  | [] => []
  | (c, offset) :: rest =>
    ⟨c, offset, row, offset - lineStart⟩ ::
      (if c == '\n' then place (row + 1) (offset + 1) rest else place row lineStart rest)

/-- The letters of a source; a byte order mark at its start is none. -/
def letters (s : Source) : List Letter :=
  match Text.Utf8.decodeAt 0 s.toList with
  | ('\ufeff', _) :: rest => place 0 0 rest
  | rest => place 0 0 rest

/-- What the lexer is inside of: an interpolation in a string, which is over at the brace that
closes as many as were opened, and then the string goes on. -/
structure Frame where
  depth : Nat
  delimiter : String

inductive Mode where
  | code
  | string (delimiter : String)

abbrev Split := List Letter × List Letter

/-- The longest start whose letters satisfy a predicate. -/
def span (p : Char → Bool) : List Letter → Split
  | [] => ([], [])
  | l :: ls =>
    if p l.char then
      let (taken, rest) := span p ls
      (l :: taken, rest)
    else ([], l :: ls)

def exactly (s : List Char) (ls : List Letter) : Option Split :=
  match s, ls with
  | [], ls => some ([], ls)
  | _ :: _, [] => none
  | c :: s, l :: ls =>
    if l.char == c then (exactly s ls).map fun (taken, rest) => (l :: taken, rest) else none

def Split.andThen (s : Split) (next : List Letter → Split) : Split :=
  let (taken, rest) := next s.2
  (s.1 ++ taken, rest)

def isSpace (c : Char) : Bool := c == ' ' || ('\t' ≤ c && c ≤ '\r')

def isWordStart (c : Char) : Bool := Text.isIdentifierStart c || c == '_' || c == '$'

def isWordPart (c : Char) : Bool := Text.isIdentifierPart c || c == '$' || c == '\u00a2'

/-- Operators and separators, a longer one before those it starts with. -/
def symbols : List (List Char) :=
  ["@interface", "...", "<<=", "->", "::", "++", "--", "+=", "-=", "*=", "/=", "&=", "|=", "^=",
    "%=", "<<", "<=", "==", "!=", "&&", "||", "<", ">", "=", "!", "&", "|", "^", "%", "~", "?", ":",
    ";", ",", ".", "(", ")", "[", "]", "\x7b", "\x7d", "@", "+", "-", "*", "/"].map String.toList

def readSymbol (ls : List Letter) : Option Split := symbols.findSome? (exactly · ls)

/-- The rest of a block comment after its opening. -/
def readBlockComment : List Letter → Option Split
  | [] => none
  | l :: rest =>
    match l.char, rest with
    | '*', ⟨'/', o, r, c⟩ :: after => some ([l, ⟨'/', o, r, c⟩], after)
    | _, rest => (readBlockComment rest).map fun (taken, after) => (l :: taken, after)

def readComment (ls : List Letter) : Option (String × Split) :=
  match exactly ['/', '/'] ls with
  | some s => some ("line_comment", s.andThen (span (· != '\n')))
  | none =>
    match exactly ['/', '*'] ls with
    | some (opening, rest) =>
      (readBlockComment rest).map fun (taken, after) => ("block_comment", (opening ++ taken, after))
    | none => none

def isDigitPart (c : Char) : Bool := c.isDigit || c == '_'

def isHexPart (c : Char) : Bool := isDigitPart c || ('a' ≤ c && c ≤ 'f') || ('A' ≤ c && c ≤ 'F')

def upToOne (p : Char → Bool) : List Letter → Split
  | l :: ls => if p l.char then ([l], ls) else ([], l :: ls)
  | [] => ([], [])

/-- An exponent after one of the letters given; nothing if it has no digits. -/
def readExponent (marks : List Char) (ls : List Letter) : Split :=
  let head := (upToOne marks.contains ls).andThen (upToOne fun c => c == '+' || c == '-')
  let whole := head.andThen (span isDigitPart)
  if head.1.isEmpty || !marks.contains (head.1.headD ⟨' ', 0, 0, 0⟩).char ||
    whole.1.length = head.1.length then ([], ls) else whole

def readSuffix : List Letter → Split :=
  upToOne fun c => c == 'l' || c == 'L' || c == 'f' || c == 'F' || c == 'd' || c == 'D'

/-- The number that comes next, with its kind; its first letter is a digit, or a point before a
digit. -/
def readNumber (ls : List Letter) : String × Split :=
  let opening := (ls.take 2).map (·.char)
  if opening == ['0', 'x'] || opening == ['0', 'X'] then
    let whole := Split.andThen (ls.take 2, ls.drop 2) (span isHexPart)
    let full := (whole.andThen (upToOne (· == '.'))).andThen (span isHexPart)
    let power := readExponent ['p', 'P'] full.2
    if power.1.isEmpty then ("hex_integer_literal", whole.andThen readSuffix)
    else ("hex_floating_point_literal", Split.andThen (full.1 ++ power.1, power.2) readSuffix)
  else if opening == ['0', 'b'] || opening == ['0', 'B'] then
    ("binary_integer_literal",
      (Split.andThen (ls.take 2, ls.drop 2) (span isDigitPart)).andThen readSuffix)
  else
    let whole := span isDigitPart ls
    let full := (whole.andThen (upToOne (· == '.'))).andThen (span isDigitPart)
    let power := full.andThen (readExponent ['e', 'E'])
    let number := power.andThen readSuffix
    if power.1.length = whole.1.length then ("decimal_integer_literal", number)
    else ("decimal_floating_point_literal", number)

/-- The rest of a character literal after its opening quote. -/
def readCharacter : List Letter → Option Split
  | [] => none
  | [_] => none
  | l :: next :: rest =>
    if l.char == '\\' then
      (readCharacterEnd rest).map fun (taken, after) => (l :: next :: taken, after)
    else if l.char == '\n' || l.char == '\'' then none
    else (readCharacterEnd (next :: rest)).map fun (taken, after) => (l :: taken, after)
where
  /-- More of the literal, or its closing quote. -/
  readCharacterEnd : List Letter → Option Split
    | [] => none
    | [l] => if l.char == '\'' then some ([l], []) else none
    | l :: next :: rest =>
      if l.char == '\'' then some ([l], next :: rest)
      else if l.char == '\\' then
        (readCharacterEnd rest).map fun (taken, after) => (l :: next :: taken, after)
      else if l.char == '\n' then none
      else (readCharacterEnd (next :: rest)).map fun (taken, after) => (l :: taken, after)

/-- The part of a string up to the next escape or delimiter. -/
def readFragment (delimiter : List Char) : List Letter → Split
  | [] => ([], [])
  | l :: ls =>
    if l.char == '\\' || (exactly delimiter (l :: ls)).isSome then ([], l :: ls)
    else
      let (taken, rest) := readFragment delimiter ls
      (l :: taken, rest)

def textOf (ls : List Letter) : String := .ofList (ls.map (·.char))

/-- The offset at which letters start; `size` if there are none. -/
def offsetOf (size : Nat) : List Letter → Nat
  | [] => size
  | l :: _ => l.offset

def spanOf (size : Nat) (s : Split) : Span :=
  match s.1 with
  | [] => ⟨offsetOf size s.2, offsetOf size s.2, 0, 0⟩
  | l :: _ => ⟨l.offset, offsetOf size s.2, l.row, l.column⟩

def readQuote (ls : List Letter) : Option Split :=
  exactly ['"', '"', '"'] ls <|> exactly ['"'] ls

/-- The next token in code: its class, the letters, and how the lexer goes on. -/
def readCode (frames : List Frame) (ls : List Letter) :
    Option (TokenClass × Split × Mode × List Frame) :=
  match ls with
  | [] => none
  | l :: rest =>
    if isWordStart l.char then some (.word, span isWordPart ls, .code, frames)
    else if l.char.isDigit || (l.char == '.' && (rest.head?.any (·.char.isDigit))) then
      let (kind, s) := readNumber ls
      some (.literal kind, s, .code, frames)
    else if l.char == '\'' then
      (readCharacter rest).map fun (taken, after) =>
        (.literal "character_literal", (l :: taken, after), .code, frames)
    else
      match readQuote ls with
      | some s => some (.symbol, s, .string (textOf s.1), frames)
      | none =>
        match readSymbol ls with
        | none => none
        | some s =>
          match l.char, frames with
          | '\x7b', f :: fs => some (.symbol, s, .code, { f with depth := f.depth + 1 } :: fs)
          | '\x7d', f :: fs =>
            if f.depth = 0 then some (.symbol, s, .string f.delimiter, fs)
            else some (.symbol, s, .code, { f with depth := f.depth - 1 } :: fs)
          | _, _ => some (.symbol, s, .code, frames)

def readString (delimiter : String) (frames : List Frame) (ls : List Letter) :
    Option (TokenClass × Split × Mode × List Frame) :=
  match exactly delimiter.toList ls with
  | some s => some (.symbol, s, .code, frames)
  | none =>
    match ls with
    | l :: next :: rest =>
      if l.char == '\\' then
        if next.char == '\x7b' then
          some (.symbol, ([l, next], rest), .code, ⟨0, delimiter⟩ :: frames)
        else some (.literal "escape_sequence", ([l, next], rest), .string delimiter, frames)
      else
        some (.literal "string_fragment", readFragment delimiter.toList ls, .string delimiter,
          frames)
    | _ => none

/-- The tokens of letters, the last of them the end of the source; none if something is no token.
`fuel` bounds the number of steps. -/
def tokens (size : Nat) : (fuel : Nat) → Mode → List Frame → List Comment → List Letter →
    Option (List Token)
  | 0, _, _, _, _ => none
  | _ + 1, .code, [], comments, [] =>
    some [⟨.finish, "", ⟨size, size, 0, 0⟩, comments.reverse⟩]
  | fuel + 1, .code, frames, comments, ls =>
    match ls with
    | [] => none
    | l :: rest =>
      if isSpace l.char then tokens size fuel .code frames comments rest
      else
        match readComment ls with
        | some (kind, s) =>
          tokens size fuel .code frames (⟨kind, spanOf size s⟩ :: comments) s.2
        | none =>
          match readCode frames ls with
          | none => none
          | some (sort, s, mode, frames) =>
            (tokens size fuel mode frames [] s.2).map
              (⟨sort, textOf s.1, spanOf size s, comments.reverse⟩ :: ·)
  | fuel + 1, .string delimiter, frames, comments, ls =>
    match readString delimiter frames ls with
    | none => none
    | some (sort, s, mode, frames) =>
      (tokens size fuel mode frames [] s.2).map
        (⟨sort, textOf s.1, spanOf size s, comments.reverse⟩ :: ·)

end Lexer

/-- The tokens of a source; none if something in it is no token. -/
def Token.ofSource (s : Source) : Option (List Token) :=
  let ls := Lexer.letters s
  Lexer.tokens s.size (ls.length + 1) .code [] [] ls

end CodeAtlas.Java

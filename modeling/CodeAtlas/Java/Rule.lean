import CodeAtlas.Java.Token
import CodeAtlas.Tree.Kind

/-! # Grammar rules and what they build

Rules of a grammar over tokens, and their reading. A rule takes tokens from the front and makes
nodes of them; of two alternatives the first that succeeds counts. A comment belongs to the lowest
node with tokens on both sides of it: the comments in front of a token come before its node, and
those at the start of a node are moved out in front of it.

Left recursion is written as a chain: a base, and links that each wrap what has been read so far.
-/

namespace CodeAtlas.Java

inductive Rule (σ : Type) where
  /-- Takes nothing. -/
  | empty
  /-- The operator or separator with this text. -/
  | symbol (text : String)
  /-- Operators without anything between them, taken as one. -/
  | glued (texts : List String)
  /-- The keyword with this text. -/
  | word (text : String)
  /-- The keyword with this text, as a named node. -/
  | named (text kind : String)
  /-- A word that is not reserved here, as a node of this kind. -/
  | name (kind : String) (reserved : List String)
  /-- A literal or a part of a string. -/
  | literal
  /-- The end of the source. -/
  | finish
  /-- A condition on the tokens that come next. -/
  | test (condition : List Token → Bool)
  /-- Both rules, one after the other. -/
  | seq (first second : Rule σ)
  /-- The first rule, or else the second. -/
  | or (first second : Rule σ)
  /-- The second rule if the first would succeed, else the third. -/
  | branch (condition yes no : Rule σ)
  /-- The rule as often as it succeeds. -/
  | many (body : Rule σ)
  /-- The rule would succeed; takes nothing. -/
  | ahead (body : Rule σ)
  /-- The rule would fail; takes nothing. -/
  | notAhead (body : Rule σ)
  /-- A nonterminal. -/
  | ref (s : σ)
  /-- The nodes that the rule makes, as the children of a node. -/
  | node (kind : String) (body : Rule σ)
  /-- The nodes that the rule makes fill a field. -/
  | field (name : String) (body : Rule σ)
  /-- The base, wrapped by the link as often as the link succeeds. -/
  | chain (base link : Rule σ)
  /-- In a link: what has been read so far. -/
  | left
  /-- In a link: what has been read so far is of one of these kinds; takes nothing. -/
  | leftIs (kinds : List String)

/-- Where reading stands: the tokens to come and their number, and the end of the last one taken. -/
structure State where
  tokens : List Token
  count : Nat
  stop : Nat

/-- The state after a number of tokens, where `stop` is the end of the last of them. -/
def State.after (st : State) (taken : Nat) (rest : List Token) (stop : Nat) : State :=
  ⟨rest, st.count - taken, stop⟩

structure Anchor where
  node : Node
  span : Span

/-- Nodes, and where reading goes on. -/
abbrev Outcome := Option (List Node × State)

namespace Reading

def withField (field : String) : Node → Node
  | .mk l cs =>
    if Kind.comments.contains l.kind || l.field.isSome then .mk l cs
    else .mk { l with field := some field } cs

def label (kind : String) (named : Bool) (text : String) (span : Span) : Label where
  kind := kind
  named := named
  field := none
  text := text
  row := span.row
  column := span.column
  missing := false
  hasError := false

def ofComment (s : Source) (c : Comment) : Node :=
  .mk (label c.kind true (s.slice c.span.start c.span.stop) c.span) []

def leaf (s : Source) (kind : String) (named : Bool) (t : Token) : List Node :=
  t.comments.map (ofComment s) ++ [.mk (label kind named t.text t.span) []]

def splitComments (nodes : List Node) : List Node × List Node :=
  nodes.span fun n => Kind.comments.contains n.kind

/-- Makes a node of its children, with the comments at their start in front of it. -/
def close (s : Source) (kind : String) (span : Span) (stop : Nat) (nodes : List Node) : List Node :=
  let (comments, children) := splitComments nodes
  comments ++ [.mk (label kind true (s.slice span.start stop) span) children]

def take (st : State) (accepts : Token → Bool) (build : Token → List Node) : Outcome :=
  match st.tokens with
  | t :: rest => if accepts t then some (build t, st.after 1 rest t.span.stop) else none
  | [] => none

def isSymbol (text : String) (t : Token) : Bool := t.sort == .symbol && t.text == text

def isWord (text : String) (t : Token) : Bool := t.sort == .word && t.text == text

/-- The tokens that start with these symbols, adjacent ones. -/
def adjacent : List String → List Token → Option (List Token × List Token)
  | [], ts => some ([], ts)
  | _ :: _, [] => none
  | [x], t :: ts => if isSymbol x t then some ([t], ts) else none
  | x :: y :: xs, t :: ts =>
    if isSymbol x t && ts.head?.any (·.span.start == t.span.stop) then
      (adjacent (y :: xs) ts).map fun (taken, rest) => (t :: taken, rest)
    else none

def takeAdjacent (s : Source) (texts : List String) (st : State) : Outcome :=
  match adjacent texts st.tokens with
  | some (t :: ts, rest) =>
    let last := ts.getLastD t
    some (leaf s (String.join texts) false { t with text := String.join texts },
      st.after texts.length rest last.span.stop)
  | _ => none

/-- Repeats a reader as long as it succeeds and takes a token; `fuel` bounds the repetitions. -/
def repeated (read : State → Outcome) : (fuel : Nat) → State → List Node × State
  | 0, st => ([], st)
  | fuel + 1, st =>
    match read st with
    | some (nodes, st') =>
      if st'.count < st.count then
        let (more, last) := repeated read fuel st'
        (nodes ++ more, last)
      else ([], st)
    | none => ([], st)

/-- Wraps a node by a link as long as the link succeeds and takes a token. -/
def wrapped (link : Anchor → State → Outcome) (span : Span) :
    (fuel : Nat) → Node → State → Node × State
  | 0, n, st => (n, st)
  | fuel + 1, n, st =>
    match link ⟨n, span⟩ st with
    | some ([n'], st') =>
      if st'.count < st.count then wrapped link span fuel n' st' else (n, st)
    | _ => (n, st)

def here (st : State) : Span := (st.tokens.head?.map (·.span)).getD ⟨st.stop, st.stop, 0, 0⟩

/-- Reads a rule, where `call` reads the nonterminals and `anchor` is what a link wraps. -/
def read {σ : Type} (s : Source) (call : σ → State → Outcome) :
    Rule σ → Option Anchor → State → Outcome
  | .empty, _, st => some ([], st)
  | .symbol text, _, st => take st (isSymbol text) (leaf s text false)
  | .glued texts, _, st => takeAdjacent s texts st
  | .word text, _, st => take st (isWord text) (leaf s text false)
  | .named text kind, _, st => take st (isWord text) (leaf s kind true)
  | .name kind reserved, _, st =>
    take st (fun t => t.sort == .word && !reserved.contains t.text) (leaf s kind true)
  | .literal, _, st =>
    match st.tokens with
    | t :: rest =>
      match t.sort with
      | .literal kind => some (leaf s kind true t, st.after 1 rest t.span.stop)
      | _ => none
    | [] => none
  | .finish, _, st => take st (·.sort == .finish) fun t => t.comments.map (ofComment s)
  | .test condition, _, st => if condition st.tokens then some ([], st) else none
  | .seq a b, anchor, st =>
    match read s call a anchor st with
    | some (left, st') =>
      match read s call b anchor st' with
      | some (right, last) => some (left ++ right, last)
      | none => none
    | none => none
  | .or a b, anchor, st =>
    match read s call a anchor st with
    | some r => some r
    | none => read s call b anchor st
  | .branch c a b, anchor, st =>
    match read s call c anchor st with
    | some _ => read s call a anchor st
    | none => read s call b anchor st
  | .many body, anchor, st => some (repeated (read s call body anchor) st.count st)
  | .ahead body, anchor, st => (read s call body anchor st).map fun _ => ([], st)
  | .notAhead body, anchor, st =>
    match read s call body anchor st with
    | some _ => none
    | none => some ([], st)
  | .ref x, _, st => call x st
  | .node kind body, anchor, st =>
    let span := match anchor with
      | some a => a.span
      | none => here st
    (read s call body anchor st).map fun (nodes, last) => (close s kind span last.stop nodes, last)
  | .field f body, anchor, st =>
    (read s call body anchor st).map fun (nodes, last) => (nodes.map (withField f), last)
  | .chain base link, _, st =>
    match read s call base none st with
    | some (nodes, st') =>
      let (comments, rest) := splitComments nodes
      match rest with
      | [n] =>
        let (n, last) := wrapped (fun a => read s call link (some a)) (here st) st'.count n st'
        some (comments ++ [n], last)
      | _ => some (nodes, st')
    | none => none
  | .left, anchor, st => anchor.map fun a => ([a.node], st)
  | .leftIs kinds, anchor, st =>
    if anchor.any fun a => kinds.contains a.node.kind then some ([], st) else none

/-- Reads a nonterminal of a grammar; `fuel` bounds the depth of nonterminals. -/
def readSymbol {σ : Type} (s : Source) (grammar : σ → Rule σ) : (fuel : Nat) → σ → State → Outcome
  | 0, _, _ => none
  | fuel + 1, x, st => read s (readSymbol s grammar fuel) (grammar x) none st

end Reading

end CodeAtlas.Java

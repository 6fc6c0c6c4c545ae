import CodeAtlas.Digest.Sha1
import CodeAtlas.Failure
import CodeAtlas.Text.Blank

/-! # Entity identifiers

Identifiers of files, types, methods, fields and stages, of the form
`path::kind::name[::discriminator]`. Names are normalised first, so that an identifier does not
depend on how the source is spaced.
-/

namespace CodeAtlas.Uri

/-- Characters that stand in a name without space around them. -/
def isPunctuation (c : Char) : Bool := c == '<' || c == '>' || c == ',' || c == '[' || c == ']'

/-- Replaces every run of white space by one space. -/
def collapseBlanks : List Char → List Char
  | [] => []
  | [c] => [if Text.isBlank c then ' ' else c]
  | c :: d :: rest =>
    if Text.isBlank c then
      if Text.isBlank d then collapseBlanks (d :: rest) else ' ' :: collapseBlanks (d :: rest)
    else c :: collapseBlanks (d :: rest)

/-- Removes the single spaces next to punctuation. -/
def tighten (afterPunctuation : Bool) : List Char → List Char
  | [] => []
  | c :: rest =>
    if c == ' ' && (afterPunctuation || rest.head?.any isPunctuation) then
      tighten afterPunctuation rest
    else c :: tighten (isPunctuation c) rest

def normalizeName (s : String) : String :=
  .ofList (tighten false (collapseBlanks (Text.trimWhere Text.isBlank s.toList)))

/-- The text that tells the overloads of a method apart. -/
def signatureText (parameterTypes : List String) : String :=
  let joined := ",".intercalate (parameterTypes.map normalizeName)
  if joined.isEmpty then "<no-parameters>" else joined

def signatureLength : Int := 12

/-- The signature of a parameter list, of eight to forty digits. -/
def signature (parameterTypes : List String) (digits : Int) : String :=
  let n := (max 8 (min digits 40)).toNat
  let digest := Digest.Sha1.ofBytes (signatureText parameterTypes).toUTF8.toList
  "sig_" ++ .ofList (digest.hex.take n)

def separator : String := "::"

/-- The identifier of an entity; an empty discriminator is left out. -/
def create (path kind name : String) (discriminator : Option String) : String :=
  let uri := path ++ separator ++ kind ++ separator ++ normalizeName name
  match discriminator with
  | none => uri
  | some d => if d.isEmpty then uri else uri ++ separator ++ d

def ofMethod (path typeName methodName : String) (parameterTypes : List String) : String :=
  create path "Method" (typeName ++ "." ++ methodName)
    (some (signature parameterTypes signatureLength))

def ofType (path : String) (isInterface : Bool) (name : String) (index : Int) : String :=
  create path (if isInterface then "Interface" else "Class") name (some s!"#{index}")

def ofStage (path tag : String) (ordinal : Int) : String :=
  create path "Stage" tag (some s!"#{ordinal}")

structure Parts where
  path : String
  kind : String
  name : String
  discriminator : Option String
  deriving DecidableEq, Repr

def splitSeparators : List Char → List (List Char)
  | [] => [[]]
  | [c] => [[c]]
  | c :: d :: rest =>
    if c == ':' && d == ':' then [] :: splitSeparators rest
    else
      match splitSeparators (d :: rest) with
      | [] => [[c]]
      | part :: parts => (c :: part) :: parts

/-- The components of an identifier. The first three must not be empty; what follows them is the
discriminator, separators included. -/
def parse (uri : String) : Result Parts :=
  match (splitSeparators uri.toList).map String.ofList with
  | path :: kind :: name :: rest =>
    if path.isEmpty || kind.isEmpty || name.isEmpty then .error (.malformedUri uri)
    else .ok ⟨path, kind, name, if rest.isEmpty then none else some (separator.intercalate rest)⟩
  | _ => .error (.malformedUri uri)

end CodeAtlas.Uri

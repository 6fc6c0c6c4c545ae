import CodeAtlas.Config.Environment
import CodeAtlas.Data.Access
import CodeAtlas.Files.Path

/-! # Services of a composition

A composition file describes the services that run together. From it come the number under which a
service is published and the credentials of the graph database.
-/

namespace CodeAtlas.Compose

def service (data : Value) (name : String) (strict : Bool) : Warned (List (Scalar × Value)) := do
  match ← Warned.ofResult <| data.entry? "services" with
  | some (.map services) =>
    match Value.lookup services (.text name) with
    | some (.map entries) => return entries
    | _ => Warned.reject strict s!"docker-compose missing service '{name}'" []
  | _ => Warned.reject strict "docker-compose missing 'services' section" []

def unquote (q : Char) (cs : List Char) : List Char := Text.trimWhere (· == q) cs

/-- The number that a mapping publishes and the one inside the container that it stands for. A
mapping is written `[ip:]published:inside[/protocol]` or as one number for both. -/
def publication? (mapping : String) : Option (Int × Int) :=
  let cs := unquote '\'' (unquote '"' (Text.trimWhere Text.isBlank mapping.toList))
  let cs := cs.takeWhile (· != '/')
  if cs.isEmpty then none
  else
    match (Path.splitAt ':' cs).reverse.map String.ofList with
    | [number] => (Text.readInt? number).map fun n => (n, n)
    | inside :: published :: _ => do
      let p ← Text.readInt? published
      let i ← Text.readInt? inside
      return (p, i)
    | [] => none

/-- What the first mapping for a number inside the container publishes. -/
def publishedFor? (inside : Int) : List Value → Result (Option Int)
  | [] => .ok none
  | mapping :: rest => do
    match publication? (← mapping.written) with
    | some (p, i) => if i = inside then return some p else publishedFor? inside rest
    | none => publishedFor? inside rest

/-- The number under which a service publishes a number inside its container. -/
def published (data : Value) (name : String) (inside default : Int) (strict : Bool) :
    Warned Int := do
  let entries ← service data name strict
  match (Value.lookup entries (.text "ports")).getD (.list []) with
  | .list mappings =>
    match ← Warned.ofResult (publishedFor? inside mappings) with
    | some p => return p
    | none =>
      Warned.reject strict s!"Service '{name}' has no mapping for container port {inside}"
        default
  | _ => Warned.reject strict s!"Service '{name}' has invalid 'ports' section" default

abbrev Credentials := String × String

def credentials? (raw : String) : Option Credentials :=
  let name := raw.toList.takeWhile (· != '/')
  match raw.toList.drop name.length with
  | [] => none
  | _ :: password =>
    if name.isEmpty || password.isEmpty then none else some (.ofList name, .ofList password)

def credentials (raw : String) (default : Credentials) (strict : Bool) : Warned Credentials :=
  match credentials? raw with
  | some c => return c
  | none => Warned.reject strict "NEO4J_AUTH must be '<username>/<password>'" default

/-- The settings in the environment of a service, each a text with an equals sign in it; nothing
for what is neither a list nor a mapping. -/
def settings? : Value → Option (Result (List String))
  | .map entries => some (entries.mapM fun (k, v) =>
      return (← (Value.scalar k).written) ++ "=" ++ (← v.written))
  | .list items => some (items.mapM Value.written)
  | _ => none

def credentialsMark : String := "NEO4J_AUTH="

def after? (mark text : String) : Option String :=
  if text.startsWith mark then some (.ofList (text.toList.drop mark.length)) else none

/-- The credentials of the graph database: those of the environment come before those of the
composition. -/
def auth (env : Environment) (data : Value) (default : Credentials) (strict : Bool) :
    Warned Credentials := do
  match env.text? "NEO4J_AUTH" with
  | some raw => credentials raw default strict
  | none =>
    let entries ← service data "neo4j" strict
    match settings? ((Value.lookup entries (.text "environment")).getD (.list [])) with
    | none => Warned.reject strict "neo4j.environment must be list or dict" default
    | some settings =>
      match (← Warned.ofResult settings).findSome? (after? credentialsMark) with
      | some raw => credentials raw default strict
      | none =>
        Warned.reject strict "NEO4J_AUTH not found in neo4j service environment" default

end CodeAtlas.Compose

import CodeAtlas.Config.Compose
import CodeAtlas.Config.Document

/-! # The connection to the graph database

Where the graph database is and how to log in. The environment comes before the composition file,
which is not read if the environment says enough.
-/

namespace CodeAtlas

structure Connection where
  uri : String
  username : String
  password : String
  database : String
  deriving DecidableEq, Repr

namespace Connection

/-- The number that the graph database listens on inside its container. -/
def listeningNumber : Int := 7687

def defaultCredentials : Compose.Credentials := ("neo4j", "neo4jpassword")

/-- Resolves the connection; strictness comes from the environment if it is not given. -/
def resolve (reader : Config.Reader) (env : Environment) (fs : Files) (path : String)
    (strict : Option Bool) : Warned Connection := do
  let strict := strict.getD (env.strict false)
  let uri? := env.text? "NEO4J_URI"
  let data : Value ←
    if uri?.isSome && (env.text? "NEO4J_AUTH").isSome then pure (.map [])
    else pure (.map (← Config.load reader fs path strict))
  let uri ← match uri? with
    | some uri => pure uri
    | none => do
      let n ← Compose.published data "neo4j" listeningNumber listeningNumber strict
      pure s!"bolt://127.0.0.1:{n}"
  let (username, password) ← Compose.auth env data defaultCredentials strict
  return ⟨uri, username, password, (env.get? "NEO4J_DATABASE").getD "neo4j"⟩

end Connection

end CodeAtlas

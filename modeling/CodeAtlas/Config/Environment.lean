import CodeAtlas.Config.Warned
import CodeAtlas.Text.Casing
import CodeAtlas.Text.Digits

/-! # The environment

Settings that are taken from environment variables.
-/

namespace CodeAtlas

structure Environment where
  entries : List (String × String)
  deriving DecidableEq, Repr

namespace Environment

def get? (env : Environment) (name : String) : Option String :=
  (env.entries.find? (·.1 = name)).map (·.2)

def text? (env : Environment) (name : String) : Option String :=
  (env.get? name).filter (· ≠ "")

def affirmative : List String := ["1", "true", "yes", "on"]

/-- A flag. Any text but those that set it clears it. -/
def flag (env : Environment) (name : String) (default : Bool) : Bool :=
  match env.get? name with
  | none => default
  | some raw => affirmative.contains (Text.lower (Text.trim raw))

def integer (env : Environment) (name : String) (default minimum : Int) : Warned Int :=
  match env.get? name with
  | none => return default
  | some raw =>
    if Text.allBlank raw then return default
    else
      match Text.readInt? raw with
      | none => do
        Warned.warn s!"{name}={Text.quoted raw} is not an integer; using {default}"
        return default
      | some n =>
        if n < minimum then do
          Warned.warn s!"{name}={n} is below {minimum}; using {default}"
          return default
        else return n

def strict (env : Environment) (default : Bool) : Bool :=
  env.flag "STRICT_CONFIG_VALIDATION" default

def tolerant (env : Environment) (default : Bool) : Bool := env.flag "ALLOW_SYNTAX_ERRORS" default

def workers (env : Environment) (default : Int) : Warned Int :=
  env.integer "EXTRACTION_MAX_WORKERS" default 1

end Environment

end CodeAtlas

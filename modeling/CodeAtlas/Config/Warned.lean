import CodeAtlas.Failure

/-! # Configuration with warnings

What is wrong with a configuration is refused or, if the configuration is not taken strictly, warned
of and replaced by a default.
-/

namespace CodeAtlas

/-- A computation that may warn and may fail. The warnings before a failure are kept. -/
abbrev Warned := ExceptT Failure (StateM (List String))

namespace Warned

def outcome {β : Type} (x : Warned β) : Result β × List String := x.run.run []

def ofResult {β : Type} (r : Result β) : Warned β := ExceptT.mk (pure r)

def warn (what : String) : Warned Unit := modify (· ++ [what])

/-- Refuses a configuration if it is taken strictly, and otherwise goes on with a default. -/
def reject {β : Type} (strict : Bool) (why : String) (default : β) : Warned β := do
  if strict then throw (.configuration why)
  warn (why ++ "; using defaults")
  return default

end Warned

end CodeAtlas

import CodeAtlas.Config.Warned
import CodeAtlas.Files.Tree
import CodeAtlas.Yaml.Content

/-! # Configuration files

A configuration file is a YAML text whose value is a mapping.
-/

namespace CodeAtlas.Config

/-- What reads the value of a YAML text. -/
abbrev Reader := String → Except Yaml.Fault Value

/-- The mapping of a configuration file; by default an empty one. -/
def load (reader : Reader) (fs : Files) (path : String) (strict : Bool) :
    Warned (List (Scalar × Value)) := do
  match fs.read path with
  | .error .missing => Warned.reject strict ("Config file not found: " ++ path) []
  | .error fault => throw (.path path fault)
  | .ok content =>
    match Text.Utf8.decode? content.toList with
    | .error m => throw (.notText m)
    | .ok text =>
      match reader text with
      | .error (.unusable why) => throw why.failure
      | .error (.malformed why) =>
        Warned.reject strict s!"Failed to parse YAML at {path}: {why}" []
      | .ok .null => Warned.reject strict ("Config file is empty: " ++ path) []
      | .ok (.map entries) => return entries
      | .ok v =>
        Warned.reject strict s!"Unexpected config payload type in {path}: {v.typeName}" []

end CodeAtlas.Config

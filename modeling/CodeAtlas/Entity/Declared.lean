import CodeAtlas.Entity.Uri
import CodeAtlas.Model.Wire

/-! # Identifiers of declarations

The identifiers of the types and methods that a file declares. A declaration that was read from
elsewhere may have something other than a text in the place of a name; it has no identifier.
-/

namespace CodeAtlas

variable {α : Type} [Cell α]

def nameText (x : α) : Result String := (Cell.toValue x).asText "strip"

def TypeDeclaration.uri (path : α) (index : Nat) (t : TypeDeclaration α) : Result String :=
  return Uri.ofType (Cell.toValue path).plain t.isInterface (← nameText t.name) index

def Method.parameterTypes (m : Method α) : Result (List String) :=
  m.parameters.mapM fun p => nameText p.type

def Method.uri (path typeName : α) (m : Method α) : Result String :=
  return Uri.ofMethod (Cell.toValue path).plain (Cell.toValue typeName).plain
    (Cell.toValue m.name).plain (← m.parameterTypes)

end CodeAtlas

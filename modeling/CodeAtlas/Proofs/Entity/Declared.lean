import CodeAtlas.Entity.Declared
import CodeAtlas.Proofs.Entity.Components
import CodeAtlas.Proofs.Exchange.Entries

/-! # Identifiers of declared methods

The identifier of a method whose names are simple has the names and the signature as components. A
declaration whose text positions hold texts has an identifier, and the same one however they are
seen.
-/

namespace CodeAtlas

namespace Uri

/-- A name without white space, colons and dots. -/
structure IsSimpleName (s : String) : Prop where
  ne_empty : s ≠ ""
  isBlank_eq : ∀ c ∈ s.toList, Text.isBlank c = false
  colon_notMem : ':' ∉ s.toList
  dot_notMem : '.' ∉ s.toList

section Qualified

variable {typeName name : String} (ht : IsSimpleName typeName) (hn : IsSimpleName name)

include ht hn

theorem IsSimpleName.normalizeName_qualified :
    normalizeName (typeName ++ "." ++ name) = typeName ++ "." ++ name := by
  refine normalizeName_eq_self fun c hc => ?_
  simp only [String.toList_append, List.mem_append] at hc
  rcases hc with (hc | hc) | hc
  · exact ht.isBlank_eq c hc
  · obtain rfl : c = '.' := List.mem_singleton.mp hc
    decide
  · exact hn.isBlank_eq c hc

theorem IsSimpleName.noSeparator_qualified : NoSeparator (typeName ++ "." ++ name).toList := by
  refine .of_not_mem ?_
  simp only [String.toList_append, List.mem_append, not_or]
  exact ⟨⟨ht.colon_notMem, by decide⟩, hn.colon_notMem⟩

theorem IsSimpleName.isComponent_qualified :
    IsComponent (normalizeName (typeName ++ "." ++ name)) := by
  have h := noSeparator_iff.mp (ht.noSeparator_qualified hn)
  rw [ht.normalizeName_qualified hn]
  refine ⟨?_, h.1, h.2⟩
  rw [Ne, ← String.toList_eq_nil_iff]
  simp

end Qualified

theorem signature_ne_empty (types : List String) (digits : Int) : signature types digits ≠ "" := by
  simp [signature, ← String.toList_inj]

theorem isComponent_method : IsComponent "Method" := by
  have h : ':' ∉ "Method".toList := by decide
  exact ⟨by decide, (noSeparator_iff.mp (.of_not_mem h)).1, (noSeparator_iff.mp (.of_not_mem h)).2⟩

theorem parse_ofMethod {path typeName name : String} (hp : IsComponent path)
    (ht : IsSimpleName typeName) (hn : IsSimpleName name) (types : List String) :
    parse (ofMethod path typeName name types) =
      .ok ⟨path, "Method", typeName ++ "." ++ name, some (signature types signatureLength)⟩ := by
  rw [ofMethod, parse_create hp isComponent_method (ht.isComponent_qualified hn),
    ht.normalizeName_qualified hn]
  simp [Option.filter, signature_ne_empty]

end Uri

theorem nameText_eq {α : Type} [Cell α] {x : α} {s : String} (h : Cell.toValue x = .text s) :
    nameText x = .ok s := by
  rw [nameText, h]
  rfl

def Method.typeTexts (m : Method String) : List String := m.parameters.map (·.type)

/-- What tells a method from the overloads beside it. -/
def Method.signature (m : Method String) : String := Uri.signature m.typeTexts Uri.signatureLength

theorem Method.signature_ne_empty (m : Method String) : m.signature ≠ "" :=
  Uri.signature_ne_empty _ _

def Method.identifier (path typeName : String) (m : Method String) : String :=
  Uri.ofMethod path typeName m.name m.typeTexts

theorem Method.parameterTypes_text (m : Method String) : m.parameterTypes = .ok m.typeTexts := by
  have hread : m.parameters.mapM ((fun p => nameText p.type) ∘ id) = .ok m.typeTexts :=
    mapM_comp_ok fun p _ => nameText_eq rfl
  exact hread

theorem Method.parameterTypes_map (m : Method String) :
    (m.map Value.text).parameterTypes = .ok m.typeTexts := by
  rw [Method.parameterTypes, Method.map, List.mapM_map]
  exact mapM_comp_ok fun p _ => nameText_eq rfl

theorem Method.uri_text (path typeName : String) (m : Method String) :
    m.uri path typeName = .ok (m.identifier path typeName) := by
  rw [Method.uri, m.parameterTypes_text]
  rfl

theorem Method.uri_map (path typeName : String) (m : Method String) :
    (m.map Value.text).uri (.text path) (.text typeName) = .ok (m.identifier path typeName) := by
  rw [Method.uri, m.parameterTypes_map]
  rfl

theorem TypeDeclaration.uri_text (path : String) (i : ℕ) (t : TypeDeclaration String) :
    t.uri path i = .ok (Uri.ofType path t.isInterface t.name i) := by
  rw [TypeDeclaration.uri, nameText_eq (s := t.name) rfl]
  rfl

theorem TypeDeclaration.uri_map (path : String) (i : ℕ) (t : TypeDeclaration String) :
    (t.map Value.text).uri (.text path) i = .ok (Uri.ofType path t.isInterface t.name i) := by
  rw [TypeDeclaration.uri, nameText_eq (s := t.name) rfl]
  rfl

end CodeAtlas

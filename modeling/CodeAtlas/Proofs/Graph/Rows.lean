import Mathlib.Data.List.Basic
import CodeAtlas.Graph.Payload
import CodeAtlas.Proofs.Entity.Declared

/-! # The rows of a file of texts

A file result whose text positions hold texts always has rows: one for each type, one for each
method under the index of its type, one for each stage and one for each link.
-/

namespace CodeAtlas

variable {path : String}

namespace Flow

def bound (stages : List (Stage String)) : List (Scalar × String × Stage String) :=
  stages.filterMap fun s => s.binding.map fun b => (.text b, b, s)

def linksOf (stages : List (Stage String)) : List (FlowEdge String) :=
  ((groups (bound stages)).flatMap fun (b, group) => links b group).mergeSort precedes

theorem linksOf_nil : linksOf [] = [] := by simp [linksOf, bound, groups]

theorem edges_text (e : FileExtraction String) : edges e = .ok (linksOf e.stages) := by
  have hkeyed : keyed e.stages = .ok (bound e.stages) := by
    let pairs := e.stages.filterMap fun s => s.binding.map fun b => (b, s)
    have hmap : pairs.mapM ((fun p => do return (← key p.1, p.1, p.2)) ∘ id) =
        .ok (pairs.map fun p => (Scalar.text p.1, p.1, p.2)) :=
      mapM_comp_ok fun _ _ => rfl
    rw [keyed, bound]
    refine Eq.trans hmap ?_
    simp [pairs, List.map_filterMap, Function.comp_def]
  rw [edges, hkeyed]
  rfl

theorem of_mem_bound {stages : List (Stage String)} {k : Scalar} {b : String} {s : Stage String}
    (h : (k, b, s) ∈ bound stages) : s ∈ stages := by
  simp only [bound, List.mem_filterMap, Option.map_eq_some_iff, Prod.mk.injEq] at h
  obtain ⟨s, hs, b, -, -, -, rfl⟩ := h
  exact hs

theorem of_mem_groups {stages group : List (Stage String)} {b : String}
    (h : (b, group) ∈ groups (bound stages)) : group ⊆ stages := by
  obtain ⟨k, -, hk⟩ := List.mem_filterMap.mp h
  have hgroup : group = ((bound stages).filter (·.1 == k)).map (·.2.2) := by
    split at hk
    · simp at hk
    · next hf =>
      simp only [Option.some.injEq, Prod.mk.injEq] at hk
      simp [hf, ← hk.2]
  intro s hs
  rw [hgroup] at hs
  obtain ⟨⟨k', b', s⟩, hm, rfl⟩ := List.mem_map.mp hs
  exact of_mem_bound (List.mem_of_mem_filter hm)

theorem of_mem_linksOf {stages : List (Stage String)} {e : FlowEdge String}
    (h : e ∈ linksOf stages) : e.supplier ∈ stages ∧ e.consumer ∈ stages := by
  rw [linksOf, List.mem_mergeSort, List.mem_flatMap] at h
  obtain ⟨⟨b, group⟩, hgroup, he⟩ := h
  simp only [links, List.mem_flatMap, List.mem_map, List.mem_filter] at he
  obtain ⟨up, hup, down, ⟨hdown, -⟩, rfl⟩ := he
  exact ⟨of_mem_groups hgroup hup, of_mem_groups hgroup hdown⟩

end Flow

namespace Graph

def typeRow (path : String) (i : ℕ) (t : TypeDeclaration String) : TypeRow String :=
  ⟨i, Uri.ofType path t.isInterface t.name i, t.name, t.kind, t.extended, t.implemented, t.fields⟩

def methodRow (path : String) (i : ℕ) (typeName : String) (m : Method String) : MethodRow String :=
  ⟨i, m.identifier path typeName, m.name, m.returnType, m.isPublic, m.isStatic,
    m.parameters.map (·.name), m.typeTexts, m.body,
    m.calls.mapIdx fun i name => ⟨name, i⟩, m.locals⟩

def methodRows (path : String) (ts : List (TypeDeclaration String × ℕ)) :
    List (MethodRow String) :=
  ts.flatMap fun (t, i) => t.methods.map (methodRow path i t.name)

theorem TypeRow.of_text (i : ℕ) (t : TypeDeclaration String) :
    TypeRow.of path i t = .ok (typeRow path i t) := by
  rw [TypeRow.of, t.uri_text]
  rfl

theorem MethodRow.of_text (i : ℕ) (typeName : String) (m : Method String) :
    MethodRow.of path i typeName m = .ok (methodRow path i typeName m) := by
  rw [MethodRow.of, m.uri_text]
  rfl

theorem declarationRows_text (ts : List (TypeDeclaration String)) (n : ℕ) :
    declarationRows path n ts =
      .ok ((ts.zipIdx n).map fun (t, i) => typeRow path i t, methodRows path (ts.zipIdx n)) := by
  induction ts generalizing n with
  | nil => rfl
  | cons t ts ih =>
    have hmethods : t.methods.mapM (MethodRow.of path n t.name) =
        .ok (t.methods.map (methodRow path n t.name)) :=
      mapM_comp_ok (f := id) fun m _ => MethodRow.of_text n t.name m
    simp [declarationRows, TypeRow.of_text, hmethods, ih, methodRows]

def rowsOf (e : FileExtraction String) : Payload String where
  path := e.path
  package := e.source.package
  imports := e.source.imports
  error := none
  types := e.types.zipIdx.map fun (t, i) => typeRow e.path i t
  methods := methodRows e.path e.types.zipIdx
  stages := e.stages.map (StageRow.of e.path)
  flows := (Flow.linksOf e.stages).map (FlowRow.of e.path)

theorem Payload.ofExtraction_text (e : FileExtraction String) :
    Payload.ofExtraction e = .ok (rowsOf e) := by
  rw [Payload.ofExtraction, declarationRows_text, ok_bind, Flow.edges_text]
  rfl

theorem mem_methods_rowsOf_iff {e : FileExtraction String} {row : MethodRow String} :
    row ∈ (rowsOf e).methods ↔
      ∃ i t m, e.types[i]? = some t ∧ m ∈ t.methods ∧ row = methodRow e.path i t.name m := by
  simp only [rowsOf, methodRows, List.mem_flatMap, Prod.exists, List.mem_map,
    List.mem_zipIdx_iff_getElem?]
  constructor
  · rintro ⟨t, i, ht, m, hm, rfl⟩
    exact ⟨i, t, m, ht, hm, rfl⟩
  · rintro ⟨i, t, m, ht, hm, rfl⟩
    exact ⟨t, i, ht, m, hm, rfl⟩

end Graph

end CodeAtlas

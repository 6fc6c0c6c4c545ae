import CodeAtlas.Proofs.Exchange.Line
import CodeAtlas.Proofs.Graph.Subgraph
import CodeAtlas.Proofs.Index.Surfaces

/-! # What the rows of a file keep

The rows of a file are flat: a method is joined to its type by an index alone, and its parameters
are two lists of equal length. Nothing is lost: a file result can be put together again from its
rows, up to the number of its parse errors, which has no row.
-/

namespace CodeAtlas

namespace FileExtraction

variable {α : Type}

def methods (e : FileExtraction α) : List (Method α) := e.types.flatMap (·.methods)

/-- The number of types, fields, methods, calls, variables and stages. -/
def entityCount (e : FileExtraction α) : ℕ :=
  e.types.length + (e.types.flatMap (·.fields)).length + e.methods.length +
    (e.methods.flatMap (·.calls)).length + (e.methods.flatMap (·.locals)).length + e.stages.length

end FileExtraction

namespace Graph

section Restored

variable {α : Type}

def MethodRow.restored (m : MethodRow α) : Method α :=
  ⟨m.name, m.returnType, m.isPublic, m.isStatic,
    List.zipWith Parameter.mk m.parameterNames m.parameterTypes, m.body, m.calls.map (·.name),
    m.locals⟩

def TypeRow.restored (methods : List (MethodRow α)) (t : TypeRow α) : TypeDeclaration α :=
  ⟨t.name, t.kind, t.extended, t.implemented,
    (methods.filter (·.typeIndex = t.index)).map MethodRow.restored, t.fields⟩

def StageRow.restored (s : StageRow α) : Stage α :=
  ⟨s.tag, s.operation, s.arguments, s.binding, s.line, s.ordinal⟩

def Payload.restored (p : Payload α) : FileResult α :=
  match p.error with
  | some reason => .failed p.path reason
  | none => .extracted ⟨⟨p.path, p.package, p.imports⟩, p.types.map (TypeRow.restored p.methods),
      p.stages.map StageRow.restored, 0⟩

end Restored

section Row

variable {α : Type}

structure TypeRow.Keeps (row : TypeRow α) (index : ℕ) (t : TypeDeclaration α) : Prop where
  index_eq : row.index = index
  name_eq : row.name = t.name
  kind_eq : row.kind = t.kind
  extended_eq : row.extended = t.extended
  implemented_eq : row.implemented = t.implemented
  fields_eq : row.fields = t.fields

structure MethodRow.Keeps (row : MethodRow α) (index : ℕ) (m : Method α) : Prop where
  typeIndex_eq : row.typeIndex = index
  name_eq : row.name = m.name
  returnType_eq : row.returnType = m.returnType
  isPublic_eq : row.isPublic = m.isPublic
  isStatic_eq : row.isStatic = m.isStatic
  parameterNames_eq : row.parameterNames = m.parameters.map (·.name)
  parameterTypes_eq : row.parameterTypes = m.parameters.map (·.type)
  body_eq : row.body = m.body
  calls_eq : row.calls.map (·.name) = m.calls
  positions_eq : row.calls.map (·.position) = List.range m.calls.length
  locals_eq : row.locals = m.locals

theorem MethodRow.Keeps.restored_eq {row : MethodRow α} {i : ℕ} {m : Method α}
    (h : row.Keeps i m) : row.restored = m := by
  simp [MethodRow.restored, h.name_eq, h.returnType_eq, h.isPublic_eq, h.isStatic_eq,
    h.parameterNames_eq, h.parameterTypes_eq, h.body_eq, h.calls_eq, h.locals_eq]

section Methods

variable {i : ℕ} {ms : List (Method α)} {rows : List (MethodRow α)}
  (h : List.Forall₂ (fun m row => MethodRow.Keeps row i m) ms rows)

include h

theorem map_restored_of_keeps : rows.map MethodRow.restored = ms := by
  induction h with
  | nil => rfl
  | cons hm _ ih => rw [List.map_cons, hm.restored_eq, ih]

theorem typeIndex_of_keeps : ∀ row ∈ rows, row.typeIndex = i := by
  induction h with
  | nil => simp
  | cons hm _ ih => exact List.forall_mem_cons.mpr ⟨hm.typeIndex_eq, ih⟩

end Methods

variable [Cell α] {path : α} {i : ℕ}

theorem TypeRow.keeps_of {t : TypeDeclaration α} {row : TypeRow α}
    (h : TypeRow.of path i t = .ok row) : row.Keeps i t := by
  obtain ⟨uri, -, h⟩ := bind_eq_ok_iff.mp h
  cases h
  exact ⟨rfl, rfl, rfl, rfl, rfl, rfl⟩

theorem MethodRow.keeps_of {typeName : α} {m : Method α} {row : MethodRow α}
    (h : MethodRow.of path i typeName m = .ok row) : row.Keeps i m := by
  obtain ⟨uri, -, h⟩ := bind_eq_ok_iff.mp h
  cases h
  refine ⟨rfl, rfl, rfl, rfl, rfl, rfl, rfl, rfl, ?_, ?_, rfl⟩
  · rw [List.mapIdx_eq_zipIdx_map, List.map_map]
    exact List.zipIdx_map_fst 0 m.calls
  · rw [List.mapIdx_eq_zipIdx_map, List.map_map, List.range_eq_range']
    exact List.zipIdx_map_snd 0 m.calls

end Row

section Declarations

variable {α : Type} [Cell α] {path : α} {n : ℕ} {t : TypeDeclaration α}
  {ts : List (TypeDeclaration α)} {rows : List (TypeRow α)} {ms : List (MethodRow α)}

theorem of_declarationRows_cons (h : declarationRows path n (t :: ts) = .ok (rows, ms)) :
    ∃ row block rest others, rows = row :: rest ∧ ms = block ++ others ∧ row.Keeps n t ∧
      List.Forall₂ (fun m row => row.Keeps n m) t.methods block ∧
      declarationRows path (n + 1) ts = .ok (rest, others) := by
  obtain ⟨row, hrow, h⟩ := bind_eq_ok_iff.mp h
  obtain ⟨block, hblock, h⟩ := bind_eq_ok_iff.mp h
  obtain ⟨⟨rest, others⟩, hrest, h⟩ := bind_eq_ok_iff.mp h
  cases h
  exact ⟨row, block, rest, others, rfl, rfl, TypeRow.keeps_of hrow,
    (mapM_eq_ok_iff.mp hblock).imp fun _ _ => MethodRow.keeps_of, hrest⟩

theorem keeps_of_declarationRows (h : declarationRows path n ts = .ok (rows, ms)) :
    List.Forall₂ (fun t row => row.Keeps t.2 t.1) (ts.zipIdx n) rows := by
  induction ts generalizing n rows ms with
  | nil =>
    cases h
    exact .nil
  | cons t ts ih =>
    obtain ⟨row, block, rest, others, rfl, -, hrow, -, hrest⟩ := of_declarationRows_cons h
    exact .cons hrow (ih hrest)

theorem typeIndex_bounds (h : declarationRows path n ts = .ok (rows, ms)) :
    ∀ row ∈ ms, n ≤ row.typeIndex ∧ row.typeIndex < n + ts.length := by
  induction ts generalizing n rows ms with
  | nil =>
    cases h
    simp
  | cons t ts ih =>
    obtain ⟨_, block, rest, others, -, rfl, -, hblock, hrest⟩ := of_declarationRows_cons h
    intro row hrow
    rw [List.length_cons]
    rcases List.mem_append.mp hrow with hrow | hrow
    · have := typeIndex_of_keeps hblock row hrow
      omega
    · have := ih hrest row hrow
      omega

theorem filter_methods_of_declarationRows (h : declarationRows path n ts = .ok (rows, ms)) {i : ℕ}
    (ht : ts[i]? = some t) : List.Forall₂ (fun m row => row.Keeps (n + i) m) t.methods
      (ms.filter (·.typeIndex = n + i)) := by
  induction ts generalizing n rows ms i with
  | nil => simp at ht
  | cons t' ts ih =>
    obtain ⟨_, block, rest, others, -, rfl, -, hblock, hrest⟩ := of_declarationRows_cons h
    have hindex := typeIndex_of_keeps hblock
    rw [List.filter_append]
    -- The rows of the later types have greater indices, those of the first one the index `n`.
    cases i with
    | zero =>
      obtain rfl : t' = t := by simpa using ht
      have hothers : others.filter (·.typeIndex = n + 0) = [] := by
        rw [List.filter_eq_nil_iff]
        intro row hrow
        have := typeIndex_bounds hrest row hrow
        simp only [decide_eq_true_eq]
        omega
      rw [hothers, List.append_nil, List.filter_eq_self.mpr (by simpa using hindex)]
      exact hblock
    | succ i =>
      have hnone : block.filter (·.typeIndex = n + (i + 1)) = [] := by
        rw [List.filter_eq_nil_iff]
        intro row hrow
        have := hindex row hrow
        simp only [decide_eq_true_eq]
        omega
      rw [hnone, List.nil_append]
      have := ih hrest (i := i) (by simpa using ht)
      rwa [Nat.add_right_comm, Nat.add_assoc] at this

theorem map_restored_of_declarationRows (h : declarationRows path n ts = .ok (rows, ms)) :
    ms.map MethodRow.restored = ts.flatMap (·.methods) := by
  induction ts generalizing n rows ms with
  | nil =>
    cases h
    rfl
  | cons t ts ih =>
    obtain ⟨_, block, rest, others, -, rfl, -, hblock, hrest⟩ := of_declarationRows_cons h
    rw [List.map_append, map_restored_of_keeps hblock, ih hrest, List.flatMap_cons]

end Declarations

namespace Payload

section Keeps

variable {α : Type}

/-- The rows are those of an extraction: types are numbered in order, and the methods of a type are
those that refer to its number, which is that of one row. -/
structure Keeps (p : Payload α) (e : FileExtraction α) : Prop where
  path_eq : p.path = e.path
  package_eq : p.package = e.source.package
  imports_eq : p.imports = e.source.imports
  error_eq : p.error = none
  keepsTypes : List.Forall₂ (fun t row => row.Keeps t.2 t.1) e.types.zipIdx p.types
  indices_eq : p.types.map (·.index) = List.range e.types.length
  owned : ∀ row ∈ p.methods, p.types.countP (·.index = row.typeIndex) = 1
  keepsMethods : ∀ i t, e.types[i]? = some t →
    List.Forall₂ (fun m row => row.Keeps i m) t.methods (p.methods.filter (·.typeIndex = i))
  methodsInOrder : p.methods.map MethodRow.restored = e.methods
  stages_eq : p.stages.map StageRow.restored = e.stages

variable {p : Payload α} {e : FileExtraction α}

theorem Keeps.map_restored_types (h : p.Keeps e) :
    p.types.map (TypeRow.restored p.methods) = e.types := by
  have hrestored : List.Forall₂ (fun t row => t.1 = row.restored p.methods) e.types.zipIdx
      p.types := by
    refine List.forall₂_iff_zip.mpr ⟨h.keepsTypes.length_eq, fun {t row} hzip => ?_⟩
    have hrow := List.forall₂_zip h.keepsTypes hzip
    have ht := List.mem_zipIdx_iff_getElem?.mp (List.of_mem_zip hzip).1
    rw [TypeRow.restored, hrow.index_eq, map_restored_of_keeps (h.keepsMethods t.2 t.1 ht),
      hrow.name_eq, hrow.kind_eq, hrow.extended_eq, hrow.implemented_eq, hrow.fields_eq]
  have heq : e.types.zipIdx.map (·.1) = p.types.map (TypeRow.restored p.methods) := by
    rw [← List.forall₂_eq_eq_eq, List.forall₂_map_left_iff, List.forall₂_map_right_iff]
    exact hrestored
  rw [← heq]
  exact List.zipIdx_map_fst 0 e.types

theorem Keeps.restored_eq (h : p.Keeps e) :
    p.restored = .extracted { e with parseErrorCount := 0 } := by
  rw [restored, h.error_eq]
  simp only [h.map_restored_types, h.stages_eq, h.path_eq, h.package_eq, h.imports_eq]
  rfl

theorem Keeps.entityCount_eq (h : p.Keeps e) : p.entityCount = e.entityCount := by
  have hfields : p.types.flatMap (·.fields) = e.types.flatMap (·.fields) := by
    rw [← h.map_restored_types, List.flatMap_map]
    rfl
  have hcalls : (p.methods.flatMap (·.calls)).length = (e.methods.flatMap (·.calls)).length := by
    rw [← h.methodsInOrder, List.flatMap_map, List.length_flatMap, List.length_flatMap]
    simp [MethodRow.restored]
  have hlocals : p.methods.flatMap (·.locals) = e.methods.flatMap (·.locals) := by
    rw [← h.methodsInOrder, List.flatMap_map]
    rfl
  rw [entityCount, FileExtraction.entityCount, hfields, hcalls, hlocals, ← h.map_restored_types,
    ← h.methodsInOrder, ← h.stages_eq, List.length_map, List.length_map, List.length_map]

end Keeps

theorem countP_index {α : Type} {rows : List (TypeRow α)} {n i : ℕ}
    (h : rows.map (·.index) = List.range n) (hi : i < n) : rows.countP (·.index = i) = 1 := by
  have hcount := List.count_eq_one_of_mem List.nodup_range (List.mem_range.mpr hi)
  rw [← h, List.count, List.countP_map] at hcount
  exact hcount

section OfExtraction

variable {α : Type} [Cell α]

/-- What an extraction is turned into keeps it, with a row for each of its links. -/
theorem keeps_of_ofExtraction {e : FileExtraction α} {p : Payload α}
    (h : ofExtraction e = .ok p) :
    p.Keeps e ∧ ∃ es, Flow.edges e = .ok es ∧ p.flows.length = es.length := by
  obtain ⟨⟨rows, ms⟩, hrows, h⟩ := bind_eq_ok_iff.mp h
  obtain ⟨es, hes, h⟩ := bind_eq_ok_iff.mp h
  cases h
  have hindices : rows.map (·.index) = List.range e.types.length := by
    have hzip : rows.map (·.index) = e.types.zipIdx.map (·.2) := by
      rw [← List.forall₂_eq_eq_eq, List.forall₂_map_left_iff, List.forall₂_map_right_iff]
      exact (keeps_of_declarationRows hrows).flip.imp fun _ _ h => h.index_eq
    rw [hzip, List.range_eq_range']
    exact List.zipIdx_map_snd 0 e.types
  refine ⟨?_, es, hes, by simp⟩
  exact {
    path_eq := rfl
    package_eq := rfl
    imports_eq := rfl
    error_eq := rfl
    keepsTypes := keeps_of_declarationRows hrows
    indices_eq := hindices
    owned := fun row hrow => by
      have := typeIndex_bounds hrows row hrow
      exact countP_index hindices (by omega)
    keepsMethods := fun i t ht => by
      have := filter_methods_of_declarationRows hrows ht
      rwa [Nat.zero_add] at this
    methodsInOrder := map_restored_of_declarationRows hrows
    stages_eq := by
      rw [List.map_map]
      exact List.map_id _ }

end OfExtraction

end Payload

section Values

theorem cells_inj {xs ys : List String} : cells xs = cells ys ↔ xs = ys := by
  rw [cells, cells, Value.list.injEq, List.map_inj_right]
  simp [Cell.toValue]

theorem cell?_inj {x y : Option String} : cell? x = cell? y ↔ x = y := by
  cases x <;> cases y <;> simp [cell?, Cell.toValue]

theorem variableValue_injective :
    Function.Injective (variableValue : LocalVariable String → Value) := by
  rintro ⟨name, type, initial⟩ ⟨name', type', initial'⟩ h
  simpa [variableValue, Value.ofFields, Cell.toValue, cell?_inj] using h

theorem fieldValue_injective : Function.Injective (fieldValue : Field String → Value) := by
  rintro ⟨name, type, isPublic, isStatic, initial⟩ ⟨name', type', isPublic', isStatic', initial'⟩ h
  simpa [fieldValue, Value.ofFields, Cell.toValue, cell?_inj] using h

theorem CallRow.toValue_injective :
    Function.Injective (CallRow.toValue : CallRow String → Value) := by
  rintro ⟨name, position⟩ ⟨name', position'⟩ h
  simpa [CallRow.toValue, Value.ofFields, Cell.toValue] using h

theorem TypeKind.name_injective : Function.Injective TypeKind.name := by
  intro k k' h
  cases k <;> cases k' <;> first | rfl | exact absurd h (by decide)

theorem TypeRow.toValue_injective :
    Function.Injective (TypeRow.toValue : TypeRow String → Value) := by
  rintro ⟨index, uri, name, kind, extended, implemented, fields⟩
    ⟨index', uri', name', kind', extended', implemented', fields'⟩ h
  simpa [TypeRow.toValue, Value.ofFields, Cell.toValue, cells_inj, TypeKind.name_injective.eq_iff,
    List.map_inj_right fieldValue_injective] using h

theorem MethodRow.toValue_injective :
    Function.Injective (MethodRow.toValue : MethodRow String → Value) := by
  rintro ⟨index, uri, name, returnType, isPublic, isStatic, names, types, body, calls, locals⟩
    ⟨index', uri', name', returnType', isPublic', isStatic', names', types', body', calls',
      locals'⟩ h
  simpa [MethodRow.toValue, Value.ofFields, Cell.toValue, cells_inj, cell?_inj,
    List.map_inj_right CallRow.toValue_injective, List.map_inj_right variableValue_injective]
    using h

theorem StageRow.toValue_injective :
    Function.Injective (StageRow.toValue : StageRow String → Value) := by
  rintro ⟨uri, tag, operation, arguments, binding, line, ordinal⟩
    ⟨uri', tag', operation', arguments', binding', line', ordinal'⟩ h
  simpa [StageRow.toValue, Value.ofFields, Cell.toValue, cells_inj, cell?_inj,
    StageTag.name_injective.eq_iff] using h

theorem FlowRow.toValue_injective :
    Function.Injective (FlowRow.toValue : FlowRow String → Value) := by
  rintro ⟨supplier, consumer, binding⟩ ⟨supplier', consumer', binding'⟩ h
  simpa [FlowRow.toValue, Value.ofFields, Cell.toValue] using h

theorem Payload.toValue_injective :
    Function.Injective (Payload.toValue : Payload String → Value) := by
  rintro ⟨path, package, imports, error, types, methods, stages, flows⟩
    ⟨path', package', imports', error', types', methods', stages', flows'⟩ h
  have herror : errorValue error = errorValue error' ↔ error = error' := cell?_inj
  simpa [Payload.toValue, Value.ofFields, Cell.toValue, cells_inj, cell?_inj, herror,
    List.map_inj_right TypeRow.toValue_injective, List.map_inj_right MethodRow.toValue_injective,
    List.map_inj_right StageRow.toValue_injective, List.map_inj_right FlowRow.toValue_injective]
    using h

end Values

namespace Payload

/-- The rows keep a file result, and there are as many nodes and relationships as it has entities
and links; a failed file has its own node only. -/
def Describes {α : Type} [Cell α] (p : Payload α) : FileResult α → Prop
  | .extracted e => p.Keeps e ∧ p.nodeCount = 1 + e.entityCount ∧
      ∃ es, Flow.edges e = .ok es ∧ p.relationshipCount = e.entityCount + es.length
  | .failed path reason => p.path = path ∧ p.error = some reason ∧
      p.nodeCount = 1 ∧ p.relationshipCount = 0

section OfResult

variable {α : Type} [Cell α] {r : FileResult α} {p : Payload α} (h : ofResult r = .ok p)

include h

theorem restored_of_ofResult : p.restored = r.withoutFaults := by
  cases r with
  | extracted e => exact (keeps_of_ofExtraction h).1.restored_eq
  | failed path reason =>
    cases h
    rfl

theorem describes_of_ofResult : p.Describes r := by
  cases r with
  | extracted e =>
    obtain ⟨hkeeps, es, hes, hlength⟩ := keeps_of_ofExtraction h
    refine ⟨hkeeps, ?_, es, hes, ?_⟩
    · rw [nodeCount, hkeeps.entityCount_eq]
    · rw [relationshipCount, hkeeps.entityCount_eq, hlength]
  | failed path reason =>
    cases h
    exact ⟨rfl, rfl, rfl, rfl⟩

end OfResult

/-- A file result of texts always has rows, and can be read off them as they are written. The rows
of any file result keep it: they are put together to the result again, without its count of parse
errors, and describe it with every type, method and stage in its place. -/
theorem ofResult_lossless :
    (∀ r : FileResult String, ∃ p, ofResult r = .ok p) ∧
    (∃ read : Value → FileResult String, ∀ r p, ofResult r = .ok p →
      read p.toValue = r.withoutFaults) ∧
    ∀ {α : Type} [Cell α] (r : FileResult α) (p : Payload α), ofResult r = .ok p →
      p.restored = r.withoutFaults ∧ p.Describes r := by
  refine ⟨fun r => ⟨_, ofResult_text r⟩, ?_, fun r p h => ?_⟩
  · have : Nonempty (Payload String) := ⟨.ofFailure "" ""⟩
    refine ⟨fun v => (Function.invFun toValue v).restored, fun r p h => ?_⟩
    have hread : Function.invFun toValue p.toValue = p :=
      Function.leftInverse_invFun toValue_injective p
    exact (congrArg restored hread).trans (restored_of_ofResult h)
  · exact ⟨restored_of_ofResult h, describes_of_ofResult h⟩

end Payload

def sampleOverloads (overloads : List (List String)) : TypeDeclaration String where
  name := "A"
  kind := .classType
  extended := []
  implemented := []
  methods := overloads.map fun types =>
    ⟨"f", "void", true, false, types.map (⟨"x", ·⟩), some "\x7b\x7d", ["g", "g"], []⟩
  fields := []

/-- Two types of one name with overloaded methods. -/
def sampleNamesakes : FileExtraction String :=
  ⟨⟨"/A.java", none, []⟩, [sampleOverloads [["int"], ["String"]], sampleOverloads [["int"]]], [], 2⟩

theorem sampleNamesakes_lossless :
    Payload.ofResult (.extracted sampleNamesakes) = .ok (rowsOf sampleNamesakes) ∧
    (rowsOf sampleNamesakes).restored = .extracted { sampleNamesakes with parseErrorCount := 0 } ∧
    (rowsOf sampleNamesakes).nodeCount = 12 ∧ (rowsOf sampleNamesakes).relationshipCount = 11 := by
  have hrows : Payload.ofResult (.extracted sampleNamesakes) = .ok (rowsOf sampleNamesakes) :=
    Payload.ofResult_text _
  obtain ⟨hrestored, -, hnodes, es, hes, hrelationships⟩ :=
    Payload.ofResult_lossless.2.2 (.extracted sampleNamesakes) _ hrows
  have hedges : Flow.edges sampleNamesakes = .ok [] := by
    simp [Flow.edges, Flow.keyed, Flow.groups, sampleNamesakes]
  have hnone : es = [] := Except.ok.inj (hes.symm.trans hedges)
  refine ⟨hrows, hrestored, hnodes.trans rfl, hrelationships.trans ?_⟩
  rw [hnone]
  rfl

end Graph

end CodeAtlas

import CodeAtlas.Proofs.Entity.Distinctness
import CodeAtlas.Proofs.Graph.Depiction
import CodeAtlas.Proofs.Graph.Rows

/-! # The graph of a file

What the graph database is to hold of a file result: a node for the file, one for each of its types,
fields, methods, calls, variables and stages, each below the node that it belongs to, and the links
between its stages. Nodes are known by what they stand for.
-/

namespace CodeAtlas.Graph

/-- A part of a file that has a node. Types, fields, methods, calls and variables are known by their
positions, and stages by their ordinals. -/
inductive Part where
  | file
  | type (i : ℕ)
  | field (i k : ℕ)
  | method (i j : ℕ)
  | call (i j k : ℕ)
  | localVariable (i j k : ℕ)
  | stage (ordinal : ℤ)
  deriving DecidableEq, Repr

structure Spot where
  path : String
  part : Part
  deriving DecidableEq, Repr

def Part.labels : Part → List String
  | .file => ["File"]
  | .type _ => ["CodeEntity", "Type"]
  | .field .. => ["CodeEntity", "Field"]
  | .method .. => ["CodeEntity", "Method"]
  | .call .. => ["CodeEntity", "Call"]
  | .localVariable .. => ["CodeEntity", "Variable"]
  | .stage _ => ["CodeEntity", "Stage"]

def fileNode (path : String) (package : Option String) (imports : List String)
    (error : Option String) : Node Spot :=
  ⟨⟨path, .file⟩, Part.file.labels, .ofFields [("path", .text path), ("package", cell? package),
    ("imports", cells imports), ("error", Payload.errorValue error)]⟩

def entityNode (path : String) (part : Part) (fields : List (String × Value)) : Node Spot :=
  ⟨⟨path, part⟩, part.labels, .ofFields (("file_path", .text path) :: fields)⟩

abbrev PlacedType := TypeDeclaration String × ℕ

abbrev PlacedMethod := PlacedType × Method String × ℕ

section Children

variable (path : String)

def typeChild (t : PlacedType) : Child Spot :=
  ⟨⟨path, .file⟩, "DECLARES", entityNode path (.type t.2) [("type_index", .int t.2),
    ("uri", .text (Uri.ofType path t.1.isInterface t.1.name t.2)), ("name", .text t.1.name),
    ("kind", .text t.1.kind.name), ("extends", cells t.1.extended),
    ("implements", cells t.1.implemented)]⟩

def fieldChild (x : PlacedType × Field String × ℕ) : Child Spot :=
  ⟨⟨path, .type x.1.2⟩, "HAS_FIELD", entityNode path (.field x.1.2 x.2.2)
    [("name", .text x.2.1.name), ("type", .text x.2.1.type), ("is_public", .bool x.2.1.isPublic),
      ("is_static", .bool x.2.1.isStatic), ("initial_value", cell? x.2.1.initialValue)]⟩

def methodChild (x : PlacedMethod) : Child Spot :=
  ⟨⟨path, .type x.1.2⟩, "HAS_METHOD", entityNode path (.method x.1.2 x.2.2)
    [("uri", .text (x.2.1.identifier path x.1.1.name)), ("name", .text x.2.1.name),
      ("return_type", .text x.2.1.returnType), ("is_public", .bool x.2.1.isPublic),
      ("is_static", .bool x.2.1.isStatic),
      ("parameter_names", cells (x.2.1.parameters.map (·.name))),
      ("parameter_types", cells x.2.1.typeTexts), ("body", cell? x.2.1.body)]⟩

def callChild (x : PlacedMethod × String × ℕ) : Child Spot :=
  ⟨⟨path, .method x.1.1.2 x.1.2.2⟩, "CALLS_NAME",
    entityNode path (.call x.1.1.2 x.1.2.2 x.2.2) [("name", .text x.2.1), ("position", .int x.2.2)]⟩

def localChild (x : PlacedMethod × LocalVariable String × ℕ) : Child Spot :=
  ⟨⟨path, .method x.1.1.2 x.1.2.2⟩, "DECLARES_VARIABLE",
    entityNode path (.localVariable x.1.1.2 x.1.2.2 x.2.2)
      [("name", .text x.2.1.name), ("type", .text x.2.1.type),
        ("initial_value", cell? x.2.1.initialValue)]⟩

def stageChild (s : Stage String) : Child Spot :=
  ⟨⟨path, .file⟩, "HAS_STAGE", entityNode path (.stage s.ordinal)
    [("uri", .text (Flow.stageId path s)), ("tag", .text s.tag.name),
      ("operation", .text s.operation), ("arguments", cells s.arguments),
      ("binding_identifier", cell? s.binding), ("line", .int s.line), ("ordinal", .int s.ordinal)]⟩

def flowLink (f : FlowEdge String) : Relationship Spot :=
  ⟨⟨path, .stage f.supplier.ordinal⟩, ⟨path, .stage f.consumer.ordinal⟩, "FLOWS_TO",
    .ofFields [("binding_identifier", .text f.binding)]⟩

end Children

def under {β γ : Type} (xs : List β) (items : β → List γ) : List (β × γ × ℕ) :=
  xs.flatMap fun x => (items x).zipIdx.map fun y => (x, y)

section Extraction

variable (e : FileExtraction String)

def placedTypes : List PlacedType := e.types.zipIdx

def placedFields : List (PlacedType × Field String × ℕ) :=
  under (placedTypes e) (·.1.fields)

def placedMethods : List PlacedMethod :=
  under (placedTypes e) (·.1.methods)

def placedCalls : List (PlacedMethod × String × ℕ) :=
  under (placedMethods e) (·.2.1.calls)

def placedLocals :
    List (PlacedMethod × LocalVariable String × ℕ) :=
  under (placedMethods e) (·.2.1.locals)

def children : List (Child Spot) :=
  (placedTypes e).map (typeChild e.path) ++ (placedFields e).map (fieldChild e.path) ++
    (placedMethods e).map (methodChild e.path) ++ (placedCalls e).map (callChild e.path) ++
    (placedLocals e).map (localChild e.path) ++ e.stages.map (stageChild e.path)

end Extraction

def PropertyGraph.single {ι : Type} (n : Node ι) : PropertyGraph ι := ⟨[n], []⟩

def subgraph : FileResult String → PropertyGraph Spot
  | .extracted e =>
    ((PropertyGraph.single (fileNode e.path e.source.package e.source.imports none)).attach
      (children e)).relate ((Flow.linksOf e.stages).map (flowLink e.path))
  | .failed path reason => .single (fileNode path none [] (some reason))

def HasDistinctOrdinals : FileResult String → Prop
  | .extracted e => (e.stages.map (·.ordinal)).Nodup
  | .failed .. => True

def Part.rank : Part → ℕ
  | .file => 0
  | .type _ => 1
  | .field .. => 2
  | .method .. => 3
  | .call .. => 4
  | .localVariable .. => 5
  | .stage _ => 6

structure RankedBelow (n : ℕ) (spots : List Spot) : Prop where
  nodup : spots.Nodup
  rank_lt : ∀ k ∈ spots, k.part.rank < n

theorem RankedBelow.append {β : Type} {n : ℕ} {spots : List Spot} {xs : List β} {f : β → Spot}
    (h : RankedBelow n spots) (hnodup : (xs.map f).Nodup) (hrank : ∀ x, (f x).part.rank = n) :
    RankedBelow (n + 1) (spots ++ xs.map f) := by
  refine ⟨List.nodup_append.mpr ⟨h.nodup, hnodup, ?_⟩, fun k hk => ?_⟩
  · rintro k hk _ hk' rfl
    obtain ⟨x, -, rfl⟩ := List.mem_map.mp hk'
    exact absurd (hrank x) (h.rank_lt _ hk).ne
  · rcases List.mem_append.mp hk with hk | hk
    · exact (h.rank_lt k hk).trans (Nat.lt_succ_self n)
    · obtain ⟨x, -, rfl⟩ := List.mem_map.mp hk
      rw [hrank x]
      exact Nat.lt_succ_self n

theorem nodup_zipIdx {β κ : Type} (xs : List β) {f : ℕ → κ} (hf : Function.Injective f) :
    (xs.zipIdx.map fun x => f x.2).Nodup := by
  have hmap : xs.zipIdx.map (fun x => f x.2) = (List.range' 0 xs.length).map f := by
    rw [← List.zipIdx_map_snd, List.map_map]
    rfl
  have hrange : (List.range' 0 xs.length).Nodup := by simp [List.nodup_range']
  rw [hmap]
  exact hrange.map hf

theorem mem_under_iff {β γ : Type} {xs : List β} {items : β → List γ} {x : β} {y : γ} {i : ℕ} :
    (x, y, i) ∈ under xs items ↔ x ∈ xs ∧ (items x)[i]? = some y := by
  simp only [under, List.mem_flatMap, List.mem_map, Prod.exists, List.mem_zipIdx_iff_getElem?,
    Prod.mk.injEq]
  constructor
  · rintro ⟨x, hx, y, i, hy, rfl, rfl, rfl⟩
    exact ⟨hx, hy⟩
  · rintro ⟨hx, hy⟩
    exact ⟨x, hx, y, i, hy, rfl, rfl, rfl⟩

theorem nodup_under {β γ κ μ : Type} {xs : List β} {items : β → List γ} {a : β → κ}
    (h : (xs.map a).Nodup) {f : κ → ℕ → μ} (hf : Function.Injective2 f) :
    ((under xs items).map fun y => f (a y.1) y.2.2).Nodup := by
  induction xs with
  | nil => simp [under]
  | cons x xs ih =>
    rw [List.map_cons, List.nodup_cons] at h
    rw [under, List.flatMap_cons, ← under, List.map_append, List.nodup_append]
    refine ⟨?_, ih h.2, ?_⟩
    · rw [List.map_map]
      exact nodup_zipIdx (items x) (hf.right (a x))
    · rintro _ hk _ hk' rfl
      obtain ⟨y, hy, rfl⟩ := List.mem_map.mp hk
      obtain ⟨y, -, rfl⟩ := List.mem_map.mp hy
      obtain ⟨⟨x', y', i⟩, hy', he⟩ := List.mem_map.mp hk'
      have hx' : a x' ∈ xs.map a := List.mem_map_of_mem (mem_under_iff.mp hy').1
      exact h.1 ((hf he).1 ▸ hx')

section Extraction

variable {e : FileExtraction String}

theorem nodup_placedTypes (e : FileExtraction String) : ((placedTypes e).map (·.2)).Nodup :=
  nodup_zipIdx e.types Function.injective_id

theorem nodup_placedMethods (e : FileExtraction String) :
    ((placedMethods e).map fun x => (x.1.2, x.2.2)).Nodup :=
  nodup_under (nodup_placedTypes e) (f := Prod.mk) fun _ _ _ _ h => Prod.mk.inj h

theorem nodup_children (h : (e.stages.map (·.ordinal)).Nodup) :
    (⟨e.path, .file⟩ :: (children e).map (·.node.id)).Nodup := by
  have htypes : ((placedTypes e).map fun t => Spot.mk e.path (.type t.2)).Nodup :=
    nodup_zipIdx e.types (f := fun i => Spot.mk e.path (.type i)) fun _ _ h => by simpa using h
  have hfields : ((placedFields e).map fun x => Spot.mk e.path (.field x.1.2 x.2.2)).Nodup :=
    nodup_under (nodup_placedTypes e) (f := fun i k => Spot.mk e.path (.field i k))
      fun _ _ _ _ h => by simpa using h
  have hmethods : ((placedMethods e).map fun x => Spot.mk e.path (.method x.1.2 x.2.2)).Nodup :=
    nodup_under (nodup_placedTypes e) (f := fun i j => Spot.mk e.path (.method i j))
      fun _ _ _ _ h => by simpa using h
  have hcalls : ((placedCalls e).map fun x =>
      Spot.mk e.path (.call x.1.1.2 x.1.2.2 x.2.2)).Nodup :=
    nodup_under (nodup_placedMethods e) (f := fun ij k => Spot.mk e.path (.call ij.1 ij.2 k))
      fun _ _ _ _ h => by simpa [Prod.ext_iff, and_assoc] using h
  have hlocals : ((placedLocals e).map fun x =>
      Spot.mk e.path (.localVariable x.1.1.2 x.1.2.2 x.2.2)).Nodup :=
    nodup_under (nodup_placedMethods e)
      (f := fun ij k => Spot.mk e.path (.localVariable ij.1 ij.2 k))
      fun _ _ _ _ h => by simpa [Prod.ext_iff, and_assoc] using h
  have hstages : (e.stages.map fun s => Spot.mk e.path (.stage s.ordinal)).Nodup := by
    have := h.map (f := fun o => Spot.mk e.path (.stage o)) fun i j h => by simpa using h
    rwa [List.map_map] at this
  have hids : (children e).map (·.node.id) =
      (placedTypes e).map (fun t => Spot.mk e.path (.type t.2)) ++
        (placedFields e).map (fun x => Spot.mk e.path (.field x.1.2 x.2.2)) ++
        (placedMethods e).map (fun x => Spot.mk e.path (.method x.1.2 x.2.2)) ++
        (placedCalls e).map (fun x => Spot.mk e.path (.call x.1.1.2 x.1.2.2 x.2.2)) ++
        (placedLocals e).map (fun x => Spot.mk e.path (.localVariable x.1.1.2 x.1.2.2 x.2.2)) ++
        e.stages.map (fun s => Spot.mk e.path (.stage s.ordinal)) := by
    simp [children, Function.comp_def, typeChild, fieldChild, methodChild, callChild, localChild,
      stageChild, entityNode]
  have hfile : RankedBelow 1 [Spot.mk e.path .file] := ⟨by simp, by simp [Part.rank]⟩
  have hall := (((((hfile.append htypes fun _ => rfl).append hfields fun _ => rfl).append hmethods
    fun _ => rfl).append hcalls fun _ => rfl).append hlocals fun _ => rfl).append hstages
    fun _ => rfl
  rw [hids]
  simpa using hall.nodup

end Extraction

/-- What queries ask of a node is what the node stands for. -/
structure StandsFor (n : Node Spot) : Prop where
  labels : n.labels = n.id.part.labels
  file : n.id.part = .file → ∃ package imports error, n = fileNode n.id.path package imports error
  entity : n.id.part ≠ .file → n.properties "file_path" = .text n.id.path
  index : ∀ i, n.id.part = .type i → n.properties "type_index" = .int i
  uri : ∀ o, n.id.part = .stage o →
    ∃ tag : StageTag, n.properties "uri" = .text (Uri.ofStage n.id.path tag.name o)

theorem standsFor_fileNode (path : String) (package : Option String) (imports : List String)
    (error : Option String) : StandsFor (fileNode path package imports error) :=
  ⟨rfl, fun _ => ⟨package, imports, error, rfl⟩, fun h => absurd rfl h, nofun, nofun⟩

section Kinds

variable (path : String)

theorem standsFor_type (t : PlacedType) : StandsFor (typeChild path t).node :=
  ⟨rfl, nofun, fun _ => rfl, fun i hi => by cases hi; rfl, nofun⟩

theorem standsFor_field (x : PlacedType × Field String × ℕ) : StandsFor (fieldChild path x).node :=
  ⟨rfl, nofun, fun _ => rfl, nofun, nofun⟩

theorem standsFor_method (x : PlacedMethod) : StandsFor (methodChild path x).node :=
  ⟨rfl, nofun, fun _ => rfl, nofun, nofun⟩

theorem standsFor_call (x : PlacedMethod × String × ℕ) : StandsFor (callChild path x).node :=
  ⟨rfl, nofun, fun _ => rfl, nofun, nofun⟩

theorem standsFor_local (x : PlacedMethod × LocalVariable String × ℕ) :
    StandsFor (localChild path x).node :=
  ⟨rfl, nofun, fun _ => rfl, nofun, nofun⟩

theorem standsFor_stage (s : Stage String) : StandsFor (stageChild path s).node :=
  ⟨rfl, nofun, fun _ => rfl, nofun, fun o ho => by cases ho; exact ⟨s.tag, rfl⟩⟩

end Kinds

/-- What holds of each kind of children holds of all that is below the node of a file. -/
theorem forall_mem_children {e : FileExtraction String} {P : Child Spot → Prop}
    (htype : ∀ t, P (typeChild e.path t)) (hfield : ∀ x, P (fieldChild e.path x))
    (hmethod : ∀ x, P (methodChild e.path x)) (hcall : ∀ x, P (callChild e.path x))
    (hlocal : ∀ x, P (localChild e.path x)) (hstage : ∀ s, P (stageChild e.path s)) :
    ∀ c ∈ children e, P c := by
  simp only [children, List.forall_mem_append, List.forall_mem_map]
  exact ⟨⟨⟨⟨⟨fun t _ => htype t, fun x _ => hfield x⟩, fun x _ => hmethod x⟩, fun x _ => hcall x⟩,
    fun x _ => hlocal x⟩, fun s _ => hstage s⟩

theorem standsFor_children (e : FileExtraction String) : ∀ c ∈ children e, StandsFor c.node :=
  forall_mem_children (standsFor_type e.path) (standsFor_field e.path) (standsFor_method e.path)
    (standsFor_call e.path) (standsFor_local e.path) (standsFor_stage e.path)

theorem path_of_mem_children (e : FileExtraction String) : ∀ c ∈ children e,
    c.parent.path = e.path ∧ c.node.id.path = e.path ∧ c.node.id.part ≠ .file := by
  apply forall_mem_children <;> exact fun _ => ⟨rfl, rfl, nofun⟩

theorem of_mem_nodes_subgraph {r : FileResult String} {n : Node Spot}
    (h : n ∈ (subgraph r).nodes) : n.id.path = r.path ∧ StandsFor n := by
  cases r with
  | extracted e =>
    rcases List.mem_append.mp h with h | h
    · obtain rfl := List.mem_singleton.mp h
      exact ⟨rfl, standsFor_fileNode ..⟩
    · obtain ⟨c, hc, rfl⟩ := List.mem_map.mp h
      exact ⟨(path_of_mem_children e _ hc).2.1, standsFor_children e _ hc⟩
  | failed path reason =>
    obtain rfl := List.mem_singleton.mp h
    exact ⟨rfl, standsFor_fileNode ..⟩

theorem of_mem_relationships_subgraph {r : FileResult String} {l : Relationship Spot}
    (h : l ∈ (subgraph r).relationships) :
    l.source.path = r.path ∧ l.target.path = r.path ∧ l.target.part ≠ .file := by
  cases r with
  | extracted e =>
    simp only [subgraph, PropertyGraph.relate, PropertyGraph.attach, PropertyGraph.single,
      List.nil_append, List.mem_append, List.mem_map] at h
    rcases h with ⟨c, hc, rfl⟩ | ⟨f, -, rfl⟩
    · exact path_of_mem_children e _ hc
    · exact ⟨rfl, rfl, by simp [flowLink]⟩
  | failed path reason => simp [subgraph, PropertyGraph.single] at h

@[simp] theorem text_bne_null (s : String) : (Value.text s != .null) = true := by simp

@[simp] theorem int_bne_null (i : ℤ) : (Value.int i != .null) = true := by simp

section Fits

variable {n : Node Spot} (h : StandsFor n) (path : String)

include h

theorem StandsFor.fits_file :
    n.fits ["File"] [("path", .text path)] = true ↔ n.id = ⟨path, .file⟩ := by
  obtain ⟨⟨nodePath, part⟩, labels, properties⟩ := n
  obtain rfl : labels = part.labels := h.labels
  cases part with
  | file =>
    obtain ⟨package, imports, error, he⟩ := h.file rfl
    have hpath : properties "path" = .text nodePath := by
      rw [fileNode, Node.mk.injEq] at he
      rw [he.2.2]
      rfl
    simp [Node.fits, Part.labels, hpath]
  | _ => simp [Node.fits, Part.labels]

theorem StandsFor.fits_entity : n.fits ["CodeEntity"] [("file_path", .text path)] =
    (decide (n.id.path = path) && decide (n.id.part ≠ .file)) := by
  obtain ⟨⟨nodePath, part⟩, labels, properties⟩ := n
  obtain rfl : labels = part.labels := h.labels
  cases part with
  | file => simp [Node.fits, Part.labels]
  | _ =>
    have hpath : properties "file_path" = .text nodePath := h.entity nofun
    simp [Node.fits, Part.labels, hpath, beq_eq_decide]

theorem StandsFor.fits_type (i : ℕ) :
    n.fits ["Type"] [("file_path", .text path), ("type_index", .int i)] = true ↔
      n.id = ⟨path, .type i⟩ := by
  obtain ⟨⟨nodePath, part⟩, labels, properties⟩ := n
  obtain rfl : labels = part.labels := h.labels
  cases part with
  | type j =>
    have hpath : properties "file_path" = .text nodePath := h.entity nofun
    have hindex : properties "type_index" = .int j := h.index j rfl
    simp [Node.fits, Part.labels, hpath, hindex]
  | _ => simp [Node.fits, Part.labels]

theorem StandsFor.of_fits_stage {tag : StageTag} {o : ℤ}
    (hfits : n.fits ["Stage"] [("file_path", .text path),
      ("uri", .text (Uri.ofStage path tag.name o))] = true) : n.id = ⟨path, .stage o⟩ := by
  obtain ⟨⟨nodePath, part⟩, labels, properties⟩ := n
  obtain rfl : labels = part.labels := h.labels
  cases part with
  | stage o' =>
    have hpath : properties "file_path" = .text nodePath := h.entity nofun
    obtain ⟨tag', huri⟩ : ∃ tag' : StageTag,
        properties "uri" = .text (Uri.ofStage nodePath tag'.name o') := h.uri o' rfl
    simp only [Node.fits, hpath, huri, List.all_cons, List.all_nil, same_text_text,
      Bool.and_true, Bool.and_eq_true, beq_iff_eq] at hfits
    obtain ⟨-, ⟨-, rfl⟩, -, he⟩ := hfits
    rw [(Uri.create_number_inj he).2]
  | _ => simp [Node.fits, Part.labels] at hfits

end Fits

theorem map_zipIdx_fst {γ δ : Type} (ys : List γ) (f : γ → δ) :
    (ys.zipIdx.map fun y => f y.1) = ys.map f := by
  have := List.map_map (g := f) (f := Prod.fst) (l := ys.zipIdx)
  rw [List.zipIdx_map_fst] at this
  exact this.symm

theorem map_under {β γ δ : Type} (xs : List β) (items : β → List γ) (f : β → γ → δ) :
    (under xs items).map (fun y => f y.1 y.2.1) = xs.flatMap fun x => (items x).map (f x) := by
  rw [under, List.map_flatMap]
  refine List.flatMap_congr fun x _ => ?_
  rw [List.map_map, ← map_zipIdx_fst (items x) (f x)]
  rfl

theorem length_under {β γ : Type} (xs : List β) (items : β → List γ) :
    (under xs items).length = (xs.flatMap items).length := by
  have := congrArg List.length (map_under xs items fun _ y => y)
  simpa using this

theorem methods_rowsOf (e : FileExtraction String) : (rowsOf e).methods =
    (placedMethods e).map fun x => methodRow e.path x.1.2 x.1.1.name x.2.1 :=
  (map_under (placedTypes e) (·.1.methods) fun t m => methodRow e.path t.2 t.1.name m).symm

def payloadOf : FileResult String → Payload String
  | .extracted e => rowsOf e
  | .failed path reason => .ofFailure path reason

theorem Payload.ofResult_text (r : FileResult String) : Payload.ofResult r = .ok (payloadOf r) := by
  cases r with
  | extracted e => exact Payload.ofExtraction_text e
  | failed path reason => rfl

theorem length_children (e : FileExtraction String) :
    (children e).length = (rowsOf e).entityCount := by
  have hfields : (placedFields e).length = ((rowsOf e).types.flatMap (·.fields)).length := by
    rw [placedFields, length_under, rowsOf, List.flatMap_map]
    rfl
  have hcalls : (placedCalls e).length = ((rowsOf e).methods.flatMap (·.calls)).length := by
    rw [placedCalls, length_under, methods_rowsOf, List.flatMap_map, List.length_flatMap,
      List.length_flatMap]
    simp [methodRow]
  have hlocals : (placedLocals e).length = ((rowsOf e).methods.flatMap (·.locals)).length := by
    rw [placedLocals, length_under, methods_rowsOf, List.flatMap_map]
    rfl
  have htypes : (placedTypes e).length = (rowsOf e).types.length := by simp [placedTypes, rowsOf]
  have hmethods : (placedMethods e).length = (rowsOf e).methods.length := by
    rw [methods_rowsOf, List.length_map]
  have hstages : e.stages.length = (rowsOf e).stages.length := by simp [rowsOf]
  simp only [children, List.length_append, List.length_map, Payload.entityCount, htypes, hfields,
    hmethods, hcalls, hlocals, hstages]

theorem length_subgraph (r : FileResult String) :
    (subgraph r).nodes.length = (payloadOf r).nodeCount ∧
      (subgraph r).relationships.length = (payloadOf r).relationshipCount := by
  cases r with
  | extracted e =>
    have hflows : (rowsOf e).flows.length = (Flow.linksOf e.stages).length := by simp [rowsOf]
    simp [subgraph, PropertyGraph.relate, PropertyGraph.attach, PropertyGraph.single, payloadOf,
      Payload.nodeCount, Payload.relationshipCount, length_children, hflows, Nat.add_comm]
  | failed path reason =>
    simp [subgraph, PropertyGraph.single, payloadOf, Payload.ofFailure, Payload.nodeCount,
      Payload.relationshipCount, Payload.entityCount]

def union (rs : List (FileResult String)) : PropertyGraph Spot :=
  ⟨rs.flatMap fun r => (subgraph r).nodes, rs.flatMap fun r => (subgraph r).relationships⟩

def others (path : String) (rs : List (FileResult String)) : List (FileResult String) :=
  rs.filter (·.path ≠ path)

theorem mem_ids_union_iff {rs : List (FileResult String)} {k : Spot} :
    k ∈ (union rs).ids ↔ ∃ r ∈ rs, k ∈ (subgraph r).ids := by
  simp only [union, PropertyGraph.ids, List.map_flatMap, List.mem_flatMap]

theorem filter_flatMap_of_forall {ρ β : Type} {items : ρ → List β} {chosen : β → Bool}
    (keep : ρ → Bool) (h : ∀ r, ∀ x ∈ items r, chosen x = keep r) (rs : List ρ) :
    (rs.flatMap items).filter chosen = (rs.filter keep).flatMap items := by
  induction rs with
  | nil => rfl
  | cons r rs ih =>
    rw [List.flatMap_cons, List.filter_append, ih]
    cases hr : keep r with
    | false =>
      have hnone : (items r).filter chosen = [] :=
        List.filter_eq_nil_iff.mpr fun x hx => by simp [h r x hx, hr]
      simp [hnone, hr]
    | true =>
      have hall : (items r).filter chosen = items r :=
        List.filter_eq_self.mpr fun x hx => by rw [h r x hx, hr]
      simp [hall, hr]

theorem filter_flatMap {β : Type} {items : FileResult String → List β} {chosen : β → Bool}
    (keep : String → Bool) (h : ∀ r, ∀ x ∈ items r, chosen x = keep r.path)
    (rs : List (FileResult String)) :
    (rs.flatMap items).filter chosen = (rs.filter fun r => keep r.path).flatMap items :=
  filter_flatMap_of_forall (fun r => keep r.path) h rs

theorem union_without (keep : String → Bool) (rs : List (FileResult String)) :
    (union rs).without (fun k => !keep k.path) = union (rs.filter fun r => keep r.path) := by
  rw [PropertyGraph.without, union, union]
  congr 1
  · refine filter_flatMap keep (fun r n hn => ?_) rs
    rw [(of_mem_nodes_subgraph hn).1, Bool.not_not]
  · refine filter_flatMap keep (fun r l hl => ?_) rs
    obtain ⟨hs, ht, -⟩ := of_mem_relationships_subgraph hl
    rw [hs, ht, Bool.not_not, Bool.and_self]

theorem PropertyGraph.IsSound.union_filter {rs : List (FileResult String)} (h : (union rs).IsSound)
    (keep : String → Bool) : (union (rs.filter fun r => keep r.path)).IsSound := by
  rw [← union_without]
  exact h.without _

end CodeAtlas.Graph

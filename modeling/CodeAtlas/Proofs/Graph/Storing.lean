import CodeAtlas.Graph.History
import CodeAtlas.Proofs.Graph.Query
import CodeAtlas.Proofs.Graph.Subgraph

/-! # Storing a file

The statements for a file result, taken together, put the graph of the result in the place of what
was held of the file. Each statement is traced on the graph that is depicted.
-/

namespace CodeAtlas.Graph

/-- The graph of the database holds a graph of spots. -/
structure Mirrors (place : Spot → ℕ) (G : PropertyGraph Spot) (g : PropertyGraph ℕ) : Prop where
  depicts : Depicts place G g
  sound : G.IsSound
  standsFor : ∀ n ∈ G.nodes, StandsFor n

theorem effects_append (ss ss' : List (Statement String)) (g : PropertyGraph ℕ) :
    effects (ss ++ ss') g = effects ss' (effects ss g) := List.foldl_append ..

@[simp] theorem effects_singleton (s : Statement String) (g : PropertyGraph ℕ) :
    effects [s] g = s.effect g := rfl

@[simp] theorem toValue_text (s : String) : Cell.toValue s = .text s := rfl

variable {place : Spot → ℕ} {G : PropertyGraph Spot} {g : PropertyGraph ℕ}

namespace Mirrors

theorem without (h : Mirrors place G g) {gone : Spot → Bool} {g' : PropertyGraph ℕ}
    (hd : Depicts place (G.without gone) g') : Mirrors place (G.without gone) g' :=
  ⟨hd, h.sound.without gone, fun n hn => h.standsFor n (List.mem_of_mem_filter hn)⟩

section Create

variable {β : Type} (ps : Value) {c : Creation} {pattern : NodePattern}
  (htarget : c.target = .made pattern) (hproperties : c.properties = [])

include htarget hproperties

theorem create (h : Mirrors place G g) (xs : List β) (row : β → Row) (child : β → Child Spot)
    (hmakes : ∀ x ∈ xs, Makes ps place c pattern (row x) (child x))
    (hparent : ∀ x ∈ xs, (child x).parent ∈ G.ids)
    (hstands : ∀ x ∈ xs, StandsFor (child x).node)
    (hnodup : (G.attach (xs.map child)).ids.Nodup) :
    ∃ place' g', (∀ k ∈ G.ids, place' k = place k) ∧ Mirrors place' (G.attach (xs.map child)) g' ∧
      (Clause.create c).run ps (g, xs.map row) =
        (g', xs.map fun x => (row x).bindNode pattern.name (place' (child x).node.id)) := by
  obtain ⟨place', hplace, hd, hrows⟩ :=
    h.depicts.create htarget hproperties xs row child h.sound hmakes hparent hnodup
  refine ⟨place', _, hplace, ⟨hd, h.sound.attach (by simpa using hparent) hnodup, fun n hn => ?_⟩,
    Prod.ext rfl hrows⟩
  rcases List.mem_append.mp hn with hn | hn
  · exact h.standsFor n hn
  · simp only [List.map_map, List.mem_map, Function.comp_apply] at hn
    obtain ⟨x, hx, rfl⟩ := hn
    exact hstands x hx

theorem forEach {γ : Type} (h : Mirrors place G g) (name : String) (list : Expression)
    (xs : List β) (row : β → Row) (items : β → List γ) (value : γ × ℕ → Value)
    (child : β × γ × ℕ → Child Spot)
    (hlist : ∀ x ∈ xs, list.value ps (row x) = .list ((items x).zipIdx.map value))
    (hmakes : ∀ y ∈ under xs items,
      Makes ps place c pattern ((row y.1).bind name (.value (value y.2))) (child y))
    (hparent : ∀ y ∈ under xs items, (child y).parent ∈ G.ids)
    (hstands : ∀ y ∈ under xs items, StandsFor (child y).node)
    (hnodup : (G.attach ((under xs items).map child)).ids.Nodup) :
    ∃ place' g', (∀ k ∈ G.ids, place' k = place k) ∧
      Mirrors place' (G.attach ((under xs items).map child)) g' ∧
      (Clause.forEach name list c).run ps (g, xs.map row) = (g', xs.map row) := by
  have hunwound : (xs.map row).flatMap (fun row => unwound ps row list name) =
      (under xs items).map fun y => (row y.1).bind name (.value (value y.2)) := by
    rw [List.flatMap_map, under, List.map_flatMap]
    refine List.flatMap_congr fun x hx => ?_
    rw [unwound, hlist x hx, itemsOf_list, List.map_map, List.map_map]
    rfl
  obtain ⟨place', g', hplace, hm, hrun⟩ := h.create ps htarget hproperties (under xs items)
    (fun y => (row y.1).bind name (.value (value y.2))) child hmakes hparent hstands hnodup
  refine ⟨place', g', hplace, hm, ?_⟩
  rw [forEach_run, hunwound]
  exact congrArg (·, xs.map row) (congrArg Prod.fst hrun)

end Create

theorem relate (h : Mirrors place G g) {ls : List (Relationship Spot)} {g' : PropertyGraph ℕ}
    (hd : Depicts place (G.relate ls) g')
    (hends : ∀ l ∈ ls, l.source ∈ G.ids ∧ l.target ∈ G.ids) : Mirrors place (G.relate ls) g' := by
  refine ⟨hd, ⟨h.sound.nodup, fun l hl => ?_⟩, h.standsFor⟩
  rcases List.mem_append.mp hl with hl | hl
  · exact h.sound.closed l hl
  · exact hends l hl

theorem matches_eq (h : Mirrors place G g) {k : Spot} (hk : k ∈ G.ids) {ps : Value} {row : Row}
    {p : NodePattern}
    (hfits : ∀ n ∈ G.nodes, n.fits p.labels (p.properties.values ps row) = true ↔ n.id = k) :
    p.matches ps g row = [place k] := by
  obtain ⟨n, hn, rfl⟩ := List.mem_map.mp hk
  exact h.depicts.matches_eq_singleton h.sound ⟨n, hn, rfl, (hfits n hn).mpr rfl⟩
    fun m hm => (hfits m hm).mp

end Mirrors

section Parameters

variable (path name : String) (rows : List Value)

@[simp] theorem memberOf_rowsOf_path :
    memberOf (Statement.parameters.rowsOf path name rows) "path" = .text path := by
  simp [Statement.parameters.rowsOf]

theorem unwound_rowsOf (hname : name ≠ "path") (item : String) (row : Row) :
    unwound (Statement.parameters.rowsOf path name rows) row (.parameter name) item =
      rows.map fun v => row.bind item (.value v) := by
  simp [unwound, Statement.parameters.rowsOf, List.lookup_cons, beq_eq_false_iff_ne.mpr hname]

theorem unwind_rowsOf_run (hname : name ≠ "path") (item : String) (row : Row) :
    (Clause.unwind (.parameter name) item).run (Statement.parameters.rowsOf path name rows)
      (g, [row]) = (g, rows.map fun v => row.bind item (.value v)) := by
  rw [unwind_run, List.flatMap_singleton, unwound_rowsOf path name rows hname]

theorem unwind_nil_run (hname : name ≠ "path") (item : String) (table : List Row) (q : Query) :
    ((Clause.unwind (.parameter name) item :: q).foldl
      (fun s c => c.run (Statement.parameters.rowsOf path name []) s) (g, table)).1 = g := by
  have hnone : (Clause.unwind (.parameter name) item).run
      (Statement.parameters.rowsOf path name []) (g, table) = (g, []) := by
    rw [unwind_run]
    simp [unwound_rowsOf path name [] hname]
  rw [List.foldl_cons, hnone]
  induction q with
  | nil => rfl
  | cons c q ih => exact ih

end Parameters

theorem Makes.entity {ps : Value} {row : Row} {c : Creation} {child : Child Spot}
    {name : Option String} {path label item : String} {keys : List String} (part : Part) (v : Value)
    (hpath : memberOf ps "path" = .text path) (hitem : row.lookup item = some (.value v))
    (hparent : row.node? c.source = some (place child.parent)) (htype : child.type = c.type)
    (hlabels : part.labels = ["CodeEntity", label])
    (hnode : child.node = entityNode path part (keys.map fun key => (key, memberOf v key))) :
    Makes ps place c (Statement.entityPattern name label item keys) row child := by
  refine ⟨hparent, htype, ?_, ?_⟩
  · rw [hnode]
    exact hlabels
  · rw [hnode]
    simp [entityNode, Statement.entityPattern, Assignments.values, hpath, hitem, Function.comp_def]

theorem deleteEntities_effect (h : Mirrors place G g) (path : String) :
    Mirrors place (G.without fun k => decide (k.path = path) && decide (k.part ≠ .file))
      ((Statement.deleteEntities path).effect g) := by
  refine h.without (h.depicts.remove_run h.sound rfl fun n hn => ?_)
  simpa [Statement.parameters, Assignments.values, List.lookup_cons] using
    (h.standsFor n hn).fits_entity path

theorem deleteFile_effect (h : Mirrors place G g) (path : String) :
    Mirrors place (G.without (· == ⟨path, .file⟩)) ((Statement.deleteFile path).effect g) := by
  refine h.without (h.depicts.remove_run h.sound rfl fun n hn => ?_)
  have hfits : n.fits ["File"] [("path", .text path)] = (n.id == ⟨path, .file⟩) := by
    rw [Bool.eq_iff_iff, (h.standsFor n hn).fits_file path, beq_iff_eq]
  simpa [Statement.parameters, Statement.filePattern, Assignments.values, List.lookup_cons] using
    hfits

theorem properties_fileNode (path : String) (package : Option String) (imports : List String)
    (error : Option String) : (fileNode path package imports error).properties =
      (Properties.ofFields [("path", .text path)]).set [("package", cell? package),
        ("imports", cells imports), ("error", Payload.errorValue error)] := by
  funext key
  simp only [fileNode, Properties.set, Properties.ofFields, List.lookup_cons, List.lookup_nil]
  by_cases hpath : key = "path"
  · subst hpath
    rfl
  · rw [beq_eq_false_iff_ne.mpr hpath]
    cases key == "package" <;> cases key == "imports" <;> cases key == "error" <;> rfl

theorem set_fileNode (path : String) (package package' : Option String)
    (imports imports' : List String) (error error' : Option String) :
    (fileNode path package' imports' error').properties.set [("package", cell? package),
      ("imports", cells imports), ("error", Payload.errorValue error)] =
        (fileNode path package imports error).properties := by
  rw [properties_fileNode, properties_fileNode]
  funext key
  simp only [Properties.set, List.lookup_cons, List.lookup_nil]
  cases key == "package" <;> cases key == "imports" <;> cases key == "error" <;> rfl

theorem mergeFile_effect (h : Mirrors place G g) (path : String) (package : Option String)
    (imports : List String) (error : Option String)
    (hapart : ∀ r ∈ G.relationships, r.source ≠ ⟨path, .file⟩ ∧ r.target ≠ ⟨path, .file⟩) :
    ∃ place', (∀ k ∈ G.ids, k ≠ ⟨path, .file⟩ → place' k = place k) ∧
      Mirrors place' ((G.without (· == ⟨path, .file⟩)).addNode
          (fileNode path package imports error))
        ((Statement.mergeFile path package imports error).effect g) := by
  have hfits (m : Node Spot) (hm : m ∈ G.nodes) :
      m.fits ["File"] [("path", .text path)] = true ↔ m.id = ⟨path, .file⟩ :=
    (h.standsFor m hm).fits_file path
  let ps := (Statement.mergeFile path package imports error).parameters
  have hpattern : Statement.filePattern.properties.values ps [] = [("path", .text path)] := by
    simp [ps, Statement.parameters, Statement.filePattern, Assignments.values]
  have hset (row : Row) : Assignments.values ps row [("package", .parameter "package"),
      ("imports", .parameter "imports"), ("error", .parameter "error")] =
        [("package", cell? package), ("imports", cells imports),
          ("error", Payload.errorValue error)] := by
    simp [ps, Statement.parameters, Assignments.values, List.lookup_cons]
  have hsame (m : Node Spot) (hm : m ∈ G.nodes) (hid : m.id = ⟨path, .file⟩) :
      { m with properties := m.properties.set [("package", cell? package),
        ("imports", cells imports), ("error", Payload.errorValue error)] } =
          fileNode path package imports error := by
    obtain ⟨package', imports', error', he⟩ := (h.standsFor m hm).file (by rw [hid])
    rw [he, set_fileNode, hid]
    rfl
  obtain ⟨place', hplace, hd⟩ := h.depicts.merge_run h.sound (p := Statement.filePattern) rfl hset
    (n := fileNode path package imports error) rfl (by rw [hpattern, properties_fileNode])
    (by rw [hpattern]; exact hfits) hsame hapart
  refine ⟨place', hplace, hd, ?_, fun n hn => ?_⟩
  · refine (h.sound.without _).addNode fun hk => ?_
    simpa [fileNode] using (PropertyGraph.mem_ids_without.mp hk).2
  · rcases List.mem_append.mp hn with hn | hn
    · exact h.standsFor n (List.mem_of_mem_filter hn)
    · rw [List.mem_singleton.mp hn]
      exact standsFor_fileNode path package imports error

theorem nodup_of_attach_append {cs ds : List (Child Spot)} (h : (G.attach (cs ++ ds)).ids.Nodup) :
    (G.attach cs).ids.Nodup := by
  rw [PropertyGraph.attach_append, PropertyGraph.ids_attach] at h
  exact h.of_append_left

theorem mem_ids_attach {cs : List (Child Spot)} {k : Spot} (h : k ∈ G.ids) :
    k ∈ (G.attach cs).ids := by
  rw [PropertyGraph.ids_attach]
  exact List.mem_append_left _ h

theorem mem_ids_of_child {cs : List (Child Spot)} {c : Child Spot} (h : c ∈ cs) :
    c.node.id ∈ (G.attach cs).ids := by
  rw [PropertyGraph.ids_attach]
  exact List.mem_append_right _ (List.mem_map_of_mem h)

theorem Mirrors.find_file_run (h : Mirrors place G g) {path : String}
    (hfile : ⟨path, .file⟩ ∈ G.ids)
    (name : String) (rows : List Value) :
    (Clause.find Statement.filePattern).run (Statement.parameters.rowsOf path name rows)
      (g, [[]]) = (g, [Row.bind [] "f" (.node (place ⟨path, .file⟩))]) := by
  have hmatches : Statement.filePattern.matches (Statement.parameters.rowsOf path name rows) g [] =
      [place ⟨path, .file⟩] := by
    refine h.matches_eq hfile fun n hn => ?_
    simpa [Statement.filePattern, Assignments.values] using (h.standsFor n hn).fits_file path
  have hname : Statement.filePattern.name = some "f" := rfl
  simp [Clause.run, overRows, Clause.step, hmatches, hname]

section Extraction

variable (e : FileExtraction String)

theorem createTypes_effect (h : Mirrors place G g) (hfile : ⟨e.path, .file⟩ ∈ G.ids)
    (hnodup : (G.attach ((placedTypes e).map (typeChild e.path) ++
      (placedFields e).map (fieldChild e.path))).ids.Nodup) :
    ∃ place', (∀ k ∈ G.ids, place' k = place k) ∧
      Mirrors place' (G.attach ((placedTypes e).map (typeChild e.path) ++
          (placedFields e).map (fieldChild e.path)))
        ((Statement.createTypes e.path (rowsOf e).types).effect g) := by
  let ps := (Statement.createTypes e.path (rowsOf e).types).parameters
  let row (t : PlacedType) : Row :=
    (Row.bind [] "f" (.node (place ⟨e.path, .file⟩))).bind "t"
      (.value (typeRow e.path t.2 t.1).toValue)
  have hpath : memberOf ps "path" = .text e.path := memberOf_rowsOf_path ..
  have hfind : (Clause.find Statement.filePattern).run ps (g, [[]]) =
      (g, [Row.bind [] "f" (.node (place ⟨e.path, .file⟩))]) := h.find_file_run hfile ..
  have hunwind : (Clause.unwind (.parameter "types") "t").run ps
      (g, [Row.bind [] "f" (.node (place ⟨e.path, .file⟩))]) = (g, (placedTypes e).map row) := by
    refine (unwind_rowsOf_run e.path "types" _ (by decide) ..).trans ?_
    simp [rowsOf, placedTypes, row]
  obtain ⟨place₁, g₁, hplace₁, h₁, hcreate⟩ := h.create ps (c := Statement.typeCreation) rfl rfl
    (placedTypes e) row (typeChild e.path)
    (fun t _ => .entity (.type t.2) (typeRow e.path t.2 t.1).toValue hpath (by simp [row])
      (by simp [row, typeChild, Statement.typeCreation]) rfl rfl
      (by simp [typeChild, typeRow, TypeRow.toValue, List.lookup_cons]))
    (fun _ _ => hfile) (fun t _ => standsFor_type e.path t) (nodup_of_attach_append hnodup)
  rw [PropertyGraph.attach_append] at hnodup ⊢
  obtain ⟨place₂, g₂, hplace₂, h₂, hforEach⟩ := h₁.forEach ps (c := Statement.fieldCreation) rfl rfl
    "fd" (.member "t" "fields") (placedTypes e)
    (fun t => (row t).bind "ty" (.node (place₁ (typeChild e.path t).node.id)))
    (·.1.fields) (fun y => fieldValue y.1) (fieldChild e.path)
    (fun t _ => by
      rw [map_zipIdx_fst t.1.fields fieldValue]
      simp [row, TypeRow.toValue, typeRow, List.lookup_cons])
    (fun y _ => .entity (.field y.1.2 y.2.2) (fieldValue y.2.1) hpath (by simp)
      (by simp [fieldChild, typeChild, entityNode, Statement.fieldCreation]) rfl rfl
      (by simp [fieldChild, fieldValue, List.lookup_cons]))
    (fun y hy => mem_ids_of_child (List.mem_map_of_mem (mem_under_iff.mp hy).1))
    (fun y _ => standsFor_field e.path y) hnodup
  refine ⟨place₂, fun k hk => (hplace₂ k (mem_ids_attach hk)).trans (hplace₁ k hk), ?_⟩
  have heffect : (Statement.createTypes e.path (rowsOf e).types).effect g = g₂ := by
    rw [Statement.effect, Statement.query, Query.run, List.foldl_cons, hfind, List.foldl_cons,
      hunwind, List.foldl_cons, hcreate, List.foldl_cons]
    exact congrArg Prod.fst hforEach
  rw [heffect]
  exact h₂

structure HoldsMethod (path : String) (place : Spot → ℕ) (x : PlacedMethod) (row : Row) : Prop where
  value : row.lookup "m" = some (.value (methodRow path x.1.2 x.1.1.name x.2.1).toValue)
  node : row.node? "me" = some (place (methodChild path x).node.id)

section Members

variable {ps : Value} (hpath : memberOf ps "path" = .text e.path) {row : PlacedMethod → Row}
  (hrow : ∀ x ∈ placedMethods e, HoldsMethod e.path place x (row x))
  (hmethods : ∀ x ∈ placedMethods e, (methodChild e.path x).node.id ∈ G.ids)

include hpath hrow hmethods

theorem createCalls_run (h : Mirrors place G g)
    (hnodup : (G.attach ((placedCalls e).map (callChild e.path))).ids.Nodup) :
    ∃ place' g', (∀ k ∈ G.ids, place' k = place k) ∧
      Mirrors place' (G.attach ((placedCalls e).map (callChild e.path))) g' ∧
      (Clause.forEach "c" (.member "m" "calls") Statement.callCreation).run ps
        (g, (placedMethods e).map row) = (g', (placedMethods e).map row) :=
  h.forEach ps (c := Statement.callCreation) rfl rfl "c" (.member "m" "calls") (placedMethods e)
    row (·.2.1.calls) (fun y => (CallRow.mk y.1 y.2).toValue) (callChild e.path)
    (fun x hx => by
      simp [(hrow x hx).value, methodRow, MethodRow.toValue, List.lookup_cons,
        List.mapIdx_eq_zipIdx_map])
    (fun y hy => .entity (.call y.1.1.2 y.1.2.2 y.2.2) (CallRow.mk y.2.1 y.2.2).toValue hpath
      (by simp)
      (by simp [(hrow y.1 (mem_under_iff.mp hy).1).node, callChild, methodChild, entityNode,
        Statement.callCreation]) rfl rfl
      (by simp [callChild, CallRow.toValue, List.lookup_cons]))
    (fun y hy => hmethods y.1 (mem_under_iff.mp hy).1)
    (fun y _ => standsFor_call e.path y) hnodup

theorem createLocals_run (h : Mirrors place G g)
    (hnodup : (G.attach ((placedLocals e).map (localChild e.path))).ids.Nodup) :
    ∃ place' g', (∀ k ∈ G.ids, place' k = place k) ∧
      Mirrors place' (G.attach ((placedLocals e).map (localChild e.path))) g' ∧
      (Clause.forEach "v" (.member "m" "variables") Statement.localCreation).run ps
        (g, (placedMethods e).map row) = (g', (placedMethods e).map row) :=
  h.forEach ps (c := Statement.localCreation) rfl rfl "v" (.member "m" "variables")
    (placedMethods e) row (·.2.1.locals) (fun y => variableValue y.1) (localChild e.path)
    (fun x hx => by
      rw [map_zipIdx_fst x.2.1.locals variableValue]
      simp [(hrow x hx).value, methodRow, MethodRow.toValue, List.lookup_cons])
    (fun y hy => .entity (.localVariable y.1.1.2 y.1.2.2 y.2.2) (variableValue y.2.1) hpath
      (by simp)
      (by simp [(hrow y.1 (mem_under_iff.mp hy).1).node, localChild, methodChild, entityNode,
        Statement.localCreation]) rfl rfl
      (by simp [localChild, variableValue, List.lookup_cons]))
    (fun y hy => hmethods y.1 (mem_under_iff.mp hy).1)
    (fun y _ => standsFor_local e.path y) hnodup

end Members

theorem createMethods_effect (h : Mirrors place G g)
    (htypes : ∀ t ∈ placedTypes e, ⟨e.path, .type t.2⟩ ∈ G.ids)
    (hnodup : (G.attach ((placedMethods e).map (methodChild e.path) ++
      ((placedCalls e).map (callChild e.path) ++
        (placedLocals e).map (localChild e.path)))).ids.Nodup) :
    ∃ place', (∀ k ∈ G.ids, place' k = place k) ∧
      Mirrors place' (G.attach ((placedMethods e).map (methodChild e.path) ++
          ((placedCalls e).map (callChild e.path) ++ (placedLocals e).map (localChild e.path))))
        ((Statement.createMethods e.path (rowsOf e).methods).effect g) := by
  let ps := (Statement.createMethods e.path (rowsOf e).methods).parameters
  let value (x : PlacedMethod) : Value := (methodRow e.path x.1.2 x.1.1.name x.2.1).toValue
  let row (x : PlacedMethod) : Row :=
    (Row.bind [] "m" (.value (value x))).bind "ty" (.node (place ⟨e.path, .type x.1.2⟩))
  have hpath : memberOf ps "path" = .text e.path := memberOf_rowsOf_path ..
  have hparents : ∀ x ∈ placedMethods e, ⟨e.path, .type x.1.2⟩ ∈ G.ids :=
    fun x hx => htypes x.1 (mem_under_iff.mp hx).1
  have hunwind : (Clause.unwind (.parameter "methods") "m").run ps (g, [[]]) =
      (g, (placedMethods e).map fun x => Row.bind [] "m" (.value (value x))) := by
    refine (unwind_rowsOf_run e.path "methods" _ (by decide) ..).trans ?_
    simp [methods_rowsOf, value]
  have hfind : (Clause.find ⟨some "ty", ["Type"], [("file_path", .parameter "path"),
      ("type_index", .member "m" "type_index")]⟩).run ps
        (g, (placedMethods e).map fun x => Row.bind [] "m" (.value (value x))) =
          (g, (placedMethods e).map row) := by
    refine find_run ps fun x hx => h.matches_eq (hparents x hx) fun n hn => ?_
    simpa [Assignments.values, hpath, value, methodRow, MethodRow.toValue] using
      (h.standsFor n hn).fits_type e.path x.1.2
  obtain ⟨place₁, g₁, hplace₁, h₁, hcreate⟩ := h.create ps (c := Statement.methodCreation) rfl rfl
    (placedMethods e) row (methodChild e.path)
    (fun x _ => .entity (.method x.1.2 x.2.2) (value x) hpath (by simp [row])
      (by simp [row, methodChild, Statement.methodCreation]) rfl rfl
      (by simp [methodChild, value, methodRow, MethodRow.toValue, List.lookup_cons]))
    hparents (fun x _ => standsFor_method e.path x) (nodup_of_attach_append hnodup)
  rw [PropertyGraph.attach_append] at hnodup ⊢
  let row₁ (x : PlacedMethod) : Row :=
    (row x).bind "me" (.node (place₁ (methodChild e.path x).node.id))
  have hmade : (Clause.create Statement.methodCreation).run ps (g, (placedMethods e).map row) =
      (g₁, (placedMethods e).map row₁) := hcreate
  have hmethods : ∀ x ∈ placedMethods e, (methodChild e.path x).node.id ∈
      (G.attach ((placedMethods e).map (methodChild e.path))).ids :=
    fun x hx => mem_ids_of_child (List.mem_map_of_mem hx)
  have hrow₁ : ∀ x ∈ placedMethods e, HoldsMethod e.path place₁ x (row₁ x) :=
    fun x _ => ⟨by simp [row₁, row, value], by simp [row₁]⟩
  obtain ⟨place₂, g₂, hplace₂, h₂, hcalls⟩ :=
    createCalls_run e hpath hrow₁ hmethods h₁ (nodup_of_attach_append hnodup)
  rw [PropertyGraph.attach_append] at hnodup ⊢
  have hrow₂ : ∀ x ∈ placedMethods e, HoldsMethod e.path place₂ x (row₁ x) := fun x hx =>
    ⟨(hrow₁ x hx).value, (hplace₂ _ (hmethods x hx)) ▸ (hrow₁ x hx).node⟩
  obtain ⟨place₃, g₃, hplace₃, h₃, hlocals⟩ := createLocals_run e hpath hrow₂
    (fun x hx => mem_ids_attach (hmethods x hx)) h₂ hnodup
  refine ⟨place₃, fun k hk => ?_, ?_⟩
  · rw [hplace₃ k (mem_ids_attach (mem_ids_attach hk)), hplace₂ k (mem_ids_attach hk), hplace₁ k hk]
  · have heffect : (Statement.createMethods e.path (rowsOf e).methods).effect g = g₃ := by
      rw [Statement.effect, Statement.query, Query.run, List.foldl_cons, hunwind, List.foldl_cons,
        hfind, List.foldl_cons, hmade, List.foldl_cons, hcalls, List.foldl_cons]
      exact congrArg Prod.fst hlocals
    rw [heffect]
    exact h₃

theorem createStages_effect (h : Mirrors place G g) (hfile : ⟨e.path, .file⟩ ∈ G.ids)
    (hnodup : (G.attach (e.stages.map (stageChild e.path))).ids.Nodup) :
    ∃ place', (∀ k ∈ G.ids, place' k = place k) ∧
      Mirrors place' (G.attach (e.stages.map (stageChild e.path)))
        ((Statement.createStages e.path (rowsOf e).stages).effect g) := by
  let ps := (Statement.createStages e.path (rowsOf e).stages).parameters
  let row (s : Stage String) : Row :=
    (Row.bind [] "f" (.node (place ⟨e.path, .file⟩))).bind "s"
      (.value (StageRow.of e.path s).toValue)
  have hpath : memberOf ps "path" = .text e.path := memberOf_rowsOf_path ..
  have hfind : (Clause.find Statement.filePattern).run ps (g, [[]]) =
      (g, [Row.bind [] "f" (.node (place ⟨e.path, .file⟩))]) := h.find_file_run hfile ..
  have hunwind : (Clause.unwind (.parameter "stages") "s").run ps
      (g, [Row.bind [] "f" (.node (place ⟨e.path, .file⟩))]) = (g, e.stages.map row) := by
    refine (unwind_rowsOf_run e.path "stages" _ (by decide) ..).trans ?_
    simp [rowsOf, row]
  obtain ⟨place', g', hplace, hm, hcreate⟩ := h.create ps (c := Statement.stageCreation) rfl rfl
    e.stages row (stageChild e.path)
    (fun s _ => .entity (.stage s.ordinal) (StageRow.of e.path s).toValue hpath (by simp [row])
      (by simp [row, stageChild, Statement.stageCreation]) rfl rfl
      (by simp [stageChild, StageRow.of, StageRow.toValue, List.lookup_cons]))
    (fun _ _ => hfile) (fun s _ => standsFor_stage e.path s) hnodup
  refine ⟨place', hplace, ?_⟩
  have heffect : (Statement.createStages e.path (rowsOf e).stages).effect g = g' := by
    rw [Statement.effect, Statement.query, Query.run, List.foldl_cons, hfind, List.foldl_cons,
      hunwind, List.foldl_cons]
    exact congrArg Prod.fst hcreate
  rw [heffect]
  exact hm

theorem Mirrors.matches_stage (h : Mirrors place G g) {path : String} {s : Stage String}
    (hs : (stageChild path s).node ∈ G.nodes) {ps v : Value} {row : Row} (name : String)
    {key : String} (hpath : memberOf ps "path" = .text path)
    (hrow : row.lookup "e" = some (.value v))
    (hkey : memberOf v key = .text (Flow.stageId path s)) :
    (Statement.stagePattern name key).matches ps g row = [place ⟨path, .stage s.ordinal⟩] := by
  have hvalues : (Statement.stagePattern name key).properties.values ps row =
      [("file_path", .text path), ("uri", .text (Flow.stageId path s))] := by
    simp [Statement.stagePattern, Assignments.values, hpath, hrow, hkey]
  refine h.depicts.matches_eq_singleton h.sound ⟨_, hs, rfl, ?_⟩ fun n hn hfits => ?_
  · rw [hvalues]
    simp [Node.fits, Statement.stagePattern, stageChild, entityNode, Part.labels,
      Properties.ofFields, List.lookup_cons]
  · rw [hvalues] at hfits
    exact (h.standsFor n hn).of_fits_stage path hfits

theorem createFlows_effect (h : Mirrors place G g)
    (hstages : ∀ s ∈ e.stages, (stageChild e.path s).node ∈ G.nodes) :
    Mirrors place (G.relate ((Flow.linksOf e.stages).map (flowLink e.path)))
      ((Statement.createFlows e.path (rowsOf e).flows).effect g) := by
  let ps := (Statement.createFlows e.path (rowsOf e).flows).parameters
  let row (f : FlowEdge String) : Row := Row.bind [] "e" (.value (FlowRow.of e.path f).toValue)
  let row₁ (f : FlowEdge String) : Row :=
    (row f).bind "up" (.node (place ⟨e.path, .stage f.supplier.ordinal⟩))
  let row₂ (f : FlowEdge String) : Row :=
    (row₁ f).bind "down" (.node (place ⟨e.path, .stage f.consumer.ordinal⟩))
  have hpath : memberOf ps "path" = .text e.path := memberOf_rowsOf_path ..
  have hends : ∀ f ∈ Flow.linksOf e.stages, (stageChild e.path f.supplier).node ∈ G.nodes ∧
      (stageChild e.path f.consumer).node ∈ G.nodes := fun f hf =>
    ⟨hstages _ (Flow.of_mem_linksOf hf).1, hstages _ (Flow.of_mem_linksOf hf).2⟩
  have hunwind : (Clause.unwind (.parameter "edges") "e").run ps (g, [[]]) =
      (g, (Flow.linksOf e.stages).map row) := by
    refine (unwind_rowsOf_run e.path "edges" _ (by decide) ..).trans ?_
    simp [rowsOf, row]
  have hup : (Clause.find (Statement.stagePattern "up" "upstream")).run ps
      (g, (Flow.linksOf e.stages).map row) = (g, (Flow.linksOf e.stages).map row₁) :=
    find_run ps fun f hf => h.matches_stage (hends f hf).1 "up" hpath (by simp [row]; rfl)
      (by simp [FlowRow.of, FlowRow.toValue])
  have hdown : (Clause.find (Statement.stagePattern "down" "downstream")).run ps
      (g, (Flow.linksOf e.stages).map row₁) = (g, (Flow.linksOf e.stages).map row₂) :=
    find_run ps fun f hf => h.matches_stage (hends f hf).2 "down" hpath (by simp [row₁, row]; rfl)
      (by simp [FlowRow.of, FlowRow.toValue, List.lookup_cons])
  have hcreate := h.depicts.relate ps (c := Statement.flowCreation) rfl
    (Flow.linksOf e.stages) row₂ (flowLink e.path) fun f _ =>
      ⟨by simp [row₂, row₁, Statement.flowCreation, flowLink], by simp [row₂, flowLink], rfl, by
        simp [row₂, row₁, row, flowLink, Statement.flowCreation, Assignments.values, FlowRow.of,
          FlowRow.toValue, List.lookup_cons]⟩
  have heffect : (Statement.createFlows e.path (rowsOf e).flows).effect g =
      (overRows (Statement.flowCreation.step ps) g ((Flow.linksOf e.stages).map row₂)).1 := by
    rw [Statement.effect, Statement.query, Query.run, List.foldl_cons, hunwind, List.foldl_cons,
      hup, List.foldl_cons, hdown, List.foldl_cons]
    rfl
  rw [heffect]
  refine h.relate hcreate fun l hl => ?_
  obtain ⟨f, hf, rfl⟩ := List.mem_map.mp hl
  exact ⟨PropertyGraph.mem_ids (hends f hf).1, PropertyGraph.mem_ids (hends f hf).2⟩

end Extraction

theorem effects_unlessEmpty {ρ : Type} {statement : List ρ → Statement String}
    (hnone : ∀ g, (statement []).effect g = g) (rows : List ρ) (g : PropertyGraph ℕ) :
    effects (Payload.unlessEmpty statement rows) g = (statement rows).effect g := by
  cases rows with
  | nil => exact (hnone g).symm
  | cons => rfl

theorem effects_statements (p : Payload String) (g : PropertyGraph ℕ) :
    effects p.statements g = effects [.createTypes p.path p.types, .createMethods p.path p.methods,
      .createStages p.path p.stages, .createFlows p.path p.flows]
        (effects [.deleteEntities p.path, .mergeFile p.path p.package p.imports p.error] g) := by
  have htypes : ∀ g, (Statement.createTypes p.path []).effect g = g :=
    fun g => unwind_nil_run p.path "types" (by decide) ..
  have hmethods : ∀ g, (Statement.createMethods p.path []).effect g = g :=
    fun g => unwind_nil_run p.path "methods" (by decide) ..
  have hstages : ∀ g, (Statement.createStages p.path []).effect g = g :=
    fun g => unwind_nil_run p.path "stages" (by decide) ..
  have hflows : ∀ g, (Statement.createFlows p.path []).effect g = g :=
    fun g => unwind_nil_run p.path "edges" (by decide) ..
  rw [Payload.statements, effects_append, effects_append, effects_append, effects_append,
    effects_unlessEmpty htypes, effects_unlessEmpty hmethods, effects_unlessEmpty hstages,
    effects_unlessEmpty hflows]
  rfl

section Results

variable {rs : List (FileResult String)}

/-- Nothing of a file is left where its node and all that belongs to it are removed. -/
theorem union_without_file (path : String) :
    ((union rs).without fun k => decide (k.path = path) && decide (k.part ≠ .file)).without
      (· == ⟨path, .file⟩) = union (others path rs) := by
  rw [PropertyGraph.without_without, others, ← union_without fun path' => decide (path' ≠ path)]
  congr 1
  funext ⟨path', part⟩
  by_cases hpath : path' = path <;> by_cases hpart : part = .file <;> simp [hpath, hpart]

theorem removal_effect (h : Mirrors place (union rs) g) (path : String) :
    Mirrors place (union (others path rs)) (effects (Statement.removal path) g) := by
  rw [← union_without_file path]
  exact deleteFile_effect (deleteEntities_effect h path) path

theorem replace_effect (h : Mirrors place (union rs) g) (path : String) (package : Option String)
    (imports : List String) (error : Option String) :
    ∃ place', (∀ k ∈ (union (others path rs)).ids, place' k = place k) ∧
      Mirrors place' ((union (others path rs)).addNode (fileNode path package imports error))
        (effects [.deleteEntities path, .mergeFile path package imports error] g) := by
  -- The relationships at the node of the file led to what belonged to it.
  have hapart : ∀ l ∈ ((union rs).without fun k =>
      decide (k.path = path) && decide (k.part ≠ .file)).relationships,
        l.source ≠ ⟨path, .file⟩ ∧ l.target ≠ ⟨path, .file⟩ := by
    intro l hl
    simp only [PropertyGraph.without, List.mem_filter, Bool.and_eq_true, Bool.not_eq_true',
      Bool.and_eq_false_iff, decide_eq_false_iff_not, not_not] at hl
    obtain ⟨hl, -, ht⟩ := hl
    obtain ⟨r, -, hr⟩ := List.mem_flatMap.mp hl
    obtain ⟨hsource, htarget, hpart⟩ := of_mem_relationships_subgraph hr
    have hpath : l.target.path ≠ path := ht.resolve_right hpart
    constructor
    · rintro he
      rw [htarget, ← hsource, he] at hpath
      exact hpath rfl
    · rintro he
      rw [he] at hpath
      exact hpath rfl
  obtain ⟨place', hplace, hm⟩ :=
    mergeFile_effect (deleteEntities_effect h path) path package imports error hapart
  rw [union_without_file path] at hm
  refine ⟨place', fun k hk => hplace k ?_ ?_, hm⟩
  · rw [← union_without_file path] at hk
    exact (PropertyGraph.mem_ids_without.mp hk).1
  · rw [← union_without_file path] at hk
    simpa using (PropertyGraph.mem_ids_without.mp hk).2

theorem union_append_failed (path reason : String) : union (rs ++ [.failed path reason]) =
    (union rs).addNode (fileNode path none [] (some reason)) := by
  simp [union, subgraph, PropertyGraph.single, PropertyGraph.addNode]

theorem union_append_extracted (e : FileExtraction String) : union (rs ++ [.extracted e]) =
    (((union rs).addNode (fileNode e.path e.source.package e.source.imports none)).attach
      (children e)).relate ((Flow.linksOf e.stages).map (flowLink e.path)) := by
  simp [union, subgraph, PropertyGraph.single, PropertyGraph.addNode, PropertyGraph.attach,
    PropertyGraph.relate]

theorem nodup_attach_children {e : FileExtraction String} {n : Node Spot}
    (hrs : (union (others e.path rs)).ids.Nodup) (hn : n.id = ⟨e.path, .file⟩)
    (hordinals : (e.stages.map (·.ordinal)).Nodup) :
    (((union (others e.path rs)).addNode n).attach (children e)).ids.Nodup := by
  have hids : (((union (others e.path rs)).addNode n).attach (children e)).ids =
      (union (others e.path rs)).ids ++ ⟨e.path, .file⟩ :: (children e).map (·.node.id) := by
    simp [hn]
  rw [hids, List.nodup_append]
  refine ⟨hrs, nodup_children hordinals, ?_⟩
  rintro k hk _ hk' rfl
  have hother : k.path ≠ e.path := by
    obtain ⟨r, hr, hk⟩ := mem_ids_union_iff.mp hk
    obtain ⟨n, hn, rfl⟩ := List.mem_map.mp hk
    rw [(of_mem_nodes_subgraph hn).1]
    simpa [others] using (List.mem_filter.mp hr).2
  rcases List.mem_cons.mp hk' with rfl | hk'
  · exact hother rfl
  · obtain ⟨c, hc, rfl⟩ := List.mem_map.mp hk'
    exact hother (path_of_mem_children e _ hc).2.1

theorem children_effect {e : FileExtraction String} (h : Mirrors place G g)
    (hfile : ⟨e.path, .file⟩ ∈ G.ids) (hnodup : (G.attach (children e)).ids.Nodup) :
    ∃ place', (∀ k ∈ G.ids, place' k = place k) ∧
      Mirrors place' ((G.attach (children e)).relate
          ((Flow.linksOf e.stages).map (flowLink e.path)))
        (effects [.createTypes e.path (rowsOf e).types, .createMethods e.path (rowsOf e).methods,
          .createStages e.path (rowsOf e).stages, .createFlows e.path (rowsOf e).flows] g) := by
  have hsplit : children e = (placedTypes e).map (typeChild e.path) ++
      (placedFields e).map (fieldChild e.path) ++ ((placedMethods e).map (methodChild e.path) ++
        ((placedCalls e).map (callChild e.path) ++ (placedLocals e).map (localChild e.path))) ++
      e.stages.map (stageChild e.path) := by
    simp [children]
  rw [hsplit] at hnodup ⊢
  have hthree := nodup_of_attach_append hnodup
  obtain ⟨place₁, hplace₁, h₁⟩ := createTypes_effect e h hfile (nodup_of_attach_append hthree)
  rw [PropertyGraph.attach_append] at hthree
  obtain ⟨place₂, hplace₂, h₂⟩ := createMethods_effect e h₁
    (fun t ht => mem_ids_of_child (c := typeChild e.path t)
      (List.mem_append_left _ (List.mem_map_of_mem ht))) hthree
  rw [PropertyGraph.attach_append, PropertyGraph.attach_append] at hnodup ⊢
  obtain ⟨place₃, hplace₃, h₃⟩ :=
    createStages_effect e h₂ (mem_ids_attach (mem_ids_attach hfile)) hnodup
  refine ⟨place₃, fun k hk => ?_, createFlows_effect e h₃ fun s hs => ?_⟩
  · rw [hplace₃ k (mem_ids_attach (mem_ids_attach hk)), hplace₂ k (mem_ids_attach hk), hplace₁ k hk]
  · rw [PropertyGraph.attach]
    exact List.mem_append_right _ (List.mem_map_of_mem (List.mem_map_of_mem hs))

/-- What was held of a file gives way to the graph of a result. The other files are as before. -/
theorem statements_effect (h : Mirrors place (union rs) g) (r : FileResult String)
    (hordinals : HasDistinctOrdinals r) :
    ∃ place', (∀ k ∈ (union (others r.path rs)).ids, place' k = place k) ∧
      Mirrors place' (union (others r.path rs ++ [r])) (effects (payloadOf r).statements g) := by
  cases r with
  | failed path reason =>
    rw [union_append_failed]
    exact replace_effect h path none [] (some reason)
  | extracted e =>
    rw [union_append_extracted, effects_statements]
    obtain ⟨place₁, hplace₁, h₁⟩ :=
      replace_effect h e.path e.source.package e.source.imports none
    have hothers : (union (others e.path rs)).IsSound :=
      h.sound.union_filter fun path => decide (path ≠ e.path)
    obtain ⟨place₂, hplace₂, h₂⟩ := children_effect h₁ (by simp [fileNode])
      (nodup_attach_children hothers.nodup rfl hordinals)
    refine ⟨place₂, fun k hk => ?_, h₂⟩
    have hk' : k ∈ ((union (others e.path rs)).addNode
        (fileNode e.path e.source.package e.source.imports none)).ids := by
      rw [PropertyGraph.ids_addNode]
      exact List.mem_append_left _ hk
    exact (hplace₂ k hk').trans (hplace₁ k hk)

end Results

end CodeAtlas.Graph

import CodeAtlas.Proofs.Entity.Distinctness
import CodeAtlas.Proofs.Index.Searching
import CodeAtlas.Proofs.Pipeline.Links

/-! # One entity, one identifier

The rows of a file, its outline, the matches of a search, the graph of its stages and the summary of
their flow all speak of the same types, methods, stages and links, under the same identifiers.
-/

namespace CodeAtlas

namespace Value

def items (v : Value) (key : String) : List Value :=
  match v.at? [.field key] with
  | some (.list xs) => xs
  | _ => []

def column (v : Value) (table key : String) : List (Option Value) :=
  (v.items table).map (·.at? [.field key])

theorem items_ofFields {fields : List (String × Value)} {key : String} {xs : List Value}
    (h : fields.lookup key = some (.list xs)) : (ofFields fields).items key = xs := by
  rw [items, at?_field, h]
  rfl

theorem items_ofFields_of_none {fields : List (String × Value)} {key : String}
    (h : fields.lookup key = none) : (ofFields fields).items key = [] := by
  rw [items, at?_field, h]
  rfl

end Value

theorem Answer.items_toValue {a : Answer} {key : String} {xs : List Value}
    (h : a.fields.lookup key = some (.list xs)) : a.toValue.items key = xs := by
  refine Value.items_ofFields ?_
  rw [List.lookup_append, h]
  rfl

namespace Index

/-- The ends of a link, each where some steps lead to its identifier, and the binding. -/
def linkAt (l : Value) (id : List Value.Step) (binding : String) :
    Option Value × Option Value × Option Value :=
  (l.at? (.field "upstream" :: id), l.at? (.field "downstream" :: id), l.at? [.field binding])

section Identifiers

variable (e : FileExtraction String)

def typeIds : List (Option Value) :=
  e.types.zipIdx.map fun (t, i) => some (.text (Uri.ofType e.path t.isInterface t.name i))

def methodIds : List (Option Value) :=
  e.types.flatMap fun t => t.methods.map fun m => some (.text (m.identifier e.path t.name))

def stageIds : List (Option Value) :=
  e.stages.map fun s => some (.text (Flow.stageId e.path s))

def linkIds : List (Option Value × Option Value × Option Value) :=
  (Flow.linksOf e.stages).map fun l => (some (.text (Flow.stageId e.path l.supplier)),
    some (.text (Flow.stageId e.path l.consumer)), some (.text l.binding))

end Identifiers

theorem flatMap_zipIdx {β γ : Type} (xs : List β) (f : β → List γ) :
    (xs.zipIdx.flatMap fun x => f x.1) = xs.flatMap f := by
  rw [List.flatMap_def, List.flatMap_def, ← Graph.map_zipIdx_fst xs f]

section Outline

variable (path : String)

theorem at?_id_outlineOf (t : TypeDeclaration String) (i : ℕ) :
    (outlineOf path t i).at? [.field "id"] =
      some (.text (Uri.ofType path t.isInterface t.name i)) := by
  simp [outlineOf]

theorem at?_name_outlineOf (t : TypeDeclaration String) (i : ℕ) :
    (outlineOf path t i).at? [.field "name"] = some (.text t.name) := by
  simp [outlineOf, List.lookup_cons]

theorem column_methods_outlineOf (t : TypeDeclaration String) (i : ℕ) :
    (outlineOf path t i).column "methods" "id" =
      t.methods.map fun m => some (.text (m.identifier path t.name)) := by
  rw [Value.column, outlineOf, Value.items_ofFields rfl, List.map_map]
  exact List.map_congr_left fun m _ => by simp [summaryFields]

theorem column_classes {outline : Value} {e : FileExtraction String}
    (h : outline.items "classes" = e.types.zipIdx.map fun (t, i) => outlineOf e.path t i) :
    outline.column "classes" "id" = typeIds e := by
  rw [Value.column, h, List.map_map]
  exact List.map_congr_left fun (t, i) _ => at?_id_outlineOf e.path t i

theorem flatMap_column_methods {outline : Value} {e : FileExtraction String}
    (h : outline.items "classes" = e.types.zipIdx.map fun (t, i) => outlineOf e.path t i) :
    (outline.items "classes").flatMap (·.column "methods" "id") = methodIds e := by
  have hmethods : (fun x : TypeDeclaration String × ℕ =>
      (outlineOf e.path x.1 x.2).column "methods" "id") = fun x =>
        x.1.methods.map fun m => some (.text (m.identifier e.path x.1.name)) := by
    funext x
    exact column_methods_outlineOf e.path x.1 x.2
  rw [h, List.flatMap_map, hmethods, methodIds]
  exact flatMap_zipIdx e.types fun t =>
    t.methods.map fun m => some (Value.text (m.identifier e.path t.name))

variable {path} {ix : Index} {e : FileExtraction String}
  (hfile : ix.extraction? (.text path) = .ok (some (e.map .text)))

include hfile

theorem exists_fileOutline {bound : ℤ} (hbound : e.types.length ≤ bound) :
    ∃ outline, ix.fileOutline (.text path) bound = .ok outline ∧
      outline.toValue.items "classes" = e.types.zipIdx.map fun (t, i) => outlineOf path t i := by
  have hlength : ((e.types.zipIdx.map fun (t, i) => outlineOf path t i).length : ℤ) ≤ bound := by
    simpa using hbound
  rw [fileOutline, hfile, ok_bind]
  simp only [mapM_typeOutline, ok_bind]
  refine ⟨_, rfl, Answer.items_toValue ?_⟩
  simp [List.lookup_cons, bounded_of_le hlength]

end Outline

section Flow

variable {path : String} {ix : Index} {e : FileExtraction String}
  (hfile : ix.extraction? (.text path) = .ok (some (e.map .text)))

theorem nodeValues_map (ss : List (Stage String)) :
    (ss.map (·.map Value.text)).map (Flow.nodeValue (Value.text path)) =
      ss.map (Flow.nodeValue path) := by
  rw [List.map_map]
  exact List.map_congr_left fun s _ => Flow.nodeValue_map path s

theorem stagesFor_map (tag : StageTag) :
    (e.map Value.text).stagesFor tag = (e.stagesFor tag).map (·.map Value.text) := by
  rw [FileExtraction.stagesFor, FileExtraction.map, List.filter_map]
  rfl

include hfile

/-- The summary of a file has its links as far as the bound goes, and all of its stages. A file
without stages has none of the lists. -/
theorem exists_flowSummary_bounded (bound : ℤ) :
    ∃ summary, ix.flowSummary (.text path) bound = .ok summary ∧
      summary.toValue.at? [.field "hasPipeline"] = some (.bool !e.stages.isEmpty) ∧
      summary.toValue.items "edges" =
        (bounded bound ((Flow.linksOf e.stages).map (Flow.edgeValue path))).1 ∧
      ((bounded bound ((Flow.linksOf e.stages).map (Flow.edgeValue path))).2.status =
        .truncated → summary.report.status = .truncated) ∧
      ∀ tag : StageTag, summary.toValue.items tag.plural =
        (e.stagesFor tag).map (Flow.nodeValue path) := by
  have hempty : (e.map Value.text).stages.isEmpty = e.stages.isEmpty := by
    simp [FileExtraction.map]
  have hlinks : ix.links (.text path) =
      .ok ((Flow.linksOf e.stages).map (·.map Value.text)) := by
    rw [links, hfile, ok_bind]
    exact Flow.edges_map e
  have hedges : ((Flow.linksOf e.stages).map (·.map Value.text)).map
      (Flow.edgeValue (Value.text path)) = (Flow.linksOf e.stages).map (Flow.edgeValue path) := by
    rw [List.map_map]
    rfl
  rw [flowSummary, hfile, ok_bind]
  simp only [hempty, stagesFor_map, nodeValues_map]
  cases hstages : e.stages with
  | nil =>
    have hnone (tag : StageTag) : e.stagesFor tag = [] := by
      rw [FileExtraction.stagesFor, hstages]
      rfl
    rw [Flow.linksOf_nil]
    refine ⟨_, rfl, by simp [Answer.toValue, List.lookup_cons], ?_, ?_, fun tag => ?_⟩
    · exact Value.items_ofFields_of_none (by simp [List.lookup_cons])
    · simp [bounded, AnswerReport.bare]
    · rw [hnone]
      exact Value.items_ofFields_of_none (by cases tag <;> simp [StageTag.plural, List.lookup_cons])
  | cons s ss =>
    rw [← hstages, hlinks]
    simp only [ok_bind, hedges]
    have hcons : e.stages.isEmpty = false := by rw [hstages]; rfl
    rw [hcons, if_neg Bool.false_ne_true]
    refine ⟨_, rfl, by simp [Answer.toValue, List.lookup_cons], ?_, fun hcut => ?_, fun tag => ?_⟩
    · exact Answer.items_toValue (by simp [List.lookup_cons])
    · rw [if_neg (by rw [hcut]; decide)]
      exact hcut
    · refine Answer.items_toValue ?_
      cases tag <;> simp [StageTag.all, StageTag.plural, List.lookup_cons]

theorem exists_flowSummary {bound : ℤ} (hbound : (Flow.linksOf e.stages).length ≤ bound) :
    ∃ summary, ix.flowSummary (.text path) bound = .ok summary ∧
      summary.toValue.at? [.field "hasPipeline"] = some (.bool !e.stages.isEmpty) ∧
      summary.toValue.items "edges" = (Flow.linksOf e.stages).map (Flow.edgeValue path) ∧
      ∀ tag : StageTag, summary.toValue.items tag.plural =
        (e.stagesFor tag).map (Flow.nodeValue path) := by
  obtain ⟨summary, hsummary, hpipeline, hedges, -, htagged⟩ :=
    exists_flowSummary_bounded hfile bound
  rw [bounded_of_le (by simpa using hbound)] at hedges
  exact ⟨summary, hsummary, hpipeline, hedges, htagged⟩

end Flow

section Rows

variable (e : FileExtraction String)

theorem column_types_rowsOf : (Graph.rowsOf e).toValue.column "types" "uri" = typeIds e := by
  rw [Value.column, Graph.Payload.toValue, Value.items_ofFields rfl, Graph.rowsOf]
  simp only [List.map_map]
  refine List.map_congr_left fun x _ => ?_
  simp [Graph.typeRow, Graph.TypeRow.toValue, List.lookup_cons]

theorem column_methods_rowsOf : (Graph.rowsOf e).toValue.column "methods" "uri" = methodIds e := by
  rw [Value.column, Graph.Payload.toValue, Value.items_ofFields rfl, Graph.rowsOf, methodIds,
    ← flatMap_zipIdx]
  simp only [Graph.methodRows, List.map_flatMap, List.map_map]
  refine List.flatMap_congr fun x _ => List.map_congr_left fun m _ => ?_
  simp [Graph.methodRow, Graph.MethodRow.toValue, List.lookup_cons]

theorem column_stages_rowsOf : (Graph.rowsOf e).toValue.column "stages" "uri" = stageIds e := by
  rw [Value.column, Graph.Payload.toValue, Value.items_ofFields rfl, Graph.rowsOf]
  simp only [List.map_map]
  exact List.map_congr_left fun s _ => by simp [Graph.StageRow.of, Graph.StageRow.toValue]

theorem links_rowsOf : ((Graph.rowsOf e).toValue.items "edges").map
    (linkAt · [] "binding_identifier") = linkIds e := by
  rw [Graph.Payload.toValue, Value.items_ofFields rfl, Graph.rowsOf]
  simp only [List.map_map]
  refine List.map_congr_left fun l _ => ?_
  simp [linkAt, Graph.FlowRow.of, Graph.FlowRow.toValue, List.lookup_cons, Cell.toValue]

def flowGraph : Value :=
  .ofFields [("file", .text e.path), ("nodes", .list (e.stages.map (Flow.nodeValue e.path))),
    ("edges", .list ((Flow.linksOf e.stages).map (Flow.edgeValue e.path)))]

theorem graph_text : Flow.graph e = .ok (flowGraph e) := by
  rw [Flow.graph, Flow.edges_text]
  rfl

theorem items_nodes_flowGraph :
    (flowGraph e).items "nodes" = e.stages.map (Flow.nodeValue e.path) :=
  Value.items_ofFields rfl

theorem items_edges_flowGraph :
    (flowGraph e).items "edges" = (Flow.linksOf e.stages).map (Flow.edgeValue e.path) :=
  Value.items_ofFields rfl

theorem at?_tag_nodeValue (path : String) (s : Stage String) :
    (Flow.nodeValue path s).at? [.field "tag"] = some (.text s.tag.name) := by
  simp [Flow.nodeValue, Stage.toFields, List.lookup_cons]

theorem column_nodes_flowGraph : (flowGraph e).column "nodes" "id" = stageIds e := by
  rw [Value.column, items_nodes_flowGraph, List.map_map]
  exact List.map_congr_left fun s _ => by simp [Flow.nodeValue, Stage.toFields, List.lookup_cons]

theorem linkAt_edgeValue (path : String) (l : FlowEdge String) :
    linkAt (Flow.edgeValue path l) [.field "id"] "bindingIdentifier" =
      (some (.text (Flow.stageId path l.supplier)), some (.text (Flow.stageId path l.consumer)),
        some (.text l.binding)) := by
  simp [linkAt, Flow.edgeValue, Flow.endpoint, List.lookup_cons, Cell.toValue]

theorem links_edgeValue :
    ((Flow.linksOf e.stages).map (Flow.edgeValue e.path)).map
      (linkAt · [.field "id"] "bindingIdentifier") = linkIds e := by
  rw [List.map_map]
  exact List.map_congr_left fun l _ => linkAt_edgeValue e.path l

end Rows

def typeAt (v : Value) : Option Value × Option Value := (v.at? [.field "id"], v.at? [.field "name"])

/-- A search finds the type of an outline by its name. -/
def findsIn (query : String) (v : Value) : Bool :=
  match v.at? [.field "name"] with
  | some (.text name) => finds query name
  | _ => false

/-- The rows of a file, its outline, the graph of its stages and the summary of its flow give the
same entities in the same order. -/
structure SameEntities (e : FileExtraction String) (rows outline graph summary : Value) :
    Prop where
  types : outline.column "classes" "id" = typeIds e ∧ rows.column "types" "uri" = typeIds e
  methods : (outline.items "classes").flatMap (·.column "methods" "id") = methodIds e ∧
    rows.column "methods" "uri" = methodIds e
  stages : graph.column "nodes" "id" = stageIds e ∧ rows.column "stages" "uri" = stageIds e
  tagged : ∀ tag : StageTag, summary.column tag.plural "id" = ((graph.items "nodes").filter
    fun n => n.at? [.field "tag"] = some (.text tag.name)).map (·.at? [.field "id"])
  /-- Without stages the summary has no lists. -/
  hasPipeline : summary.at? [.field "hasPipeline"] = some (.bool !(graph.items "nodes").isEmpty)
  links : (graph.items "edges").map (linkAt · [.field "id"] "bindingIdentifier") = linkIds e ∧
    (summary.items "edges").map (linkAt · [.field "id"] "bindingIdentifier") = linkIds e ∧
    (rows.items "edges").map (linkAt · [] "binding_identifier") = linkIds e
  ends : ∀ l ∈ graph.items "edges",
    l.at? [.field "upstream", .field "id"] ∈ graph.column "nodes" "id" ∧
      l.at? [.field "downstream", .field "id"] ∈ graph.column "nodes" "id"
  /-- With different ordinals, an end of a link is one stage only. -/
  distinct : (e.stages.map (·.ordinal)).Nodup → ∀ l ∈ graph.items "edges",
    (graph.column "nodes" "id").count (l.at? [.field "upstream", .field "id"]) = 1 ∧
      (graph.column "nodes" "id").count (l.at? [.field "downstream", .field "id"]) = 1

section Entities

variable {ix : Index} {e : FileExtraction String}

theorem nodup_stageIds (h : (e.stages.map (·.ordinal)).Nodup) : (stageIds e).Nodup := by
  refine List.Nodup.map_on (fun s hs s' hs' heq => ?_) (h.of_map _)
  have hid : Flow.stageId e.path s = Flow.stageId e.path s' := by simpa using heq
  exact List.inj_on_of_nodup_map h hs hs' (Uri.create_number_inj hid).2

theorem mem_stageIds {l : Value} (hl : l ∈ (flowGraph e).items "edges") :
    l.at? [.field "upstream", .field "id"] ∈ stageIds e ∧
      l.at? [.field "downstream", .field "id"] ∈ stageIds e := by
  rw [items_edges_flowGraph] at hl
  obtain ⟨edge, hedge, rfl⟩ := List.mem_map.mp hl
  obtain ⟨hsupplier, hconsumer⟩ := Flow.of_mem_linksOf hedge
  have hlink := linkAt_edgeValue e.path edge
  simp only [linkAt, Prod.mk.injEq] at hlink
  rw [hlink.1, hlink.2.1]
  exact ⟨List.mem_map_of_mem hsupplier, List.mem_map_of_mem hconsumer⟩

theorem sameEntities {outline summary : Answer}
    (houtline : outline.toValue.items "classes" =
      e.types.zipIdx.map fun (t, i) => outlineOf e.path t i)
    (hpipeline : summary.toValue.at? [.field "hasPipeline"] = some (.bool !e.stages.isEmpty))
    (hedges : summary.toValue.items "edges" =
      (Flow.linksOf e.stages).map (Flow.edgeValue e.path))
    (htagged : ∀ tag : StageTag, summary.toValue.items tag.plural =
      (e.stagesFor tag).map (Flow.nodeValue e.path)) :
    SameEntities e (Graph.rowsOf e).toValue outline.toValue (flowGraph e) summary.toValue where
  types := ⟨column_classes houtline, column_types_rowsOf e⟩
  methods := ⟨flatMap_column_methods houtline, column_methods_rowsOf e⟩
  stages := ⟨column_nodes_flowGraph e, column_stages_rowsOf e⟩
  tagged tag := by
    rw [Value.column, htagged, items_nodes_flowGraph, List.filter_map, FileExtraction.stagesFor]
    congr 2
    refine List.filter_congr fun s _ => ?_
    rw [Function.comp_apply, at?_tag_nodeValue, decide_eq_decide]
    simp [StageTag.name_injective.eq_iff]
  hasPipeline := by rw [hpipeline, items_nodes_flowGraph, List.isEmpty_map]
  links := by
    rw [hedges, items_edges_flowGraph]
    exact ⟨links_edgeValue e, links_edgeValue e, links_rowsOf e⟩
  ends l hl := by
    rw [column_nodes_flowGraph]
    exact mem_stageIds hl
  distinct hordinals l hl := by
    have hnodup := nodup_stageIds hordinals
    obtain ⟨hsupplier, hconsumer⟩ := mem_stageIds hl
    rw [column_nodes_flowGraph]
    exact ⟨List.count_eq_one_of_mem hnodup hsupplier, List.count_eq_one_of_mem hnodup hconsumer⟩

end Entities

section Hits

variable {rs : List (FileResult String)} {e : FileExtraction String}

theorem foundAt_of_extracted (h : latest? rs e.path = some (.extracted e)) :
    foundAt rs e.path = e.types.zipIdx.map fun x => (e.path, x) := by
  rw [foundAt, typesAt, h]
  rfl

theorem mem_of_latest? {path : String} {r : FileResult String} (h : latest? rs path = some r) :
    r ∈ rs ∧ r.path = path := by
  refine ⟨List.mem_reverse.mp (List.mem_of_find?_eq_some h), ?_⟩
  simpa using List.find?_some h

theorem exists_extracted_of_mem_foundAt {path : String} {x : Found} (h : x ∈ foundAt rs path) :
    ∃ e : FileExtraction String, latest? rs e.path = some (.extracted e) ∧ x.1 = e.path := by
  obtain ⟨y, hy, rfl⟩ := List.mem_map.mp h
  rw [typesAt] at hy
  cases hlatest : latest? rs path with
  | none => simp [hlatest] at hy
  | some r =>
    cases r with
    | failed p reason => simp [hlatest, FileResult.extraction?] at hy
    | extracted e =>
      obtain rfl : e.path = path := (mem_of_latest? hlatest).2
      exact ⟨e, hlatest, rfl⟩

theorem at?_filePath_hitOf (x : Found) :
    (hitOf x).at? [.field "filePath"] = some (.text x.1) := by
  simp [hitOf, List.lookup_cons]

theorem typeAt_hitOf (x : Found) :
    typeAt (hitOf x) = typeAt (outlineOf x.1 x.2.1 x.2.2) := by
  simp [typeAt, hitOf, outlineOf, List.lookup_cons]

theorem findsIn_outlineOf (query path : String) (t : TypeDeclaration String) (i : ℕ) :
    findsIn query (outlineOf path t i) = finds query t.name := by
  rw [findsIn, at?_name_outlineOf]

/-- The matches in a file are the types of its outline whose names hold the term. -/
theorem map_typeAt_hits {ps : List String} (hps : ps.Nodup) (hmem : e.path ∈ ps)
    (h : latest? rs e.path = some (.extracted e)) (query : String) :
    ((((ps.flatMap (foundAt rs)).filter fun x => finds query x.2.1.name).map hitOf).filter
        fun hit => hit.at? [.field "filePath"] = some (.text e.path)).map typeAt =
      ((e.types.zipIdx.map fun (t, i) => outlineOf e.path t i).filter
        (findsIn query)).map typeAt := by
  have hsingle : ps.filter (· = e.path) = [e.path] := by
    rw [List.filter_eq, List.count_eq_one_of_mem hps hmem, List.replicate_one]
  have hfile : (ps.flatMap (foundAt rs)).filter (fun x => decide (x.1 = e.path)) =
      foundAt rs e.path := by
    have hpath (p : String) (x : Found) (hx : x ∈ foundAt rs p) :
        decide (x.1 = e.path) = decide (p = e.path) := by
      obtain ⟨y, -, rfl⟩ := List.mem_map.mp hx
      rfl
    rw [Graph.filter_flatMap_of_forall (fun p => decide (p = e.path)) hpath, hsingle]
    simp
  have hfilePath : (fun hit : Value => decide (hit.at? [.field "filePath"] =
      some (.text e.path))) ∘ hitOf = fun x => decide (x.1 = e.path) := by
    funext x
    rw [Function.comp_apply, at?_filePath_hitOf, decide_eq_decide]
    simp
  have hfinds : findsIn query ∘ (fun x : TypeDeclaration String × ℕ => outlineOf e.path x.1 x.2) =
      (fun x : Found => finds query x.2.1.name) ∘ fun x => (e.path, x) := by
    funext x
    rw [Function.comp_apply, Function.comp_apply, findsIn_outlineOf]
  rw [List.filter_map, hfilePath, List.filter_comm, hfile, foundAt_of_extracted h,
    List.filter_map, List.filter_map, hfinds, List.map_map, List.map_map, List.map_map]
  refine List.map_congr_left fun x _ => ?_
  rw [Function.comp_apply, Function.comp_apply, Function.comp_apply, typeAt_hitOf]

end Hits

/-- Every surface gives the same identifiers. The rows of a file that is indexed under its path, its
outline, the graph of its stages and the summary of their flow have the same entities in the same
order. The matches of a search are those of the outlines, and a bound leaves the first of them. -/
theorem surfaces_agree (rs : List (FileResult String)) :
    ∃ ix, ofResults (rs.map (·.map .text)) = .ok ix ∧
      (∀ e : FileExtraction String, latest? rs e.path = some (.extracted e) →
        ∃ rows graph, Graph.Payload.ofResult (.extracted e) = .ok rows ∧ Flow.graph e = .ok graph ∧
          ∀ typeBound linkBound : ℤ, e.types.length ≤ typeBound →
            (graph.items "edges").length ≤ linkBound →
            ∃ outline summary, ix.fileOutline (.text e.path) typeBound = .ok outline ∧
              ix.flowSummary (.text e.path) linkBound = .ok summary ∧
              SameEntities e rows.toValue outline.toValue graph summary.toValue) ∧
      ∀ query : String, ∃ hits : List Value,
        (∀ bound : ℤ, ∃ answer, ix.searchCode (.text query) bound = .ok answer ∧
          answer.toValue.items "classes" <+: hits ∧
          (hits.length ≤ bound → answer.toValue.items "classes" = hits)) ∧
        (∀ hit ∈ hits, ∃ e : FileExtraction String, latest? rs e.path = some (.extracted e) ∧
          hit.at? [.field "filePath"] = some (.text e.path)) ∧
        ∀ (e : FileExtraction String) (typeBound : ℤ) (outline : Answer),
          latest? rs e.path = some (.extracted e) → e.types.length ≤ typeBound →
          ix.fileOutline (.text e.path) typeBound = .ok outline →
          (hits.filter fun hit => hit.at? [.field "filePath"] = some (.text e.path)).map typeAt =
            ((outline.toValue.items "classes").filter (findsIn query)).map typeAt := by
  obtain ⟨ix, hix, hdescribes⟩ := exists_ofResults rs
  have hfile {e : FileExtraction String} (he : latest? rs e.path = some (.extracted e)) :
      ix.extraction? (.text e.path) = .ok (some (e.map .text)) := by
    rw [hdescribes.extraction?, he]
    rfl
  refine ⟨ix, hix, fun e he => ?_, fun query => ?_⟩
  · refine ⟨Graph.rowsOf e, flowGraph e, Graph.Payload.ofExtraction_text e, graph_text e,
      fun typeBound linkBound htypes hlinks => ?_⟩
    rw [items_edges_flowGraph, List.length_map] at hlinks
    obtain ⟨outline, houtline, hclasses⟩ := exists_fileOutline (hfile he) htypes
    obtain ⟨summary, hsummary, hpipeline, hedges, htagged⟩ :=
      exists_flowSummary (hfile he) hlinks
    exact ⟨outline, summary, houtline, hsummary,
      sameEntities hclasses hpipeline hedges htagged⟩
  · obtain ⟨ps, hps, hsorted, hmem⟩ := hdescribes.exists_paths
    refine ⟨((ps.flatMap (foundAt rs)).filter fun x => finds query x.2.1.name).map hitOf,
      fun bound => ?_, fun hit hhit => ?_, fun e typeBound outline he htypes houtline => ?_⟩
    · obtain ⟨answer, hanswer, hclasses⟩ := hdescribes.exists_searchCode hps query bound
      refine ⟨answer, hanswer, ?_, fun hbound => ?_⟩
      · rw [Answer.items_toValue hclasses]
        exact (upTo_isPrefix _ _).trans (upTo_isPrefix _ _)
      · have hbound' := Int.le_add_one hbound
        rw [Answer.items_toValue hclasses, upTo_eq_self hbound', upTo_eq_self hbound]
    · obtain ⟨x, hx, rfl⟩ := List.mem_map.mp hhit
      obtain ⟨p, -, hfound⟩ := List.mem_flatMap.mp (List.mem_of_mem_filter hx)
      obtain ⟨e, he, hpath⟩ := exists_extracted_of_mem_foundAt hfound
      exact ⟨e, he, by rw [at?_filePath_hitOf, hpath]⟩
    · obtain ⟨outline', houtline', hclasses⟩ := exists_fileOutline (hfile he) htypes
      obtain rfl := Except.ok.inj (houtline'.symm.trans houtline)
      rw [hclasses]
      have hpath := (hmem e.path).mpr ⟨_, mem_of_latest? he⟩
      exact map_typeAt_hits (hsorted.imp ne_of_lt) hpath he query

/-- A file with two overloads of a method and a pipeline of three stages. -/
def samplePipeline : FileExtraction String where
  source := ⟨"/A.java", none, []⟩
  types := [sampleOverloads]
  stages := [⟨.source, "csv", [], some "df", 1, 0⟩,
    ⟨.transformation, "filter", [], some "df", 2, 1⟩, ⟨.sink, "write", [], some "df", 3, 2⟩]
  parseErrorCount := 0

theorem surfaces_agree_samplePipeline :
    ∃ ix, ofResults ([FileResult.extracted samplePipeline].map (·.map .text)) = .ok ix ∧
      ∃ outline summary, ix.fileOutline (.text "/A.java") 1 = .ok outline ∧
        ix.flowSummary (.text "/A.java") 2 = .ok summary ∧
        SameEntities samplePipeline (Graph.rowsOf samplePipeline).toValue outline.toValue
          (flowGraph samplePipeline) summary.toValue ∧
        ∃ hits answer, ix.searchCode (.text "a") hits.length = .ok answer ∧
          answer.toValue.items "classes" = hits ∧
          (hits.filter fun hit => hit.at? [.field "filePath"] = some (.text "/A.java")).map typeAt =
            ((outline.toValue.items "classes").filter (findsIn "a")).map typeAt := by
  obtain ⟨ix, hix, hsurfaces, hsearch⟩ := surfaces_agree [.extracted samplePipeline]
  obtain ⟨rows, graph, hrows, hgraph, hbounds⟩ := hsurfaces samplePipeline rfl
  obtain rfl := Except.ok.inj ((Graph.Payload.ofExtraction_text samplePipeline).symm.trans hrows)
  obtain rfl := Except.ok.inj ((graph_text samplePipeline).symm.trans hgraph)
  have hlinks : ((flowGraph samplePipeline).items "edges").length ≤ (2 : ℤ) := by
    rw [items_edges_flowGraph, List.length_map, Flow.linksOf, List.length_mergeSort]
    decide
  obtain ⟨outline, summary, houtline, hsummary, hsame⟩ := hbounds 1 2 (by decide) hlinks
  obtain ⟨hits, hanswers, -, hfound⟩ := hsearch "a"
  obtain ⟨answer, hanswer, -, hall⟩ := hanswers hits.length
  exact ⟨ix, hix, outline, summary, houtline, hsummary, hsame, hits, answer, hanswer, hall le_rfl,
    hfound samplePipeline 1 outline rfl (by decide) houtline⟩

end Index

end CodeAtlas

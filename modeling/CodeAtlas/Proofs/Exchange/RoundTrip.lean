import Mathlib.Data.Int.Order.Basic
import CodeAtlas.Proofs.Exchange.Entries
import CodeAtlas.Proofs.Order.StableSort
import CodeAtlas.Proofs.Pipeline.Classification

/-! # Reading what was written

A file result that is written and read back is the same result, but for the count of faulty nodes,
which is not written, and for the order of its stages: they come back sorted by ordinal, and those
with one ordinal by tag.
-/

namespace CodeAtlas

variable {α : Type} [Cell α]

/-- Its parts that may be absent can be told from absent ones. -/
structure Method.IsLegible (m : Method α) : Prop where
  body : Legible m.body
  locals : ∀ v ∈ m.locals, Legible v.initialValue

/-- Its parts that may be absent can be told from absent ones, and its name counts as one. -/
structure TypeDeclaration.IsLegible (t : TypeDeclaration α) : Prop where
  name : (Cell.toValue t.name).truthy = true
  methods : ∀ m ∈ t.methods, m.IsLegible
  fields : ∀ f ∈ t.fields, Legible f.initialValue

theorem Parameter.ofValue_toValue (p : Parameter α) :
    Parameter.ofValue p.toValue = .ok (p.map Cell.toValue) := by
  simp [Parameter.ofValue, Parameter.toValue, Parameter.map, List.lookup_cons]

theorem LocalVariable.ofValue_toValue {v : LocalVariable α} (h : Legible v.initialValue) :
    LocalVariable.ofValue v.toValue = .ok (v.map Cell.toValue) := by
  simp [LocalVariable.ofValue, LocalVariable.toValue, LocalVariable.map, List.lookup_cons, cellAt?,
    bind_present? h]

theorem Field.ofValue_toValue {f : Field α} (h : Legible f.initialValue) :
    Field.ofValue f.toValue = .ok (f.map Cell.toValue) := by
  simp [Field.ofValue, Field.toValue, Field.map, List.lookup_cons, cellAt?, flagAt,
    bind_present? h]

theorem Method.ofValue_toValue {m : Method α} (h : m.IsLegible) :
    Method.ofValue m.toValue = .ok (m.map Cell.toValue) := by
  have hparameters : m.parameters.mapM (Parameter.ofValue ∘ Parameter.toValue) =
      .ok (m.parameters.map (·.map Cell.toValue)) :=
    mapM_comp_ok fun p _ => p.ofValue_toValue
  have hlocals : m.locals.mapM (LocalVariable.ofValue ∘ LocalVariable.toValue) =
      .ok (m.locals.map (·.map Cell.toValue)) :=
    mapM_comp_ok fun v hv => LocalVariable.ofValue_toValue (h.locals v hv)
  simp [Method.ofValue, Method.toValue, Method.map, List.lookup_cons, List.lookup_append, cellAt?,
    flagAt, elementsAt, cells, bind_present? h.body, hparameters, hlocals]

theorem TypeDeclaration.ofValue_toValue {t : TypeDeclaration α} (h : t.IsLegible) :
    TypeDeclaration.ofValue t.toValue = .ok (t.map Cell.toValue) := by
  have hmethods : t.methods.mapM (Method.ofValue ∘ Method.toValue) =
      .ok (t.methods.map (·.map Cell.toValue)) :=
    mapM_comp_ok fun m hm => Method.ofValue_toValue (h.methods m hm)
  have hfields : t.fields.mapM (Field.ofValue ∘ Field.toValue) =
      .ok (t.fields.map (·.map Cell.toValue)) :=
    mapM_comp_ok fun f hf => Field.ofValue_toValue (h.fields f hf)
  have hkind : (if t.isInterface = true then TypeKind.interfaceType else .classType) = t.kind := by
    cases hk : t.kind <;> simp [TypeDeclaration.isInterface, hk]
  simp [TypeDeclaration.ofValue, TypeDeclaration.toValue, TypeDeclaration.map, List.lookup_cons,
    flagAt, elementsAt, cells, hmethods, hfields, h.name, hkind]

theorem Stage.ofValue_toValue {s : Stage α} (h : Legible s.binding) (ordinal : ℕ) :
    Stage.ofValue s.tag ordinal s.toValue = .ok (s.map Cell.toValue) := by
  simp [Stage.ofValue, Stage.toValue, Stage.toFields, Stage.map, List.lookup_cons, cellAt?,
    elementsAt, cells, present?_cell? h]

/-- The stages of one tag are read as they were written: each has an ordinal of its own. -/
theorem stagesOfValues_map_toValue {tag : StageTag} {ss : List (Stage α)}
    (h : ∀ s ∈ ss, s.tag = tag ∧ Legible s.binding) (next : ℕ) :
    stagesOfValues tag next (ss.map Stage.toValue) = .ok (ss.map (·.map Cell.toValue)) := by
  induction ss generalizing next with
  | nil => rfl
  | cons s ss ih =>
    obtain ⟨rfl, hs⟩ := h s (List.mem_cons_self ..)
    simp [stagesOfValues, Stage.ofValue_toValue hs,
      ih fun s' hs' => h s' (List.mem_cons_of_mem _ hs')]

namespace FileExtraction

/-- Its parts that may be absent can be told from absent ones. -/
structure IsLegible (e : FileExtraction α) : Prop where
  package : Legible e.source.package
  types : ∀ t ∈ e.types, t.IsLegible
  stages : ∀ s ∈ e.stages, Legible s.binding

def sections (e : FileExtraction α) : List (String × Value) :=
  StageTag.all.map fun tag => (tag.plural, .list ((e.stagesFor tag).map Stage.toValue))

theorem toFields_eq (e : FileExtraction α) : e.toFields =
    [("file", Cell.toValue e.path), ("package", cell? e.source.package),
      ("imports", cells e.source.imports),
      ("classes", .list (e.types.map TypeDeclaration.toValue)),
      ("pipelineStages", .ofFields e.sections)] := rfl

theorem lookup_sections (e : FileExtraction α) (tag : StageTag) :
    e.sections.lookup tag.plural = some (.list ((e.stagesFor tag).map Stage.toValue)) := by
  cases tag <;> simp [sections, StageTag.all, StageTag.plural, List.lookup_cons]

theorem stagesByTag_sections {e : FileExtraction α} (h : e.IsLegible) (next : ℕ)
    (tags : List StageTag) :
    stagesByTag (.ofFields e.sections) next tags =
      .ok ((tags.flatMap e.stagesFor).map (·.map Cell.toValue)) := by
  induction tags generalizing next with
  | nil => rfl
  | cons tag tags ih =>
    have hhere : stagesOfValues tag next ((e.stagesFor tag).map Stage.toValue) =
        .ok ((e.stagesFor tag).map (·.map Cell.toValue)) := by
      refine stagesOfValues_map_toValue (fun s hs => ?_) next
      obtain ⟨hs, ht⟩ := List.mem_filter.mp hs
      exact ⟨by simpa using ht, h.stages s hs⟩
    simp [stagesByTag, elementsAt, lookup_sections, hhere, ih]

end FileExtraction

section Order

variable {β : Type}

/-- The first of two stages has the smaller ordinal, or the same one and no later tag. -/
def Stage.precedes (a b : Stage β) : Bool :=
  a.ordinal < b.ordinal || (a.ordinal == b.ordinal && a.tag.rank ≤ b.tag.rank)

theorem isOrder_ordinal : IsOrder fun a b : Stage β => decide (a.ordinal ≤ b.ordinal) :=
  isOrder_key fun s : Stage β => s.ordinal

theorem isOrder_tag : IsOrder fun a b : Stage β => decide (a.tag.rank ≤ b.tag.rank) :=
  isOrder_key fun s : Stage β => s.tag.rank

theorem Stage.precedes_eq_lex : (Stage.precedes : Stage β → Stage β → Bool) =
    lex (fun a b => decide (a.ordinal ≤ b.ordinal))
      fun a b => decide (a.tag.rank ≤ b.tag.rank) := by
  funext a b
  rw [Bool.eq_iff_iff]
  simp only [Stage.precedes, lex, Bool.or_eq_true, Bool.and_eq_true, Bool.not_eq_true',
    decide_eq_true_eq, decide_eq_false_iff_not, beq_iff_eq]
  omega

theorem tied_tag (a : Stage β) :
    tied (fun a b : Stage β => decide (a.tag.rank ≤ b.tag.rank)) a =
      fun b => decide (b.tag = a.tag) := by
  funext b
  rw [Bool.eq_iff_iff, tied_iff, decide_eq_true_eq, decide_eq_true_eq, decide_eq_true_eq,
    ← StageTag.rank_injective.eq_iff]
  omega

theorem flatMap_stagesFor (e : FileExtraction β) : StageTag.all.flatMap e.stagesFor =
    e.stages.mergeSort fun a b => decide (a.tag.rank ≤ b.tag.rank) := by
  have htag : ∀ {tag : StageTag} {s : Stage β}, s ∈ e.stagesFor tag → s.tag = tag := fun hs => by
    simpa using (List.mem_filter.mp hs).2
  refine isOrder_tag.eq_mergeSort ?_ fun a => ?_
  · refine List.pairwise_flatMap.mpr ⟨fun tag _ => ?_, StageTag.all_increasing.imp ?_⟩
    · exact List.pairwise_of_forall_mem_list fun a ha b hb => by simp [htag ha, htag hb]
    · intro s t h a ha b hb
      rw [htag ha, htag hb]
      exact decide_eq_true h.le
  · have hother : ∀ {tag : StageTag}, tag ≠ a.tag →
        (e.stagesFor tag).filter (fun b => decide (b.tag = a.tag)) = [] := fun h => by
      refine List.filter_eq_nil_iff.mpr fun b hb => ?_
      rw [htag hb]
      simpa using h
    have hsame : (e.stagesFor a.tag).filter (fun b => decide (b.tag = a.tag)) =
        e.stages.filter fun b => decide (b.tag = a.tag) := by
      simp [FileExtraction.stagesFor]
    rw [tied_tag, ← hsame]
    simp only [StageTag.all, List.flatMap_cons, List.flatMap_nil, List.append_nil,
      List.filter_append]
    cases h : a.tag <;> rw [h] at hother <;> simp [hother]

/-- The extraction that comes back: its stages sorted, its faulty nodes not counted. -/
def FileExtraction.readBack (e : FileExtraction β) : FileExtraction β :=
  { e with stages := e.stages.mergeSort Stage.precedes, parseErrorCount := 0 }

theorem sortStages_byTag [Cell β] (e : FileExtraction β) :
    sortStages (StageTag.all.flatMap e.stagesFor) = e.readBack.stages := by
  rw [flatMap_stagesFor, FileExtraction.readBack, Stage.precedes_eq_lex,
    ← IsOrder.mergeSort_mergeSort isOrder_ordinal isOrder_tag]
  rfl

theorem FileExtraction.readBack_of_increasing {e : FileExtraction β}
    (h : e.stages.Pairwise fun a b => a.ordinal < b.ordinal) :
    e.readBack = { e with parseErrorCount := 0 } := by
  have hsorted : e.stages.Pairwise fun a b => Stage.precedes a b = true :=
    h.imp fun hab => by simp [Stage.precedes, hab]
  rw [FileExtraction.readBack, List.mergeSort_of_pairwise hsorted]

end Order

theorem sortStages_map (ss : List (Stage α)) :
    sortStages (ss.map (·.map Cell.toValue)) = (sortStages ss).map (·.map Cell.toValue) := by
  unfold sortStages
  rw [List.map_mergeSort]
  intro a _ b _
  rfl

theorem FileExtraction.ofValue_toFields {e : FileExtraction α} (h : e.IsLegible) :
    FileExtraction.ofValue (.ofFields e.toFields) = .ok (e.readBack.map Cell.toValue) := by
  have htypes : e.types.mapM (TypeDeclaration.ofValue ∘ TypeDeclaration.toValue) =
      .ok (e.types.map (·.map Cell.toValue)) :=
    mapM_comp_ok fun t ht => TypeDeclaration.ofValue_toValue (h.types t ht)
  have hstages : stagesByTag (.ofFields e.sections) 0 StageTag.all =
      .ok ((StageTag.all.flatMap e.stagesFor).map (·.map Cell.toValue)) :=
    stagesByTag_sections h 0 StageTag.all
  have htruthy : (Value.ofFields e.sections).truthy = true := rfl
  have hsort := sortStages_map (StageTag.all.flatMap e.stagesFor)
  rw [sortStages_byTag] at hsort
  simp [FileExtraction.ofValue, toFields_eq, List.lookup_cons, cellAt?, elementsAt, cells, htruthy,
    hstages, htypes, hsort, present?_cell? h.package, FileExtraction.map, SourceFile.map, readBack,
    path]

theorem FileExtraction.isLegible_of_named {e : FileExtraction String}
    (h : ∀ t ∈ e.types, t.name ≠ "") : e.IsLegible where
  package := legible_text _
  types t ht := {
    name := by simpa [Cell.toValue, Value.truthy, Scalar.truthy] using h t ht
    methods := fun m _ => ⟨legible_text _, fun v _ => legible_text _⟩
    fields := fun f _ => legible_text _ }
  stages s _ := legible_text _

theorem mentions_error_extracted (e : FileExtraction α) :
    (FileResult.extracted e).toValue.mentions "error" = .ok false := by
  simp [FileResult.toValue, FileResult.toFields, FileExtraction.toFields_eq, List.lookup_cons]

theorem FileResult.ofValue_extracted (e : FileExtraction α) :
    FileResult.ofValue (FileResult.extracted e).toValue =
      FileResult.extracted <$> FileExtraction.ofValue (.ofFields e.toFields) := by
  rw [FileResult.ofValue, mentions_error_extracted]
  rfl

theorem FileResult.ofValue_failed (path : α) (reason : String) :
    FileResult.ofValue (FileResult.failed path reason).toValue =
      .ok (.failed (Cell.toValue path) reason) := by
  simp [FileResult.ofValue, FileResult.toValue, FileResult.toFields, List.lookup_cons]
  rfl

theorem Classifier.stages_increasing (v : Vocabulary) (root : Node) :
    (Classifier.stages v root).Pairwise fun a b => a.ordinal < b.ordinal := by
  have h : ((Classifier.stages v root).map (·.ordinal)).Pairwise (· < ·) := by
    rw [ordinal_stages, List.pairwise_map]
    exact List.pairwise_lt_range.imp fun h => by exact_mod_cast h
  exact List.pairwise_map.mp h

/-- A file result of texts whose types have names, as all types do, is read back as it was written,
but for the order of its stages and the count of faulty nodes. The order of the stages is kept where
their ordinals increase, as they do among the stages of a tree. Successes and failures are not taken
for one another. -/
theorem FileResult.read_back (e : FileExtraction String) (path reason : String) :
    ((∀ t ∈ e.types, t.name ≠ "") → FileResult.ofValue (FileResult.extracted e).toValue =
      .ok ((FileResult.extracted e.readBack).map Value.text)) ∧
    ((e.stages.Pairwise fun a b => a.ordinal < b.ordinal) →
      e.readBack = { e with parseErrorCount := 0 }) ∧
    (∀ v root, (Classifier.stages v root).Pairwise fun a b => a.ordinal < b.ordinal) ∧
    FileResult.ofValue (FileResult.failed path reason).toValue =
      .ok ((FileResult.failed path reason).map Value.text) ∧
    (∀ p why, FileResult.ofValue (FileResult.extracted e).toValue ≠ .ok (.failed p why)) ∧
    ∀ x, FileResult.ofValue (FileResult.failed path reason).toValue ≠ .ok (.extracted x) := by
  refine ⟨fun h => ?_, FileExtraction.readBack_of_increasing, Classifier.stages_increasing,
    FileResult.ofValue_failed path reason, fun p why => ?_, fun x => ?_⟩
  · rw [FileResult.ofValue_extracted,
      FileExtraction.ofValue_toFields (FileExtraction.isLegible_of_named h)]
    rfl
  · rw [FileResult.ofValue_extracted]
    cases FileExtraction.ofValue (.ofFields e.toFields) <;> simp [Functor.map, Except.map]
  · rw [FileResult.ofValue_failed]
    simp

/-- An extraction whose stages are out of order, and of which two share an ordinal. -/
def FileExtraction.outOfOrder : FileExtraction String where
  source := ⟨"/srv/Report.java", none, ["java.util.List"]⟩
  types := [⟨"Report", .classType, [], [], [], [⟨"title", "String", true, false, none⟩]⟩]
  stages := [⟨.sink, "save", [], none, 3, 1⟩, ⟨.transformation, "map", ["f"], some "", 2, 0⟩,
    ⟨.source, "read", [], some "rows", 1, 0⟩]
  parseErrorCount := 4

def FileExtraction.inOrder : FileExtraction String :=
  { FileExtraction.outOfOrder with
    stages := [⟨.source, "read", [], some "rows", 1, 0⟩,
      ⟨.transformation, "map", ["f"], some "", 2, 1⟩,
      ⟨.sink, "save", [], none, 3, 4⟩] }

theorem FileResult.read_back_outOfOrder :
    FileResult.ofValue (FileResult.extracted FileExtraction.outOfOrder).toValue =
      .ok ((FileResult.extracted FileExtraction.outOfOrder.readBack).map Value.text) ∧
    FileExtraction.outOfOrder.readBack.stages.map (·.tag) = [.source, .transformation, .sink] ∧
    FileExtraction.inOrder.stages.Pairwise (fun s s' => s.ordinal < s'.ordinal) ∧
    FileExtraction.inOrder.readBack = { FileExtraction.inOrder with parseErrorCount := 0 } := by
  have hinOrder : FileExtraction.inOrder.stages.Pairwise fun s s' => s.ordinal < s'.ordinal := by
    decide
  refine ⟨(FileResult.read_back .outOfOrder "" "").1 ?_, ?_, hinOrder,
    (FileResult.read_back _ "" "").2.1 hinOrder⟩
  · simp [FileExtraction.outOfOrder]
  · simp [FileExtraction.readBack, FileExtraction.outOfOrder, Stage.precedes, StageTag.rank,
      List.mergeSort, List.MergeSort.Internal.splitInTwo]

end CodeAtlas

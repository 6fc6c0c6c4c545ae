import CodeAtlas.Proofs.Index.Matches
import CodeAtlas.Proofs.Index.ToolCalls
import CodeAtlas.Proofs.Text.Lines

/-! # What a bound leaves out

The lists of an answer have the first of what there is, as far as a bound goes, and the report tells
when something is left out. The stages in the summary of a flow are the exception: they are shown
whatever the bound is.
-/

namespace CodeAtlas

namespace Index

namespace Matches

variable (found : Matches) (bound : ℕ)

abbrev IsEmpty : Prop := found.methods = [] ∧ found.types = [] ∧ found.paths = []

/-- More is found of a kind than the bound allows. -/
abbrev Exceeds : Prop :=
  bound < found.methods.length ∨ bound < found.types.length ∨ bound < found.paths.length

def status : AnswerStatus :=
  if found.IsEmpty then .emptyResult else if found.Exceeds bound then .truncated else .ok

variable {found bound}

theorem IsEmpty.not_exceeds (h : found.IsEmpty) : ¬ found.Exceeds bound := by
  obtain ⟨hmethods, htypes, hpaths⟩ := h
  simp [Exceeds, hmethods, htypes, hpaths]

theorem status_eq_emptyResult_iff : found.status bound = .emptyResult ↔ found.IsEmpty := by
  rw [status]
  split
  · next h => exact iff_of_true rfl h
  · next h => split <;> exact iff_of_false nofun h

theorem status_eq_truncated_iff : found.status bound = .truncated ↔ found.Exceeds bound := by
  rw [status]
  split
  · next h => exact iff_of_false nofun h.not_exceeds
  · split
    · next hmore => exact iff_of_true rfl hmore
    · next hmore => exact iff_of_false nofun hmore

theorem status_eq_ok_iff :
    found.status bound = .ok ↔ ¬ found.IsEmpty ∧ ¬ found.Exceeds bound := by
  rw [status]
  split
  · next h => exact iff_of_false nofun fun hok => hok.1 h
  · next h =>
    split
    · next hmore => exact iff_of_false nofun fun hok => hok.2 hmore
    · next hmore => exact iff_of_true rfl ⟨h, hmore⟩

end Matches

section Search

variable {rs : List (FileResult String)} {ps : List String} {query : String}

theorem matchesIn_of_blank (hblank : Text.trim query = "") :
    matchesIn rs ps query = ⟨[], [], []⟩ := by
  have hfinds : finds query = fun _ => false :=
    finds_of_empty (Text.lower_eq_empty_iff.mpr hblank)
  have hnone (x : Site) : foundMethod? query x = none := by
    simp [foundMethod?, placeIn?, hfinds]
  simp [matchesIn, hfinds, hnone]

/-- An answer to a query gives all matches that it has, as far as a bound goes, and tells what they
are. -/
structure Matches.IsReportedIn (found : Matches) (query : String) (bound : ℕ) (a : Answer) :
    Prop where
  methods : a.toValue.items "methods" = (found.methods.take bound).map FoundMethod.hit
  types : a.toValue.items "classes" = (found.types.take bound).map hitOf
  paths : a.toValue.items "files" = (found.paths.take bound).map .text
  returned : a.report.returned = (a.toValue.items "methods").length +
    (a.toValue.items "classes").length + (a.toValue.items "files").length
  emptyResult_iff : a.report.status = .emptyResult ↔
    Text.trim query = "" ∨ found.IsEmpty
  truncated_iff : a.report.status = .truncated ↔ found.Exceeds bound
  ok_iff : a.report.status = .ok ↔
    ¬ (Text.trim query = "" ∨ found.IsEmpty) ∧ ¬ found.Exceeds bound

variable {ix : Index} (h : ix.Describes rs) (hps : ix.paths = .ok (ps.map .text))

include h hps

/-- One match more than the bound is looked for in each list, which is enough to know whether there
are more. -/
theorem Describes.searchCode_matchesIn (query : String) (bound : ℕ) {found : Matches}
    (hfound : found = matchesIn rs ps query) :
    ∃ answer, ix.searchCode (.text query) bound = .ok answer ∧
      answer.fields = searchFields (.text query) ((found.methods.take bound).map FoundMethod.hit)
        ((found.types.take bound).map hitOf) ((found.paths.take bound).map .text) ∧
      answer.report.status = found.status bound ∧
      answer.report.returned = (found.methods.take bound).length +
        (found.types.take bound).length + (found.paths.take bound).length := by
  cases hblank : Text.allBlank query with
  | true =>
    refine ⟨_, searchCode_of_blank hblank, ?_⟩
    rw [hfound, matchesIn_of_blank (Text.trim_of_allBlank hblank)]
    simp [Matches.status, AnswerReport.bare]
  | false =>
    have hshown {β : Type} (xs : List β) : upTo bound (xs.take (bound + 1)) = xs.take bound := by
      rw [upTo_natCast, List.take_take, min_eq_left (by omega)]
    have hmore {β : Type} (xs : List β) :
        (bound : ℤ) < (xs.take (bound + 1)).length ↔ bound < xs.length := by
      rw [List.length_take]
      omega
    have hmethods := h.searchMethods_matchesIn hps query (bound + 1)
    have htypes := h.searchTypes_matchesIn hps query (bound + 1)
    have hpaths := @searchPaths_matchesIn rs ps ix hps query (bound + 1)
    rw [Nat.cast_add, Nat.cast_one, ← hfound] at hmethods htypes hpaths
    rw [max_eq_left (by omega)] at hmethods
    obtain ⟨reason, hanswer⟩ := searchCode_eq hblank hmethods htypes hpaths
    simp only [hshown, hmore, List.take_eq_nil_iff, Nat.add_one_ne_zero, false_or] at hanswer
    exact ⟨_, hanswer, rfl, rfl, rfl⟩

theorem Describes.exists_reported (query : String) (bound : ℕ) :
    ∃ answer, ix.searchCode (.text query) bound = .ok answer ∧
      (matchesIn rs ps query).IsReportedIn query bound answer := by
  obtain ⟨found, hfound⟩ : ∃ found, found = matchesIn rs ps query := ⟨_, rfl⟩
  obtain ⟨answer, hanswer, hfields, hstatus, hreturned⟩ :=
    h.searchCode_matchesIn hps query bound hfound
  rw [← hfound]
  have hempty : Text.trim query = "" → found.IsEmpty := fun hblank => by
    rw [hfound, matchesIn_of_blank hblank]
    exact ⟨rfl, rfl, rfl⟩
  have hmethods : answer.toValue.items "methods" = (found.methods.take bound).map FoundMethod.hit :=
    Answer.items_toValue (by rw [hfields]; rfl)
  have htypes : answer.toValue.items "classes" = (found.types.take bound).map hitOf :=
    Answer.items_toValue (by rw [hfields]; rfl)
  have hpaths : answer.toValue.items "files" = (found.paths.take bound).map .text :=
    Answer.items_toValue (by rw [hfields]; rfl)
  refine ⟨answer, hanswer, hmethods, htypes, hpaths, ?returned, ?emptyResult, ?truncated, ?ok⟩
  case returned =>
    rw [hreturned, hmethods, htypes, hpaths, List.length_map, List.length_map, List.length_map]
  case emptyResult => rw [hstatus, or_iff_right_of_imp hempty, Matches.status_eq_emptyResult_iff]
  case truncated => rw [hstatus, Matches.status_eq_truncated_iff]
  case ok => rw [hstatus, or_iff_right_of_imp hempty, Matches.status_eq_ok_iff]

end Search

/-- The answer to a query gives the first of all methods, types and paths that hold its term, and is
empty, truncated or complete exactly if nothing is found, if more is found of a kind than the bound
allows, or neither. The types are given under the identifiers of their own places. -/
theorem search_reported (rs : List (FileResult String)) :
    ∃ ix, ofResults (rs.map (·.map .text)) = .ok ix ∧
      ∀ query : String, ∃ found : Matches, found.IsAll rs query ∧ ∀ bound : ℕ,
        ∃ answer, ix.searchCode (.text query) bound = .ok answer ∧
          found.IsReportedIn query bound answer ∧
          answer.toValue.column "classes" "id" = (found.types.take bound).map fun x =>
            some (.text (Uri.ofType x.1 x.2.1.isInterface x.2.1.name x.2.2)) := by
  obtain ⟨ix, hix, hdescribes⟩ := exists_ofResults rs
  obtain ⟨ps, hps, hsorted, hmem⟩ := hdescribes.exists_paths
  refine ⟨ix, hix, fun query => ⟨_, isAll_matchesIn hsorted hmem query, fun bound => ?_⟩⟩
  obtain ⟨answer, hanswer, hreported⟩ := hdescribes.exists_reported hps query bound
  refine ⟨answer, hanswer, hreported, ?_⟩
  rw [Value.column, hreported.types, List.map_map]
  exact List.map_congr_left fun x _ => by simp [hitOf]

/-- A list of an answer has the first of some items as far as a bound goes, and the answer is
truncated if some of them are left out. -/
structure Shows (a : Answer) (key : String) (bound : ℕ) (items : List Value) : Prop where
  items_eq : a.toValue.items key = items.take bound
  truncated : bound < items.length → a.report.status = .truncated

theorem shows_nil {a : Answer} {key : String} {bound : ℕ} (hnil : a.toValue.items key = []) :
    Shows a key bound [] where
  items_eq := by rw [hnil, List.take_nil]
  truncated := nofun

theorem shows_map {β : Type} {a : Answer} {key : String} {bound : ℕ} {f : β → Value} {xs : List β}
    (hitems : a.toValue.items key = (xs.take bound).map f)
    (htruncated : bound < xs.length → a.report.status = .truncated) :
    Shows a key bound (xs.map f) where
  items_eq := by rw [hitems, List.map_take]
  truncated hlt := htruncated (by rwa [List.length_map] at hlt)

theorem bounded_natCast (bound : ℕ) (items : List Value) :
    (bounded bound items).1 = items.take bound ∧
      (bound < items.length → (bounded bound items).2.status = .truncated) := by
  rw [bounded]
  split
  · next hnil =>
    rw [List.isEmpty_iff.mp hnil]
    simp
  · split
    · next hcut => exact ⟨upTo_natCast items bound, fun _ => rfl⟩
    · next hwhole =>
      rw [Nat.cast_lt] at hwhole
      refine ⟨(List.take_of_length_le (Nat.le_of_not_lt hwhole)).symm, fun hcut => ?_⟩
      exact absurd hcut hwhole

theorem shows_bounded {a : Answer} {key : String} {bound : ℕ} {items : List Value}
    (hitems : a.fields.lookup key = some (.list (bounded bound items).1))
    (hreport : a.report = (bounded bound items).2) : Shows a key bound items where
  items_eq := by rw [Answer.items_toValue hitems, (bounded_natCast bound items).1]
  truncated := by rw [hreport]; exact (bounded_natCast bound items).2

section Questions

variable (rs : List (FileResult String))

/-- What is listed of a path: its package, or the reason why it has none. -/
def fileEntry (path : String) : Value :=
  match (latest? rs path).bind (·.extraction?) with
  | some e => .ofFields [("path", .text path), ("package", cell? (e.source.package.map Value.text))]
  | none => .ofFields [("path", .text path),
    ("error", .text (((latest? rs path).bind (·.reason?)).getD ""))]

variable {rs} {ix : Index} (h : ix.Describes rs)

include h

theorem Describes.shows_listFiles {ps : List String} (hps : ix.paths = .ok (ps.map .text))
    (bound : ℕ) : ∃ answer, ix.listFiles bound = .ok answer ∧
      Shows answer "files" bound (ps.map (fileEntry rs)) := by
  rw [listFiles, hps, ok_bind, List.mapM_map, mapM_comp_ok (g := fileEntry rs) ?entries]
  case entries =>
    intro p _
    rw [h.extraction?, ok_bind, fileEntry]
    cases (latest? rs p).bind (·.extraction?) with
    | none =>
      simp only [Option.map_none, h.reason?]
      rfl
    | some e => rfl
  exact ⟨_, rfl, shows_bounded rfl rfl⟩

theorem Describes.shows_fileOutline (path : String) (bound : ℕ) :
    ∃ answer, ix.fileOutline (.text path) bound = .ok answer ∧
      Shows answer "classes" bound
        ((typesAt rs path).zipIdx.map fun (t, i) => outlineOf path t i) := by
  obtain ⟨report, hreport⟩ := h.exists_missingFile path
  rw [fileOutline, h.extraction?, ok_bind, typesAt]
  cases (latest? rs path).bind (·.extraction?) with
  | none =>
    simp only [Option.map_none, hreport]
    exact ⟨_, rfl, shows_nil (Answer.items_toValue rfl)⟩
  | some e =>
    simp only [Option.map_some, mapM_typeOutline, ok_bind]
    exact ⟨_, rfl, shows_bounded rfl rfl⟩

theorem Describes.shows_flowSummary (path : String) (bound : ℕ) :
    ∃ answer, ix.flowSummary (.text path) bound = .ok answer ∧
      Shows answer "edges" bound
        ((Flow.linksOf (stagesAt rs path)).map (Flow.edgeValue path)) ∧
      ∀ tag : StageTag, answer.toValue.items tag.plural =
        ((stagesAt rs path).filter (·.tag = tag)).map (Flow.nodeValue path) := by
  have hfile := h.extraction? path
  rw [stagesAt]
  cases hlatest : (latest? rs path).bind (·.extraction?) with
  | none =>
    obtain ⟨report, hreport⟩ := h.exists_missingFile path
    rw [hlatest] at hfile
    rw [flowSummary, hfile, ok_bind, Option.map_none]
    simp only [hreport, ok_bind, Option.map_none, Option.getD_none, Flow.linksOf_nil]
    refine ⟨_, rfl, shows_nil ?_, fun tag => ?_⟩
    · exact Value.items_ofFields_of_none (by simp [List.lookup_cons])
    · exact Value.items_ofFields_of_none (by cases tag <;> simp [StageTag.plural, List.lookup_cons])
  | some e =>
    rw [hlatest] at hfile
    obtain ⟨answer, hanswer, -, hedges, hcut, htagged⟩ := exists_flowSummary_bounded hfile bound
    obtain ⟨hshown, htruncated⟩ := bounded_natCast bound
      ((Flow.linksOf e.stages).map (Flow.edgeValue path))
    exact ⟨answer, hanswer, ⟨hedges.trans hshown, fun hlt => hcut (htruncated hlt)⟩, htagged⟩

end Questions

/-- Every list of an answer has the first of what there is, as far as the bound goes, and the answer
is truncated if something is left out. Only the stages of a flow are all given, however many there
are. -/
theorem lists_bounded (rs : List (FileResult String)) :
    ∃ ix, ofResults (rs.map (·.map .text)) = .ok ix ∧
      (∃ ps : List String, (ps.Pairwise (· < ·) ∧ ∀ p, p ∈ ps ↔ ∃ r ∈ rs, r.path = p) ∧
        ∀ bound : ℕ, ∃ answer, ix.listFiles bound = .ok answer ∧
          Shows answer "files" bound (ps.map (fileEntry rs))) ∧
      (∀ query : String, ∃ found : Matches, found.IsAll rs query ∧
        ∀ bound : ℕ, ∃ answer, ix.searchCode (.text query) bound = .ok answer ∧
          Shows answer "methods" bound (found.methods.map FoundMethod.hit) ∧
          Shows answer "classes" bound (found.types.map hitOf) ∧
          Shows answer "files" bound (found.paths.map .text)) ∧
      ∀ (path : String) (bound : ℕ),
        (∃ answer, ix.fileOutline (.text path) bound = .ok answer ∧
          Shows answer "classes" bound
            ((typesAt rs path).zipIdx.map fun (t, i) => outlineOf path t i)) ∧
        ∃ answer, ix.flowSummary (.text path) bound = .ok answer ∧
          Shows answer "edges" bound
            ((Flow.linksOf (stagesAt rs path)).map (Flow.edgeValue path)) ∧
          ∀ tag : StageTag, answer.toValue.items tag.plural =
            ((stagesAt rs path).filter (·.tag = tag)).map (Flow.nodeValue path) := by
  obtain ⟨ix, hix, hdescribes⟩ := exists_ofResults rs
  obtain ⟨ps, hps, hsorted, hmem⟩ := hdescribes.exists_paths
  refine ⟨ix, hix, ⟨ps, ⟨hsorted, hmem⟩, fun bound => hdescribes.shows_listFiles hps bound⟩,
    fun query => ⟨_, isAll_matchesIn hsorted hmem query, fun bound => ?_⟩,
    fun path bound => ⟨hdescribes.shows_fileOutline path bound,
      hdescribes.shows_flowSummary path bound⟩⟩
  obtain ⟨answer, hanswer, hreported⟩ := hdescribes.exists_reported hps query bound
  have hcut := hreported.truncated_iff.mpr
  exact ⟨answer, hanswer, shows_map hreported.methods fun hlt => hcut (Or.inl hlt),
    shows_map hreported.types fun hlt => hcut (Or.inr (Or.inl hlt)),
    shows_map hreported.paths fun hlt => hcut (Or.inr (Or.inr hlt))⟩

def sampleSources : FileExtraction String where
  source := ⟨"/A.java", none, []⟩
  types := []
  stages := [⟨.source, "csv", [], some "a", 1, 0⟩, ⟨.source, "csv", [], some "b", 2, 1⟩]
  parseErrorCount := 0

/-- Both sources are shown where the bound allows one. -/
theorem sampleSources_unbounded :
    ∃ ix answer, ofResults ([FileResult.extracted sampleSources].map (·.map .text)) = .ok ix ∧
      ix.flowSummary (.text "/A.java") 1 = .ok answer ∧
      (answer.toValue.items "sources").length = 2 := by
  obtain ⟨ix, hix, hdescribes⟩ := exists_ofResults [.extracted sampleSources]
  obtain ⟨answer, hanswer, -, htagged⟩ := hdescribes.shows_flowSummary "/A.java" 1
  have hsources : answer.toValue.items "sources" = _ := htagged .source
  refine ⟨ix, answer, hix, hanswer, ?_⟩
  rw [hsources, List.length_map]
  rfl

end Index

end CodeAtlas

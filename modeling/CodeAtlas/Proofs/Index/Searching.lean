import CodeAtlas.Index.Question
import CodeAtlas.Proofs.Entity.Declared
import CodeAtlas.Proofs.Graph.Subgraph
import CodeAtlas.Proofs.Index.Latest
import CodeAtlas.Proofs.Index.MethodLookup
import CodeAtlas.Proofs.Text.Lines

/-! # What a search finds

A search in an index of texts always has an answer. The types that it finds are given with their
identifiers, file by file and in the order of each file.
-/

namespace CodeAtlas

section Bounds

variable {β γ : Type} (bound : ℤ) (xs : List β)

theorem upTo_map (f : β → γ) : upTo bound (xs.map f) = (upTo bound xs).map f := by
  unfold upTo
  split <;> simp [List.map_take]

@[simp] theorem upTo_nil : upTo bound ([] : List β) = [] := by
  unfold upTo
  split <;> exact List.take_nil

theorem upTo_natCast (n : ℕ) : upTo n xs = xs.take n := by
  rw [upTo, if_pos (by omega), Int.toNat_natCast]

theorem upTo_isPrefix : upTo bound xs <+: xs := by
  unfold upTo
  split <;> exact List.take_prefix _ _

theorem upTo_eq_self {bound : ℤ} {xs : List β} (h : xs.length ≤ bound) : upTo bound xs = xs := by
  rw [upTo, if_pos (by omega), List.take_of_length_le (by omega)]

theorem bounded_of_le {bound : ℤ} {items : List Value} (h : items.length ≤ bound) :
    (bounded bound items).1 = items := by
  rw [bounded]
  split
  · next hnil => exact (List.isEmpty_iff.mp hnil).symm
  · rw [if_neg (by omega)]

end Bounds

namespace Index

theorem filterAuxM_map {β γ : Type} {f : β → γ} {test : γ → Result Bool} {p : β → Bool}
    {xs : List β} (h : ∀ x ∈ xs, test (f x) = .ok (p x)) (acc : List γ) :
    List.filterAuxM test (xs.map f) acc = .ok (((xs.filter p).map f).reverse ++ acc) := by
  induction xs generalizing acc with
  | nil => rfl
  | cons x xs ih =>
    rw [List.map_cons, List.filterAuxM, h x List.mem_cons_self, ok_bind,
      ih fun y hy => h y (List.mem_cons_of_mem _ hy)]
    cases hx : p x <;> simp [hx]

theorem filterM_map {β γ : Type} {f : β → γ} {test : γ → Result Bool} {p : β → Bool}
    {xs : List β} (h : ∀ x ∈ xs, test (f x) = .ok (p x)) :
    (xs.map f).filterM test = .ok ((xs.filter p).map f) := by
  rw [List.filterM, filterAuxM_map h]
  simp

theorem exists_mapM_of_forall {β γ : Type} {f : β → Result γ} {xs : List β}
    (h : ∀ x ∈ xs, ∃ y, f x = .ok y) : ∃ ys, xs.mapM f = .ok ys := by
  induction xs with
  | nil => exact ⟨[], rfl⟩
  | cons x xs ih =>
    obtain ⟨y, hy⟩ := h x List.mem_cons_self
    obtain ⟨ys, hys⟩ := ih fun z hz => h z (List.mem_cons_of_mem _ hz)
    rw [List.mapM_cons, hy, ok_bind, hys]
    exact ⟨_, rfl⟩

/-- A text holds the term of a query, whatever the case of the letters. -/
def finds (query s : String) : Bool :=
  let term := Text.lower (Text.trim query)
  term != "" && Value.isInfix term.toList (Text.lower s).toList

theorem holds_text (term s : String) :
    holds term (.text s) = .ok (Value.isInfix term.toList (Text.lower s).toList) := rfl

theorem holds_term {query : String} (hterm : Text.lower (Text.trim query) ≠ "") (s : String) :
    holds (Text.lower (Text.trim query)) (.text s) = .ok (finds query s) := by
  rw [holds_text, finds, bne_iff_ne.mpr hterm, Bool.true_and]

theorem finds_of_empty {query : String} (h : Text.lower (Text.trim query) = "") :
    finds query = fun _ => false := by
  funext s
  simp [finds, h]

theorem finds_of_blank {query : String} (h : Text.allBlank query = true) (s : String) :
    finds query s = false := by
  rw [finds, Text.trim_of_allBlank h]
  rfl

theorem isBlankQuery_text (query : String) :
    isBlankQuery (.text query) = .ok (Text.allBlank query) := by
  by_cases h : query = ""
  · subst h
    rfl
  · have htruthy : (Value.text query).truthy = true := by
      simpa [Value.truthy, Scalar.truthy] using h
    rw [isBlankQuery, if_pos htruthy]
    rfl

def typesAt (rs : List (FileResult String)) (path : String) : List (TypeDeclaration String) :=
  (((latest? rs path).bind (·.extraction?)).map (·.types)).getD []

def stagesAt (rs : List (FileResult String)) (path : String) : List (Stage String) :=
  (((latest? rs path).bind (·.extraction?)).map (·.stages)).getD []

abbrev Found := String × TypeDeclaration String × ℕ

def foundAt (rs : List (FileResult String)) (path : String) : List Found :=
  (typesAt rs path).zipIdx.map fun x => (path, x)

def entryOf (x : Found) : TypeEntry := ⟨.text x.1, x.2.1.map .text, x.2.2⟩

def hitOf (x : Found) : Value :=
  .ofFields [("id", .text (Uri.ofType x.1 x.2.1.isInterface x.2.1.name x.2.2)),
    ("name", .text x.2.1.name), ("filePath", .text x.1)]

theorem typeHit_entryOf (x : Found) : typeHit (entryOf x) = .ok (hitOf x) := by
  obtain ⟨path, t, i⟩ := x
  rw [typeHit, entryOf, TypeDeclaration.uri_map]
  rfl

section Types

variable {ix : Index} {rs : List (FileResult String)} (h : ix.Describes rs)

include h

theorem Describes.extraction? (path : String) : ix.extraction? (.text path) =
    .ok (((latest? rs path).bind (·.extraction?)).map (·.map .text)) := by
  rw [Index.extraction?, h.result?, ok_bind]
  cases latest? rs path with
  | none => rfl
  | some r => cases r <;> rfl

theorem Describes.typesOf (path : String) :
    ix.typesOf (.text path) = .ok ((foundAt rs path).map entryOf) := by
  rw [Index.typesOf, types, h.extraction?, foundAt, typesAt]
  cases (latest? rs path).bind (·.extraction?) with
  | none => rfl
  | some e =>
    simp only [ok_bind, Option.map_some, Option.getD_some, pure_eq_ok, FileExtraction.map,
      List.zipIdx_map, List.map_map]
    rfl

theorem Describes.allTypes {ps : List String} (hps : ix.paths = .ok (ps.map .text)) :
    ix.allTypes = .ok ((ps.flatMap (foundAt rs)).map entryOf) := by
  have hfiles : (ps.map Value.text).mapM ix.typesOf =
      .ok (ps.map fun p => (foundAt rs p).map entryOf) := by
    rw [List.mapM_map]
    exact mapM_comp_ok fun p _ => h.typesOf p
  rw [Index.allTypes, hps, ok_bind, hfiles, ok_bind, List.map_flatMap, List.flatMap]
  rfl

theorem Describes.searchTypes {ps : List String} (hps : ix.paths = .ok (ps.map .text))
    (query : String) (limit : ℤ) : ix.searchTypes (.text query) limit = .ok
      ((upTo limit ((ps.flatMap (foundAt rs)).filter fun x => finds query x.2.1.name)).map
        entryOf) := by
  rw [Index.searchTypes, needle, ok_bind]
  split
  · next hempty =>
    simp [finds_of_empty hempty]
  · next hterm =>
    have hfilter (xs : List Found) :
        (xs.map entryOf).filterM (fun t => holds (Text.lower (Text.trim query)) t.type.name) =
          .ok ((xs.filter fun x => finds query x.2.1.name).map entryOf) :=
      filterM_map fun x _ => holds_term hterm x.2.1.name
    rw [h.allTypes hps, ok_bind, hfilter, ok_bind, upTo_map]
    rfl

end Types

/-- A method with its type and its place among the methods of the type. -/
abbrev Site := Found × Method String × ℕ

def sitesOf (x : Found) : List Site := x.2.1.methods.zipIdx.map fun m => (x, m)

/-- A method that holds a term. -/
structure FoundMethod where
  site : Site
  place : MatchPlace

def placeIn? (query : String) (m : Method String) : Option MatchPlace :=
  if finds query m.name then some .name
  else if m.body.any (finds query) then some .body
  else none

def foundMethod? (query : String) (x : Site) : Option FoundMethod :=
  (placeIn? query x.2.1).map fun place => ⟨x, place⟩

namespace FoundMethod

variable (x : FoundMethod)

abbrev path : String := x.site.1.1

abbrev owner : TypeDeclaration String := x.site.1.2.1

abbrev method : Method String := x.site.2.1

def entry : MethodMatch := ⟨.text x.path, .text x.owner.name, x.method.map .text, x.place⟩

def hit : Value :=
  .ofFields (summaryFields x.path x.owner.name x.method ++
    [("className", .text x.owner.name), ("filePath", .text x.path),
      ("matchedIn", .text x.place.label)])

theorem methodHit_entry : methodHit x.entry = .ok x.hit := by
  rw [methodHit, entry, methodSummary_map]
  rfl

end FoundMethod

theorem placeOf_map {query : String} (hterm : Text.lower (Text.trim query) ≠ "")
    (m : Method String) :
    placeOf (Text.lower (Text.trim query)) (m.map .text) = .ok (placeIn? query m) := by
  have hbody : holds (Text.lower (Text.trim query)) (cell? (m.map Value.text).body) =
      .ok (m.body.any (finds query)) := by
    have hcell : cell? (m.map Value.text).body = cell? (m.body.map Value.text) := rfl
    rw [hcell]
    cases m.body with
    | none => rfl
    | some s => rw [show cell? (Option.map Value.text (some s)) = .text s from rfl,
        holds_term hterm, Option.any_some]
  have hname : (m.map Value.text).name = .text m.name := rfl
  rw [placeOf, hname, holds_term hterm, ok_bind, placeIn?]
  split
  · rfl
  · rw [hbody, ok_bind]
    split <;> rfl

/-- The first match is kept whatever the limit is. -/
theorem matchMethods_map {query : String} (hterm : Text.lower (Text.trim query) ≠ "") (limit : ℤ)
    (n : ℕ) (xs : List Site) :
    matchMethods (Text.lower (Text.trim query)) limit n
        (xs.map fun x => (entryOf x.1, x.2.1.map .text)) =
      .ok (((xs.filterMap (foundMethod? query)).take (max (limit - n).toNat 1)).map
        FoundMethod.entry) := by
  -- `n` matches were found before `xs`.
  induction xs generalizing n with
  | nil => simp [matchMethods]
  | cons x xs ih =>
    rw [List.map_cons, matchMethods, placeOf_map hterm, ok_bind]
    cases hplace : placeIn? query x.2.1 with
    | none =>
      have hnone : foundMethod? query x = none := by rw [foundMethod?, hplace]; rfl
      rw [List.filterMap_cons_none hnone]
      exact ih n
    | some place =>
      have hsome : foundMethod? query x = some ⟨x, place⟩ := by rw [foundMethod?, hplace]; rfl
      rw [List.filterMap_cons_some hsome]
      dsimp only
      split
      · next hlast =>
        have hone : max (limit - n).toNat 1 = 1 := by omega
        rw [hone]
        rfl
      · next hmore =>
        have hsucc : max (limit - n).toNat 1 = max (limit - (n + 1 : ℕ)).toNat 1 + 1 := by omega
        rw [hsucc, ih (n + 1)]
        rfl

section Search

variable {ix : Index} {ps : List String} (hps : ix.paths = .ok (ps.map .text))

include hps

/-- The methods that are found under a limit are the first ones, but always one if there is any. -/
theorem Describes.searchMethods {rs : List (FileResult String)} (h : ix.Describes rs)
    (query : String) (limit : ℤ) :
    let found := ((ps.flatMap (foundAt rs)).flatMap sitesOf).filterMap (foundMethod? query)
    ix.searchMethods (.text query) limit =
      .ok ((found.take (max limit.toNat 1)).map FoundMethod.entry) := by
  have hmethods (xs : List Found) : allMethods (xs.map entryOf) =
      (xs.flatMap sitesOf).map fun x => (entryOf x.1, x.2.1.map .text) := by
    rw [allMethods, List.flatMap_map, List.map_flatMap]
    refine List.flatMap_congr fun x _ => ?_
    rw [sitesOf, List.map_map, entryOf, TypeDeclaration.map, List.map_map,
      ← Graph.map_zipIdx_fst x.2.1.methods]
    rfl
  rw [Index.searchMethods, needle, ok_bind]
  split
  · next hempty =>
    have hnone (x : Site) : foundMethod? query x = none := by
      simp [foundMethod?, placeIn?, finds_of_empty hempty]
    simp [hnone]
  · next hterm =>
    rw [h.allTypes hps, ok_bind, hmethods, matchMethods_map hterm]
    simp

theorem searchPaths_eq (query : String) (limit : ℤ) :
    ix.searchPaths (.text query) limit =
      .ok ((upTo limit (ps.filter (finds query))).map .text) := by
  rw [Index.searchPaths, needle, ok_bind]
  split
  · next hempty =>
    simp [finds_of_empty hempty]
  · next hterm =>
    rw [hps, ok_bind, filterM_map fun p _ => holds_term hterm p, ok_bind, upTo_map]
    rfl

end Search

section Answer

variable {ix : Index} {query : String} {bound : ℤ} {methods : List FoundMethod}
  {types : List Found} {paths : List String}

theorem searchCode_eq (hblank : Text.allBlank query = false)
    (hmethods : ix.searchMethods (.text query) (bound + 1) = .ok (methods.map FoundMethod.entry))
    (htypes : ix.searchTypes (.text query) (bound + 1) = .ok (types.map entryOf))
    (hpaths : ix.searchPaths (.text query) (bound + 1) = .ok (paths.map .text)) :
    ∃ reason, ix.searchCode (.text query) bound = .ok
      ⟨searchFields (.text query) ((upTo bound methods).map FoundMethod.hit)
          ((upTo bound types).map hitOf) ((upTo bound paths).map .text),
        ⟨if methods = [] ∧ types = [] ∧ paths = [] then .emptyResult
          else if bound < methods.length ∨ bound < types.length ∨ bound < paths.length
            then .truncated
          else .ok,
        reason, methods.length + types.length + paths.length,
        (upTo bound methods).length + (upTo bound types).length + (upTo bound paths).length⟩⟩ := by
  have hhits : (methods.map FoundMethod.entry).mapM methodHit =
      .ok (methods.map FoundMethod.hit) := by
    rw [List.mapM_map]
    exact mapM_comp_ok fun x _ => x.methodHit_entry
  have htypeHits : (types.map entryOf).mapM typeHit = .ok (types.map hitOf) := by
    rw [List.mapM_map]
    exact mapM_comp_ok fun x _ => typeHit_entryOf x
  rw [searchCode, isBlankQuery_text, ok_bind, hblank, if_neg Bool.false_ne_true, hmethods, ok_bind,
    hhits, ok_bind, htypes, ok_bind, htypeHits, ok_bind, hpaths, ok_bind]
  simp only [upTo_map]
  set lists := [methods.map FoundMethod.hit, types.map hitOf, paths.map Value.text] with hlists
  have hempty : lists.flatten.length = 0 ↔ methods = [] ∧ types = [] ∧ paths = [] := by
    simp [hlists]
  have hmore : lists.any (fun xs => decide (bound < xs.length)) = true ↔
      bound < methods.length ∨ bound < types.length ∨ bound < paths.length := by
    simp [hlists]
  have htotal : lists.flatten.length = methods.length + types.length + paths.length := by
    simp [hlists, add_assoc]
  have hreturned : (lists.flatMap (upTo bound)).length =
      (upTo bound methods).length + (upTo bound types).length + (upTo bound paths).length := by
    simp [hlists, upTo_map, add_assoc]
  simp only [hempty, hmore, hreturned, apply_ite Prod.fst]
  rw [htotal]
  exact ⟨_, rfl⟩

theorem searchCode_of_blank (hblank : Text.allBlank query = true) :
    ix.searchCode (.text query) bound =
      .ok ⟨searchFields (.text query) [] [] [], .bare .emptyResult "empty_query"⟩ := by
  rw [searchCode, isBlankQuery_text, ok_bind, hblank]
  rfl

/-- Every search has an answer, which gives the types whose names hold the term as far as the bound
goes. -/
theorem Describes.exists_searchCode {rs : List (FileResult String)} (h : ix.Describes rs)
    {ps : List String} (hps : ix.paths = .ok (ps.map .text)) (query : String) (bound : ℤ) :
    ∃ answer, ix.searchCode (.text query) bound = .ok answer ∧
      answer.fields.lookup "classes" = some (.list (upTo bound (upTo (bound + 1)
        (((ps.flatMap (foundAt rs)).filter fun x => finds query x.2.1.name).map hitOf)))) := by
  cases hblank : Text.allBlank query with
  | true =>
    refine ⟨_, searchCode_of_blank hblank, ?_⟩
    simp [finds_of_blank hblank, searchFields, List.lookup_cons]
  | false =>
    obtain ⟨reason, hanswer⟩ := searchCode_eq hblank (h.searchMethods hps query (bound + 1))
      (h.searchTypes hps query (bound + 1)) (searchPaths_eq hps query (bound + 1))
    refine ⟨_, hanswer, ?_⟩
    simp [searchFields, List.lookup_cons, upTo_map]

end Answer

end Index

end CodeAtlas

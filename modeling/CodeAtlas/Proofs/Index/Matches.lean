import Mathlib.Data.List.Infix
import CodeAtlas.Proofs.Index.Surfaces
import CodeAtlas.Proofs.Text.Casing

/-! # The matches of a search

The methods, types and paths that hold a term are found in the order of the paths, of the types of
a file and of the methods of a type. A limit leaves the first of them; only of the methods one is
left under a limit of zero too.
-/

namespace CodeAtlas

theorem Value.isInfix_iff {part cs : List Char} : isInfix part cs = true ↔ part <:+: cs := by
  induction cs with
  | nil => simp [isInfix]
  | cons c cs ih => simp [isInfix, List.infix_cons_iff, ih]

namespace Index

section Terms

variable {query : String}

/-- A text holds the term of a query, whatever the case of the letters. -/
def Holds (query s : String) : Prop :=
  Text.trim query ≠ "" ∧ (Text.lower (Text.trim query)).toList <:+: (Text.lower s).toList

theorem finds_iff {s : String} : finds query s = true ↔ Holds query s := by
  rw [finds, Bool.and_eq_true, bne_iff_ne, ne_eq, Text.lower_eq_empty_iff, Value.isInfix_iff, Holds]

/-- A method holds the term of a query in its name, or else in its body. -/
def HoldsAt (query : String) (m : Method String) : MatchPlace → Prop
  | .name => Holds query m.name
  | .body => ¬ Holds query m.name ∧ ∃ body, m.body = some body ∧ Holds query body

theorem placeIn?_eq_some_iff {m : Method String} {place : MatchPlace} :
    placeIn? query m = some place ↔ HoldsAt query m place := by
  have hbody : m.body.any (finds query) = true ↔ ∃ body, m.body = some body ∧ Holds query body := by
    simp [Option.any_eq_true, finds_iff]
  rw [placeIn?]
  by_cases hname : finds query m.name = true
  · rw [if_pos hname]
    cases place <;> simp [HoldsAt, finds_iff.mp hname]
  · rw [if_neg hname]
    rw [finds_iff] at hname
    by_cases hb : m.body.any (finds query) = true
    · rw [if_pos hb]
      cases place <;> simp [HoldsAt, hname, hbody.mp hb]
    · rw [if_neg hb]
      rw [hbody] at hb
      cases place <;> simp [HoldsAt, hname, hb]

end Terms

def IsTypeOf (rs : List (FileResult String)) (x : Found) : Prop :=
  ∃ e : FileExtraction String, latest? rs x.1 = some (.extracted e) ∧ e.types[x.2.2]? = some x.2.1

def IsMethodOf (rs : List (FileResult String)) (x : Site) : Prop :=
  IsTypeOf rs x.1 ∧ x.1.2.1.methods[x.2.2]? = some x.2.1

/-- By path, then by index in the file. -/
def IsTypeBefore (x y : Found) : Prop := x.1 < y.1 ∨ x.1 = y.1 ∧ x.2.2 < y.2.2

/-- By type, then by place in the type. -/
def IsMethodBefore (x y : Site) : Prop := IsTypeBefore x.1 y.1 ∨ x.1 = y.1 ∧ x.2.2 < y.2.2

theorem pairwise_zipIdx {β : Type} (xs : List β) : xs.zipIdx.Pairwise fun x y => x.2 < y.2 := by
  rw [← List.pairwise_map (f := Prod.snd), List.zipIdx_map_snd]
  exact List.pairwise_lt_range'

section Places

variable {rs : List (FileResult String)}

theorem mem_foundAt_iff {path : String} {x : Found} :
    x ∈ foundAt rs path ↔ x.1 = path ∧ IsTypeOf rs x := by
  obtain ⟨p, t, i⟩ := x
  have hmem : (p, t, i) ∈ foundAt rs path ↔ p = path ∧ (typesAt rs path)[i]? = some t := by
    simp [foundAt, List.mem_zipIdx_iff_getElem?, and_comm, eq_comm]
  rw [hmem]
  refine and_congr_right ?_
  rintro rfl
  rw [IsTypeOf, typesAt]
  cases latest? rs p with
  | none => simp
  | some r => cases r <;> simp [FileResult.extraction?]

theorem mem_sitesOf_iff {x : Found} {y : Site} :
    y ∈ sitesOf x ↔ y.1 = x ∧ x.2.1.methods[y.2.2]? = some y.2.1 := by
  obtain ⟨owner, m, i⟩ := y
  simp [sitesOf, List.mem_zipIdx_iff_getElem?, and_comm, eq_comm]

theorem pairwise_foundAt {ps : List String} (hps : ps.Pairwise (· < ·)) :
    (ps.flatMap (foundAt rs)).Pairwise IsTypeBefore := by
  rw [List.pairwise_flatMap]
  refine ⟨fun p _ => ?_, hps.imp fun {p q} hlt x hx y hy => ?_⟩
  · rw [foundAt, List.pairwise_map]
    exact (pairwise_zipIdx _).imp fun hlt => Or.inr ⟨rfl, hlt⟩
  · rw [mem_foundAt_iff] at hx hy
    exact Or.inl (hx.1 ▸ hy.1 ▸ hlt)

theorem pairwise_sitesOf {xs : List Found} (hxs : xs.Pairwise IsTypeBefore) :
    (xs.flatMap sitesOf).Pairwise IsMethodBefore := by
  rw [List.pairwise_flatMap]
  refine ⟨fun x _ => ?_, hxs.imp fun {x y} hbefore a ha b hb => ?_⟩
  · rw [sitesOf, List.pairwise_map]
    exact (pairwise_zipIdx _).imp fun hlt => Or.inr ⟨rfl, hlt⟩
  · rw [mem_sitesOf_iff] at ha hb
    exact Or.inl (ha.1 ▸ hb.1 ▸ hbefore)

end Places

structure Matches where
  methods : List FoundMethod
  types : List Found
  paths : List String

/-- All methods, types and paths that hold the term of a query, each once and in order. -/
structure Matches.IsAll (found : Matches) (rs : List (FileResult String)) (query : String) :
    Prop where
  mem_methods : ∀ x, x ∈ found.methods ↔ IsMethodOf rs x.site ∧ HoldsAt query x.method x.place
  methods_inOrder : found.methods.Pairwise fun x y => IsMethodBefore x.site y.site
  mem_types : ∀ x, x ∈ found.types ↔ IsTypeOf rs x ∧ Holds query x.2.1.name
  types_inOrder : found.types.Pairwise IsTypeBefore
  mem_paths : ∀ p, p ∈ found.paths ↔ (∃ r ∈ rs, r.path = p) ∧ Holds query p
  paths_inOrder : found.paths.Pairwise (· < ·)

def matchesIn (rs : List (FileResult String)) (ps : List String) (query : String) : Matches where
  methods := ((ps.flatMap (foundAt rs)).flatMap sitesOf).filterMap (foundMethod? query)
  types := (ps.flatMap (foundAt rs)).filter fun x => finds query x.2.1.name
  paths := ps.filter (finds query)

section All

variable {rs : List (FileResult String)} {ps : List String}

theorem isAll_matchesIn (hps : ps.Pairwise (· < ·)) (hmem : ∀ p, p ∈ ps ↔ ∃ r ∈ rs, r.path = p)
    (query : String) : (matchesIn rs ps query).IsAll rs query := by
  have htypes (x : Found) : x ∈ ps.flatMap (foundAt rs) ↔ IsTypeOf rs x := by
    simp only [List.mem_flatMap, mem_foundAt_iff]
    refine ⟨fun ⟨p, _, _, hx⟩ => hx, fun hx => ⟨x.1, (hmem _).mpr ?_, rfl, hx⟩⟩
    obtain ⟨e, he, -⟩ := hx
    exact ⟨_, mem_of_latest? he⟩
  have hsites (x : Site) : x ∈ (ps.flatMap (foundAt rs)).flatMap sitesOf ↔ IsMethodOf rs x := by
    simp only [List.mem_flatMap (f := sitesOf), htypes, mem_sitesOf_iff, IsMethodOf]
    constructor
    · rintro ⟨owner, howner, rfl, hm⟩
      exact ⟨howner, hm⟩
    · rintro ⟨howner, hm⟩
      exact ⟨x.1, howner, rfl, hm⟩
  constructor
  case mem_methods =>
    rintro ⟨site, place⟩
    simp only [matchesIn, List.mem_filterMap, hsites, foundMethod?, Option.map_eq_some_iff,
      placeIn?_eq_some_iff, FoundMethod.mk.injEq]
    constructor
    · rintro ⟨_, hsite, _, hplace, rfl, rfl⟩
      exact ⟨hsite, hplace⟩
    · rintro ⟨hsite, hplace⟩
      exact ⟨site, hsite, place, hplace, rfl, rfl⟩
  case methods_inOrder =>
    refine List.Pairwise.filterMap _ (fun a b hbefore x hx y hy => ?_)
      (pairwise_sitesOf (pairwise_foundAt hps))
    obtain ⟨_, -, rfl⟩ := Option.map_eq_some_iff.mp hx
    obtain ⟨_, -, rfl⟩ := Option.map_eq_some_iff.mp hy
    exact hbefore
  case mem_types =>
    intro x
    rw [matchesIn, List.mem_filter, htypes, finds_iff]
  case types_inOrder => exact (pairwise_foundAt hps).filter _
  case mem_paths =>
    intro p
    rw [matchesIn, List.mem_filter, hmem, finds_iff]
  case paths_inOrder => exact hps.filter _

variable {ix : Index} (h : ix.Describes rs) (hps : ix.paths = .ok (ps.map .text))

include h hps

theorem Describes.searchMethods_matchesIn (query : String) (limit : ℕ) :
    ix.searchMethods (.text query) limit =
      .ok (((matchesIn rs ps query).methods.take (max limit 1)).map FoundMethod.entry) := by
  rw [h.searchMethods hps, Int.toNat_natCast]
  rfl

theorem Describes.searchTypes_matchesIn (query : String) (limit : ℕ) :
    ix.searchTypes (.text query) limit =
      .ok (((matchesIn rs ps query).types.take limit).map entryOf) := by
  rw [h.searchTypes hps, upTo_natCast]
  rfl

omit h in
theorem searchPaths_matchesIn (query : String) (limit : ℕ) :
    ix.searchPaths (.text query) limit =
      .ok (((matchesIn rs ps query).paths.take limit).map .text) := by
  rw [searchPaths_eq hps, upTo_natCast]
  rfl

end All

/-- A search with a limit gives the first of all matches. The first method is given even if the
limit is zero. -/
theorem search_limited (rs : List (FileResult String)) :
    ∃ ix, ofResults (rs.map (·.map .text)) = .ok ix ∧
      ∀ query : String, ∃ found : Matches, found.IsAll rs query ∧ ∀ limit : ℕ,
        ix.searchMethods (.text query) limit =
            .ok ((found.methods.take (max limit 1)).map FoundMethod.entry) ∧
          ix.searchTypes (.text query) limit = .ok ((found.types.take limit).map entryOf) ∧
          ix.searchPaths (.text query) limit = .ok ((found.paths.take limit).map .text) := by
  obtain ⟨ix, hix, hdescribes⟩ := exists_ofResults rs
  obtain ⟨ps, hps, hsorted, hmem⟩ := hdescribes.exists_paths
  refine ⟨ix, hix, fun query => ⟨matchesIn rs ps query, isAll_matchesIn hsorted hmem query,
    fun limit => ⟨?_, ?_, ?_⟩⟩⟩
  · exact hdescribes.searchMethods_matchesIn hps query limit
  · exact hdescribes.searchTypes_matchesIn hps query limit
  · exact searchPaths_matchesIn hps query limit

/-- Under a limit of zero a method is found, but no type and no path. -/
theorem samplePipeline_limit_zero :
    ∃ ix, ofResults ([FileResult.extracted samplePipeline].map (·.map .text)) = .ok ix ∧
      ix.searchMethods (.text "f") 0 = .ok [⟨.text "/A.java", .text "A",
        (sampleOverload "int" "\x7b return; \x7d").map .text, .name⟩] ∧
      ix.searchTypes (.text "a") 0 = .ok [] ∧ ix.searchPaths (.text "a") 0 = .ok [] := by
  refine ⟨_, rfl, rfl, rfl, rfl⟩

end Index

end CodeAtlas

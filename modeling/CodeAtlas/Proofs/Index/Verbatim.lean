import CodeAtlas.Proofs.Index.Matches

/-! # Verbatim occurrences

A search finds a term where it stands verbatim, if its capital sigmas take the form there that they
take in the term alone. A capital sigma at an end of the term may take another form in a longer
word, and then the term is not found in the text that holds it.
-/

namespace CodeAtlas.Index

theorem holds_of_keepsSigmas {query s : String} {before after : List Char}
    (hterm : Text.trim query ≠ "")
    (hs : s.toList = before ++ (Text.trim query).toList ++ after)
    (hkept : Text.KeepsSigmas before.reverse (Text.trim query).toList after) : Holds query s :=
  ⟨hterm, Text.lower_isInfix hs hkept⟩

namespace Matches.IsAll

variable {found : Matches} {rs : List (FileResult String)} {query s : String}
  (h : found.IsAll rs query) (hs : Holds query s)

include h hs

theorem exists_method {x : Site} (hx : IsMethodOf rs x)
    (htext : x.2.1.name = s ∨ x.2.1.body = some s) : ∃ place, ⟨x, place⟩ ∈ found.methods := by
  by_cases hname : Holds query x.2.1.name
  · exact ⟨.name, (h.mem_methods _).mpr ⟨hx, hname⟩⟩
  · have hbody : x.2.1.body = some s := by
      refine htext.resolve_left ?_
      rintro rfl
      exact hname hs
    exact ⟨.body, (h.mem_methods _).mpr ⟨hx, hname, s, hbody, hs⟩⟩

theorem mem_type {x : Found} (hx : IsTypeOf rs x) (htext : x.2.1.name = s) : x ∈ found.types :=
  (h.mem_types x).mpr ⟨hx, by rwa [htext]⟩

theorem mem_path (hpath : ∃ r ∈ rs, r.path = s) : s ∈ found.paths :=
  (h.mem_paths s).mpr ⟨hpath, hs⟩

end Matches.IsAll

/-- Under a limit larger than the number of matches, a search gives every method, type and path with
a text that has the term verbatim, if each capital sigma of the term takes the form there that it
takes in the term alone. This is so exactly if the term has its image there. -/
theorem verbatim_found (rs : List (FileResult String)) :
    ∃ ix, ofResults (rs.map (·.map .text)) = .ok ix ∧
      ∀ query : String, Text.trim query ≠ "" → ∃ found : Matches, found.IsAll rs query ∧
        (∀ limit : ℕ, found.methods.length < limit →
          ix.searchMethods (.text query) limit = .ok (found.methods.map FoundMethod.entry)) ∧
        (∀ limit : ℕ, found.types.length < limit →
          ix.searchTypes (.text query) limit = .ok (found.types.map entryOf)) ∧
        (∀ limit : ℕ, found.paths.length < limit →
          ix.searchPaths (.text query) limit = .ok (found.paths.map .text)) ∧
        ∀ (s : String) (before after : List Char),
          s.toList = before ++ (Text.trim query).toList ++ after →
          (Text.lowerBetween before.reverse after (Text.trim query).toList =
              (Text.lower (Text.trim query)).toList ↔
            Text.KeepsSigmas before.reverse (Text.trim query).toList after) ∧
          (Text.KeepsSigmas before.reverse (Text.trim query).toList after →
            (∀ x, IsMethodOf rs x → x.2.1.name = s ∨ x.2.1.body = some s →
              ∃ place, ⟨x, place⟩ ∈ found.methods) ∧
            (∀ x, IsTypeOf rs x → x.2.1.name = s → x ∈ found.types) ∧
            ((∃ r ∈ rs, r.path = s) → s ∈ found.paths)) := by
  obtain ⟨ix, hix, hdescribes⟩ := exists_ofResults rs
  obtain ⟨ps, hps, hsorted, hmem⟩ := hdescribes.exists_paths
  refine ⟨ix, hix, fun query hterm => ?_⟩
  have hall := isAll_matchesIn hsorted hmem query
  refine ⟨_, hall, fun limit hlimit => ?_, fun limit hlimit => ?_, fun limit hlimit => ?_,
    fun s before after hs => ⟨?_, fun hkept => ?_⟩⟩
  · rw [hdescribes.searchMethods_matchesIn hps, List.take_of_length_le (by omega)]
  · rw [hdescribes.searchTypes_matchesIn hps, List.take_of_length_le hlimit.le]
  · rw [searchPaths_matchesIn hps, List.take_of_length_le hlimit.le]
  · rw [Text.lower, String.toList_ofList]
    exact Text.lowerBetween_eq_lowerFrom_iff
  · have hholds := holds_of_keepsSigmas hterm hs hkept
    exact ⟨fun x hx htext => hall.exists_method hholds hx htext,
      fun x hx htext => hall.mem_type hholds hx htext, fun hpath => hall.mem_path hholds hpath⟩

def sampleCapitals (name : String) : FileExtraction String where
  source := ⟨"/A.java", none, []⟩
  types := [⟨name, .classType, [], [], [], []⟩]
  stages := []
  parseErrorCount := 0

/-- A term with a capital sigma between two letters is found in a longer word. -/
theorem sampleCapitals_found :
    ∃ ix, ofResults ([FileResult.extracted (sampleCapitals "ΧΑΣΑΧ")].map (·.map .text)) = .ok ix ∧
      ∃ types, ix.searchTypes (.text " ΑΣΑ ") (types.length + 1 : ℕ) = .ok types ∧
        entryOf ("/A.java", ⟨"ΧΑΣΑΧ", .classType, [], [], [], []⟩, 0) ∈ types := by
  obtain ⟨ix, hix, hsearch⟩ := verbatim_found [.extracted (sampleCapitals "ΧΑΣΑΧ")]
  have hterm : Text.trim " ΑΣΑ " = "ΑΣΑ" := by decide +kernel
  have hletter : Text.caseIgnorable.contains 'Α' = false := by decide +kernel
  obtain ⟨found, -, -, htypes, -, hverbatim⟩ := hsearch " ΑΣΑ " (by rw [hterm]; decide)
  have hkept : Text.KeepsSigmas ['Χ'] (Text.trim " ΑΣΑ ").toList ['Χ'] := by
    refine Text.keepsSigmas_of_enclosed fun front back hpart => ?_
    obtain ⟨rfl, rfl⟩ : front = ['Α'] ∧ back = ['Α'] := by
      rw [hterm, show "ΑΣΑ".toList = ['Α', 'Σ', 'Α'] from rfl] at hpart
      simpa [List.cons_eq_append_iff] using hpart
    exact ⟨⟨'Α', by simp, hletter⟩, ⟨'Α', by simp, hletter⟩⟩
  refine ⟨ix, hix, found.types.map entryOf, ?_, ?_⟩
  · exact htypes _ (by simp)
  · refine List.mem_map_of_mem (((hverbatim "ΧΑΣΑΧ" ['Χ'] ['Χ'] ?_).2 hkept).2.1 _ ?_ rfl)
    · rw [hterm]; decide
    · exact ⟨_, rfl, rfl⟩

/-- A term that ends in a capital sigma is not found in a longer word. -/
theorem sampleCapitals_overlooked :
    ∃ ix, ofResults ([FileResult.extracted (sampleCapitals "ΑΣΑ")].map (·.map .text)) = .ok ix ∧
      (Text.trim "ΑΣ").toList <:+: "ΑΣΑ".toList ∧ ix.searchTypes (.text "ΑΣ") 50 = .ok [] := by
  obtain ⟨ix, hix, hdescribes⟩ := exists_ofResults [.extracted (sampleCapitals "ΑΣΑ")]
  have hpaths : ix.paths = .ok (["/A.java"].map .text) := by cases hix; rfl
  have hnone : (matchesIn [.extracted (sampleCapitals "ΑΣΑ")] ["/A.java"] "ΑΣ").types = [] := by
    decide +kernel
  refine ⟨ix, hix, by decide +kernel, ?_⟩
  have htypes := hdescribes.searchTypes_matchesIn hpaths "ΑΣ" 50
  rwa [hnone] at htypes

end CodeAtlas.Index

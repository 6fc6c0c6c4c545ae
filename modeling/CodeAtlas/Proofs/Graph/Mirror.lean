import CodeAtlas.Proofs.Graph.Commitment
import CodeAtlas.Proofs.Graph.Storing

/-! # The graph mirrors the latest results

After calls that store and remove files, some of which fail, the graph is that of the file results
that were stored last.
-/

namespace CodeAtlas.Graph

structure PropertyGraph.IsSame {ι : Type} (g g' : PropertyGraph ι) : Prop where
  nodes : g.nodes.Perm g'.nodes
  relationships : g.relationships.Perm g'.relationships

theorem PropertyGraph.IsSame.trans {ι : Type} {g g' g'' : PropertyGraph ι} (h : g.IsSame g')
    (h' : g'.IsSame g'') : g.IsSame g'' :=
  ⟨h.nodes.trans h'.nodes, h.relationships.trans h'.relationships⟩

theorem PropertyGraph.IsSame.symm {ι : Type} {g g' : PropertyGraph ι} (h : g.IsSame g') :
    g'.IsSame g := ⟨h.nodes.symm, h.relationships.symm⟩

theorem StandsFor.isOwned_eq {n : Node Spot} (h : StandsFor n) (path : String) :
    n.isOwned path = decide (n.id.path = path) := by
  have hfile : n.fits ["File"] [("path", .text path)] = decide (n.id = ⟨path, .file⟩) := by
    rw [Bool.eq_iff_iff, h.fits_file path, decide_eq_true_iff]
  rw [Node.isOwned, hfile, h.fits_entity path]
  obtain ⟨⟨path', part⟩, -, -⟩ := n
  by_cases hpath : path' = path <;> by_cases hpart : part = .file <;> simp [hpath, hpart]

def resultsOf (path : String) (rs : List (FileResult String)) : List (FileResult String) :=
  rs.filter (·.path = path)

theorem resultsOf_eq_singleton {rs : List (FileResult String)} (hnodup : (rs.map (·.path)).Nodup)
    {r : FileResult String} (hr : r ∈ rs) : resultsOf r.path rs = [r] := by
  induction rs with
  | nil => simp at hr
  | cons r' rs ih =>
    rw [List.map_cons, List.nodup_cons, List.mem_map] at hnodup
    rcases List.mem_cons.mp hr with rfl | hr
    · have hnone : rs.filter (fun r' => decide (r'.path = r.path)) = [] :=
        List.filter_eq_nil_iff.mpr fun r' hr' he => hnodup.1 ⟨r', hr', by simpa using he⟩
      simp [resultsOf, hnone]
    · have hne : r'.path ≠ r.path := fun he => hnodup.1 ⟨r, hr, he.symm⟩
      rw [resultsOf, List.filter_cons_of_neg (by simpa using hne)]
      exact ih hnodup.2 hr

section Owned

variable {rs : List (FileResult String)}

theorem nodes_resultsOf (path : String) (rs : List (FileResult String)) :
    (union rs).nodes.filter (fun n => decide (n.id.path = path)) =
      (union (resultsOf path rs)).nodes := by
  refine filter_flatMap (fun path' => decide (path' = path)) (fun r n hn => ?_) rs
  rw [(of_mem_nodes_subgraph hn).1]

theorem relationships_resultsOf (path : String) (rs : List (FileResult String)) :
    (union rs).relationships.filter
        (fun l => decide (l.source.path = path) || decide (l.target.path = path)) =
      (union (resultsOf path rs)).relationships := by
  refine filter_flatMap (fun path' => decide (path' = path)) (fun r l hl => ?_) rs
  obtain ⟨hs, ht, -⟩ := of_mem_relationships_subgraph hl
  rw [hs, ht, Bool.or_self]

variable {place : Spot → ℕ} {g : PropertyGraph ℕ} (h : Mirrors place (union rs) g) (path : String)

include h

theorem Mirrors.nodes_owned :
    (g.owned path).nodes.Perm ((union (resultsOf path rs)).nodes.map (·.rename place)) := by
  have hperm := h.depicts.nodes.filter (Node.isOwned path)
  have howned : (union rs).nodes.filter (Node.isOwned path ∘ (·.rename place)) =
      (union rs).nodes.filter fun n => decide (n.id.path = path) :=
    List.filter_congr fun n hn => (h.standsFor n hn).isOwned_eq path
  rw [List.filter_map, howned, nodes_resultsOf] at hperm
  exact hperm

theorem Mirrors.contains_place {k : Spot} (hk : k ∈ (union rs).ids) :
    ((g.owned path).nodes.map (·.id)).contains (place k) = decide (k.path = path) := by
  rw [Bool.eq_iff_iff, List.contains_iff_mem, ((h.nodes_owned path).map (·.id)).mem_iff,
    decide_eq_true_iff, ← nodes_resultsOf, List.map_map]
  simp only [List.mem_map, List.mem_filter, decide_eq_true_eq, Function.comp_apply, Node.rename]
  constructor
  · rintro ⟨n, ⟨hn, hpath⟩, he⟩
    rwa [← h.depicts.injOn (PropertyGraph.mem_ids hn) hk he]
  · intro hpath
    obtain ⟨n, hn, rfl⟩ := List.mem_map.mp hk
    exact ⟨n, ⟨hn, hpath⟩, rfl⟩

theorem Mirrors.owned :
    (g.owned path).IsSame ((union (resultsOf path rs)).rename place) := by
  refine ⟨h.nodes_owned path, ?_⟩
  have hperm := h.depicts.relationships.filter fun l =>
    ((g.owned path).nodes.map (·.id)).contains l.source ||
      ((g.owned path).nodes.map (·.id)).contains l.target
  rw [List.filter_map] at hperm
  refine hperm.trans (.of_eq ?_)
  rw [PropertyGraph.rename, ← relationships_resultsOf]
  congr 1
  refine List.filter_congr fun l hl => ?_
  obtain ⟨hs, ht⟩ := h.sound.closed l hl
  simp only [Function.comp_apply, Relationship.rename]
  rw [h.contains_place path hs, h.contains_place path ht]

theorem Mirrors.length_owned (hnodup : (rs.map (·.path)).Nodup) {r : FileResult String}
    (hr : r ∈ rs) : (g.owned r.path).nodes.length = (payloadOf r).nodeCount ∧
      (g.owned r.path).relationships.length = (payloadOf r).relationshipCount := by
  have hsame := h.owned r.path
  rw [resultsOf_eq_singleton hnodup hr] at hsame
  have hlength := length_subgraph r
  rw [hsame.nodes.length_eq, hsame.relationships.length_eq]
  simpa [PropertyGraph.rename, union] using hlength

end Owned

namespace Update

def statements : Update String → List (Statement String)
  | .store _ r => (payloadOf r).statements
  | .remove path => Statement.removal path

def HasDistinctOrdinals : Update String → Prop
  | .store _ r => Graph.HasDistinctOrdinals r
  | .remove _ => True

def revise (rs : List (FileResult String)) : Update String → List (FileResult String)
  | .store _ r => others r.path rs ++ [r]
  | .remove path => others path rs

theorem all_unlessEmpty {ρ : Type} {statement : List ρ → Statement String} {rows : List ρ}
    (h : (statement rows).isOnData = true) :
    (Payload.unlessEmpty statement rows).all Statement.isOnData = true := by
  unfold Payload.unlessEmpty
  split
  · rfl
  · simpa using h

theorem all_isOnData (u : Update String) : u.statements.all Statement.isOnData = true := by
  cases u with
  | remove path => rfl
  | store stats r =>
    simp only [statements, Payload.statements, List.all_append, Bool.and_eq_true]
    exact ⟨⟨⟨⟨rfl, all_unlessEmpty rfl⟩, all_unlessEmpty rfl⟩, all_unlessEmpty rfl⟩,
      all_unlessEmpty rfl⟩

theorem runsAllOrNone_perform (tries : ℕ) (database : Option String) (u : Update String) :
    (u.perform tries database).RunsAllOrNone u.statements := by
  have hcommit (ss : List (Statement String)) : (commit database ss tries).RunsAllOrNone ss :=
    ((Action.runsAllOrNone_transaction ss).inSession database).retrying _
  cases u with
  | remove path => exact hcommit _
  | store stats r =>
    have hingest : ingest database stats r tries =
        commit database (payloadOf r).statements tries >>=
        fun _ => pure (stats.record r (payloadOf r)) := by
      rw [ingest, Payload.ofResult_text]
      rfl
    rw [perform, hingest]
    exact ((hcommit _).bind_pure _).bind_pure _

section Step

variable (tries : ℕ) (database : Option String) {rs : List (FileResult String)} {place : Spot → ℕ}
  {db : Database String}

theorem graph_perform (u : Update String) (db : Database String) :
    ((u.perform tries database).outcome db).2.graph =
      match ((u.perform tries database).outcome db).1 with
      | .ok _ => effects u.statements db.graph
      | .error _ => db.graph := by
  rw [Database.graph, u.runsAllOrNone_perform tries database db]
  cases ((u.perform tries database).outcome db).1 with
  | ok => exact effects_append ..
  | error => rw [List.append_nil, Database.graph]

theorem statements_mirrors {u : Update String} (h : Mirrors place (union rs) db.graph)
    (hu : u.HasDistinctOrdinals) :
    ∃ place', (∀ k ∈ (union (others u.path rs)).ids, place' k = place k) ∧
      Mirrors place' (union (revise rs u)) (effects u.statements db.graph) := by
  cases u with
  | store stats r => exact statements_effect h r hu
  | remove path => exact ⟨place, fun _ _ => rfl, removal_effect h path⟩

/-- The file results after a call that may have failed. -/
def attempted (rs : List (FileResult String)) (u : Update String) :
    Result Unit → List (FileResult String)
  | .ok _ => revise rs u
  | .error _ => rs

/-- A call revises the file results if it succeeds, and leaves all as it is if it fails. -/
theorem perform_mirrors {u : Update String} (h : Mirrors place (union rs) db.graph)
    (hu : u.HasDistinctOrdinals) :
    ∃ place', (∀ k ∈ (union (others u.path rs)).ids, place' k = place k) ∧
      Mirrors place' (union (attempted rs u ((u.perform tries database).outcome db).1))
        ((u.perform tries database).outcome db).2.graph := by
  rw [graph_perform]
  cases ((u.perform tries database).outcome db).1 with
  | ok => exact statements_mirrors h hu
  | error => exact ⟨place, fun _ _ => rfl, h⟩

/-- Calls revise the file results one after the other, those that fail left out. -/
theorem performAll_mirrors {us : List (Update String)} (hus : ∀ u ∈ us, u.HasDistinctOrdinals)
    (h : Mirrors place (union rs) db.graph) :
    ∃ place', Mirrors place' (union ((performAll tries database us db).1.foldl revise rs))
      (performAll tries database us db).2.graph := by
  induction us generalizing rs place db with
  | nil => exact ⟨place, h⟩
  | cons u us ih =>
    rw [List.forall_mem_cons] at hus
    obtain ⟨place', -, h'⟩ := perform_mirrors tries database h hus.1
    rw [performAll]
    rcases hout : (u.perform tries database).outcome db with ⟨why | _, db'⟩ <;> rw [hout] at h'
    · exact ih hus.2 h'
    · exact ih hus.2 h'

end Step

theorem resultsOf_revise {u : Update String} {path : String} (hpath : path ≠ u.path)
    (rs : List (FileResult String)) : resultsOf path (revise rs u) = resultsOf path rs := by
  have hothers : resultsOf path (others u.path rs) = resultsOf path rs := by
    rw [resultsOf, resultsOf, others, List.filter_filter]
    refine List.filter_congr fun r _ => ?_
    by_cases hr : r.path = path
    · simp [hr, hpath]
    · simp [hr]
  cases u with
  | remove => exact hothers
  | store stats r =>
    have hr : r.path ≠ path := fun he => hpath he.symm
    rw [revise, resultsOf, List.filter_append, List.filter_cons_of_neg (by simpa using hr),
      List.filter_nil, List.append_nil]
    exact hothers

theorem owned_perform (tries : ℕ) (database : Option String) {rs : List (FileResult String)}
    {place : Spot → ℕ} {db : Database String} (h : Mirrors place (union rs) db.graph)
    {u : Update String} (hu : u.HasDistinctOrdinals) {path : String} (hpath : path ≠ u.path) :
    (((u.perform tries database).outcome db).2.graph.owned path).IsSame (db.graph.owned path) := by
  obtain ⟨place', hplace, h'⟩ := perform_mirrors tries database h hu
  have hsame : resultsOf path (attempted rs u ((u.perform tries database).outcome db).1) =
      resultsOf path rs := by
    cases ((u.perform tries database).outcome db).1 with
    | ok => exact resultsOf_revise hpath rs
    | error => rfl
  have hrename : (union (resultsOf path rs)).rename place' =
      (union (resultsOf path rs)).rename place := by
    refine (h.sound.union_filter fun path' => decide (path' = path)).rename_congr fun k hk =>
      hplace k ?_
    obtain ⟨r, hr, hk⟩ := mem_ids_union_iff.mp hk
    simp only [List.mem_filter, decide_eq_true_eq] at hr
    exact mem_ids_union_iff.mpr ⟨r, by simpa [others, hr] using hpath, hk⟩
  have howned := h'.owned path
  rw [hsame, hrename] at howned
  exact howned.trans (h.owned path).symm

/-- The latest update of its file stores the file result. -/
def IsLatest (us : List (Update String)) (r : FileResult String) : Prop :=
  ∃ before stats after, us = before ++ .store stats r :: after ∧ ∀ u ∈ after, u.path ≠ r.path

theorem mem_revise_iff {rs : List (FileResult String)} {u : Update String} {r : FileResult String} :
    r ∈ revise rs u ↔ (r ∈ rs ∧ r.path ≠ u.path) ∨ ∃ stats, u = .store stats r := by
  cases u with
  | store stats r' =>
    have hsame : (∃ stats', Update.store stats r' = .store stats' r) ↔ r = r' := by
      simp [eq_comm]
    rw [hsame]
    simp [revise, others, path]
  | remove path' => simp [revise, others, path]

theorem isLatest_concat_iff {us : List (Update String)} {u : Update String}
    {r : FileResult String} :
    IsLatest (us ++ [u]) r ↔ (IsLatest us r ∧ r.path ≠ u.path) ∨ ∃ stats, u = .store stats r := by
  constructor
  · rintro ⟨before, stats, after, he, hafter⟩
    rcases List.eq_nil_or_concat after with rfl | ⟨after, u', rfl⟩
    · obtain ⟨-, hu⟩ := List.append_inj' he rfl
      exact .inr ⟨stats, List.singleton_inj.mp hu⟩
    · rw [List.concat_eq_append, ← List.cons_append, ← List.append_assoc] at he
      obtain ⟨hus, hu⟩ := List.append_inj' he rfl
      obtain rfl := List.singleton_inj.mp hu
      rw [List.concat_eq_append, List.forall_mem_append, List.forall_mem_singleton] at hafter
      exact .inl ⟨⟨before, stats, after, hus, hafter.1⟩, hafter.2.symm⟩
  · rintro (⟨⟨before, stats, after, rfl, hafter⟩, hne⟩ | ⟨stats, rfl⟩)
    · refine ⟨before, stats, after ++ [u], by simp, ?_⟩
      rw [List.forall_mem_append, List.forall_mem_singleton]
      exact ⟨hafter, hne.symm⟩
    · exact ⟨us, stats, [], rfl, by simp⟩

theorem mem_foldl_revise_iff {us : List (Update String)} {r : FileResult String} :
    r ∈ us.foldl revise [] ↔ IsLatest us r := by
  induction us using List.reverseRecOn with
  | nil => simp [IsLatest]
  | append_singleton us u ih =>
    rw [List.foldl_append, List.foldl_cons, List.foldl_nil, mem_revise_iff, isLatest_concat_iff, ih]

theorem nodup_foldl_revise (us : List (Update String)) :
    ((us.foldl revise []).map (·.path)).Nodup := by
  induction us using List.reverseRecOn with
  | nil => simp
  | append_singleton us u ih =>
    have hothers (path : String) :
        ((others path (us.foldl revise [])).map (·.path)).Nodup :=
      ih.sublist (List.filter_sublist.map _)
    rw [List.foldl_append, List.foldl_cons, List.foldl_nil]
    cases u with
    | remove path => exact hothers path
    | store stats r =>
      rw [revise, List.map_append, List.map_singleton, List.nodup_append]
      refine ⟨hothers r.path, by simp, ?_⟩
      rintro _ hr _ hlast rfl
      obtain ⟨r', hr', he⟩ := List.mem_map.mp hr
      have hne : r'.path ≠ r.path := by simpa [others] using (List.mem_filter.mp hr').2
      exact hne (he.trans (List.mem_singleton.mp hlast))

/-- After calls that store and remove files, of which any may fail, the graph is made up of the
graphs of the file results that were stored last, one for each path whose latest call, of those that
did not fail, stores a result. As many nodes and relationships belong to such a path as are counted
for its result, and one more call does not touch what belongs to another path. The texts of the
statements that are run are those of the queries that act on the graph. -/
theorem performAll_graph (tries : ℕ) (database : Option String) {db : Database String}
    (hempty : db.graph = .empty) {us : List (Update String)}
    (hus : ∀ u ∈ us, u.HasDistinctOrdinals) :
    ∃ rs : List (FileResult String),
      (∀ r, r ∈ rs ↔ IsLatest (performAll tries database us db).1 r) ∧ (rs.map (·.path)).Nodup ∧
      (union rs).IsSound ∧
      (∃ place, Depicts place (union rs) (performAll tries database us db).2.graph) ∧
      (∀ r ∈ rs, ∃ p, Payload.ofResult r = .ok p ∧
        ((performAll tries database us db).2.graph.owned r.path).nodes.length = p.nodeCount ∧
        ((performAll tries database us db).2.graph.owned r.path).relationships.length =
          p.relationshipCount) ∧
      (∀ u : Update String, u.HasDistinctOrdinals → ∀ path ≠ u.path,
        (((u.perform tries database).outcome
            (performAll tries database us db).2).2.graph.owned path).IsSame
          ((performAll tries database us db).2.graph.owned path)) ∧
      ∀ u ∈ us, ∀ s ∈ u.statements, s.query.text = s.text := by
  have hstart : Mirrors (fun _ => 0) (union []) db.graph := by
    rw [hempty]
    exact ⟨.empty _, ⟨by simp [union, PropertyGraph.ids], by simp [union]⟩, by simp [union]⟩
  obtain ⟨place, h⟩ := performAll_mirrors tries database hus hstart
  have hnodup := nodup_foldl_revise (performAll tries database us db).1
  exact ⟨_, fun r => mem_foldl_revise_iff, hnodup, h.sound, ⟨place, h.depicts⟩,
    fun r hr => ⟨payloadOf r, Payload.ofResult_text r, h.length_owned hnodup hr⟩,
    fun u hu path hpath => owned_perform tries database h hu hpath,
    fun u _ s hs => Statement.text_query (List.all_eq_true.mp u.all_isOnData s hs)⟩

/-- A file with a type, a method with a call and a variable, and two linked stages. -/
def sampleFile : FileExtraction String where
  source := ⟨"/A.java", some "a", []⟩
  types := [⟨"A", .classType, [], [], [⟨"f", "void", true, false, [], some "", ["g"],
    [⟨"x", "int", none⟩]⟩], [⟨"y", "int", true, false, none⟩]⟩]
  stages := [⟨.source, "read", [], some "x", 1, 0⟩, ⟨.transformation, "map", [], some "x", 2, 1⟩]
  parseErrorCount := 0

/-- The file is stored, fails to be replaced, and another one is removed. -/
def sampleUpdates : List (Update String) :=
  [.store .empty (.extracted sampleFile), .store .empty (.failed "/A.java" "unreadable"),
    .remove "/B.java"]

/-- A database that turns down the second transaction. -/
def sampleDatabase : Database String :=
  .fresh [] [] [none, some (.raised .client "no")]

/-- The file that was stored is still there. -/
theorem sampleUpdates_graph :
    ((performAll attempts none sampleUpdates sampleDatabase).2.graph.owned
        "/A.java").nodes.length = 8 ∧
      ((performAll attempts none sampleUpdates sampleDatabase).2.graph.owned
        "/A.java").relationships.length = 8 := by
  have hempty : sampleDatabase.graph = .empty := rfl
  have hus : ∀ u ∈ sampleUpdates, u.HasDistinctOrdinals := by
    simp [sampleUpdates, HasDistinctOrdinals, Graph.HasDistinctOrdinals, sampleFile]
  have hcommitted : (performAll attempts none sampleUpdates sampleDatabase).1 =
      [.store .empty (.extracted sampleFile), .remove "/B.java"] := by decide +kernel
  obtain ⟨rs, hlatest, -, -, -, hcounts, -⟩ := performAll_graph attempts none hempty hus
  have hr : .extracted sampleFile ∈ rs :=
    (hlatest _).mpr ⟨[], .empty, [.remove "/B.java"], hcommitted, by decide⟩
  obtain ⟨p, hp, hnodes, hrelationships⟩ := hcounts _ hr
  have hpayload : payloadOf (.extracted sampleFile) = p :=
    Except.ok.inj ((Payload.ofResult_text _).symm.trans hp)
  subst hpayload
  have hcounted : (payloadOf (.extracted sampleFile)).nodeCount = 8 ∧
      (payloadOf (.extracted sampleFile)).relationshipCount = 8 := by decide +kernel
  exact ⟨hnodes.trans hcounted.1, hrelationships.trans hcounted.2⟩

end Update

end CodeAtlas.Graph

import CodeAtlas.Proofs.Exchange.RoundTrip
import CodeAtlas.Proofs.Graph.Subgraph
import CodeAtlas.Proofs.Pipeline.Joining

/-! # Ordinals of stages that are read

An entry of a payload keeps the ordinal that it carries, and any other entry gets its position among
all entries. Stages that are read have different ordinals if and only if the carried ordinals differ
and none of them is the position of an entry that carries none.
-/

namespace CodeAtlas

section Numbers

/-- The numbers that are given, and the positions where none is given. -/
def givenOrPosition (given : List (Option ℤ)) : List ℤ := given.zipIdx.map fun e => e.1.getD e.2

theorem positions_eq {β : Type} (xs : List β) :
    (xs.zipIdx.map fun e => (e.2 : ℤ)) = (List.range xs.length).map Nat.cast := by
  rw [List.range_eq_range', ← List.zipIdx_map_snd 0 xs, List.map_map]
  rfl

theorem givenOrPosition_perm (given : List (Option ℤ)) : (givenOrPosition given).Perm
    (given.reduceOption ++ (given.zipIdx.filter (·.1.isNone)).map fun e => (e.2 : ℤ)) := by
  have hsome : (given.zipIdx.filter (·.1.isSome)).map (fun e => e.1.getD e.2) =
      given.reduceOption := by
    conv_rhs => rw [← List.zipIdx_map_fst 0 given]
    rw [List.reduceOption, List.filterMap_map, ← List.filterMap_eq_map, ← List.filterMap_eq_filter,
      List.filterMap_filterMap]
    refine List.filterMap_congr fun e _ => ?_
    cases h : e.1 <;> simp [Option.guard, h]
  have hnone : (given.zipIdx.filter (·.1.isNone)).map (fun e => e.1.getD e.2) =
      (given.zipIdx.filter (·.1.isNone)).map fun e => (e.2 : ℤ) := by
    refine List.map_congr_left fun e he => ?_
    rw [Option.isNone_iff_eq_none.mp (List.mem_filter.mp he).2, Option.getD_none]
  have hsplit := (List.filter_append_perm (·.1.isSome) given.zipIdx).symm.map
    fun e => e.1.getD (e.2 : ℤ)
  rw [List.map_append, hsome] at hsplit
  rw [← hnone]
  refine hsplit.trans ?_
  simp

theorem nodup_givenOrPosition_iff {given : List (Option ℤ)} : (givenOrPosition given).Nodup ↔
    given.reduceOption.Nodup ∧ ∀ i : ℕ, given[i]? = some none → (i : ℤ) ∉ given.reduceOption := by
  have hpositions : ((given.zipIdx.filter (·.1.isNone)).map fun e => (e.2 : ℤ)).Nodup := by
    have hrange : (given.zipIdx.map fun e => (e.2 : ℤ)).Nodup := by
      rw [positions_eq]
      exact List.nodup_range.map Nat.cast_injective
    exact hrange.sublist (List.filter_sublist.map _)
  have hmem (i : ℕ) : (none, i) ∈ given.zipIdx.filter (·.1.isNone) ↔ given[i]? = some none := by
    simp [List.mem_filter, List.mk_mem_zipIdx_iff_getElem?]
  rw [(givenOrPosition_perm given).nodup_iff, List.nodup_append]
  constructor
  · rintro ⟨hgiven, -, hapart⟩
    refine ⟨hgiven, fun i hi hcarried => ?_⟩
    exact hapart _ hcarried _ (List.mem_map_of_mem ((hmem i).mpr hi)) rfl
  · rintro ⟨hgiven, hfree⟩
    refine ⟨hgiven, hpositions, ?_⟩
    rintro z hz _ hposition rfl
    obtain ⟨⟨o, i⟩, he, rfl⟩ := List.mem_map.mp hposition
    obtain rfl : o = none := Option.isNone_iff_eq_none.mp (List.mem_filter.mp he).2
    exact hfree i ((hmem i).mp he) hz

theorem givenOrPosition_of_none {given : List (Option ℤ)} (h : ∀ o ∈ given, o = none) :
    givenOrPosition given = (List.range given.length).map Nat.cast := by
  have hdefault : givenOrPosition given = given.zipIdx.map fun e => (e.2 : ℤ) := by
    refine List.map_congr_left fun e he => ?_
    rw [h e.1 (List.fst_mem_of_mem_zipIdx he), Option.getD_none]
  rw [hdefault, positions_eq]

end Numbers

def entriesByTag (sections : Value) : List StageTag → Result (List (StageTag × Value))
  | [] => return []
  | tag :: tags => do
    let here ← elementsAt sections tag.plural
    return here.map (tag, ·) ++ (← entriesByTag sections tags)

def stageEntries (v : Value) : Result (List (StageTag × Value)) := do
  let given ← v.entryD "pipelineStages" .null
  entriesByTag (if given.truthy then given else .map []) StageTag.all

def carriedOrdinal (entry : Value) : Option ℤ :=
  match entry.entry? "ordinal" with
  | .ok (some given) => given.toInt.toOption
  | _ => none

/-- An entry under its tag, at a position among all entries, is read as a stage. -/
def ReadsAs (x : (StageTag × Value) × ℕ) (s : Stage Value) : Prop :=
  Stage.ofValue x.1.1 x.2 x.1.2 = .ok s

theorem ordinal_of_readsAs {x : (StageTag × Value) × ℕ} {s : Stage Value} (h : ReadsAs x s) :
    s.ordinal = (carriedOrdinal x.1.2).getD x.2 := by
  obtain ⟨⟨tag, v⟩, i⟩ := x
  simp only [ReadsAs, Stage.ofValue, bind_eq_ok_iff] at h
  obtain ⟨_, -, _, -, _, -, _, -, _, -, given, hgiven, ordinal, hordinal, hs⟩ := h
  obtain ⟨o, ho, hog⟩ := bind_eq_ok_iff.mp hgiven
  cases hs
  cases o with
  | none =>
    cases hog
    cases hordinal
    simp [carriedOrdinal, ho]
  | some given' =>
    cases hog
    simp only [Option.getD_some] at hordinal
    simp [carriedOrdinal, ho, hordinal, Except.toOption]

theorem readsAs_of_stagesOfValues {tag : StageTag} {vs : List Value} {next : ℕ}
    {ss : List (Stage Value)} (h : stagesOfValues tag next vs = .ok ss) :
    List.Forall₂ ReadsAs ((vs.map (tag, ·)).zipIdx next) ss := by
  induction vs generalizing next ss with
  | nil =>
    cases h
    exact .nil
  | cons v vs ih =>
    obtain ⟨s, rest, hs, hrest, rfl⟩ := stagesOfValues_cons_eq_ok_iff.mp h
    exact .cons hs (ih hrest)

theorem readsAs_of_stagesByTag {sections : Value} {tags : List StageTag} {next : ℕ}
    {ss : List (Stage Value)} (h : stagesByTag sections next tags = .ok ss) :
    ∃ entries, entriesByTag sections tags = .ok entries ∧
      List.Forall₂ ReadsAs (entries.zipIdx next) ss := by
  induction tags generalizing next ss with
  | nil =>
    cases h
    exact ⟨[], rfl, .nil⟩
  | cons tag tags ih =>
    obtain ⟨vs, here, rest, hvs, hhere, hrest, rfl⟩ := stagesByTag_cons_eq_ok_iff.mp h
    obtain ⟨entries, hentries, hreads⟩ := ih hrest
    have hfirst := readsAs_of_stagesOfValues hhere
    refine ⟨vs.map (tag, ·) ++ entries, ?_, ?_⟩
    · simp [entriesByTag, hvs, hentries]
    · rw [List.zipIdx_append]
      refine List.rel_append hfirst ?_
      rwa [← List.length_zipIdx (i := next), hfirst.length_eq]

theorem ordinals_of_readsAs {entries : List (StageTag × Value)} {ss : List (Stage Value)}
    (h : List.Forall₂ ReadsAs entries.zipIdx ss) :
    ss.map (·.ordinal) = givenOrPosition (entries.map fun x => carriedOrdinal x.2) := by
  have hordinals := List.forall₂_map_left_iff.mpr (List.forall₂_map_right_iff.mpr
    (h.imp fun _ _ hx => (ordinal_of_readsAs hx).symm))
  rw [List.forall₂_eq_eq_eq] at hordinals
  rw [← hordinals, givenOrPosition, List.zipIdx_map, List.map_map]
  rfl

theorem FileExtraction.stages_of_ofValue {v : Value} {e : FileExtraction Value}
    (h : FileExtraction.ofValue v = .ok e) : ∃ entries ss, stageEntries v = .ok entries ∧
      List.Forall₂ ReadsAs entries.zipIdx ss ∧ e.stages = sortStages ss := by
  simp only [FileExtraction.ofValue, bind_eq_ok_iff] at h
  obtain ⟨given, hgiven, ss, hss, _, -, _, -, _, -, _, -, _, -, heq⟩ := h
  cases heq
  obtain ⟨entries, hentries, hreads⟩ := readsAs_of_stagesByTag hss
  refine ⟨entries, ss, ?_, hreads, rfl⟩
  rw [stageEntries, hgiven]
  exact hentries

theorem FileResult.stages_of_ofValue {v : Value} {e : FileExtraction Value}
    (h : FileResult.ofValue v = .ok (.extracted e)) : ∃ entries ss, stageEntries v = .ok entries ∧
      List.Forall₂ ReadsAs entries.zipIdx ss ∧ e.stages = sortStages ss := by
  simp only [FileResult.ofValue, bind_eq_ok_iff] at h
  obtain ⟨failed, -, h⟩ := h
  cases failed with
  | true =>
    obtain ⟨_, -, h⟩ := bind_eq_ok_iff.mp h
    obtain ⟨_, -, h⟩ := bind_eq_ok_iff.mp h
    cases h
  | false =>
    obtain ⟨e', he', heq⟩ := bind_eq_ok_iff.mp h
    cases heq
    exact FileExtraction.stages_of_ofValue he'

theorem sortStages_perm (ss : List (Stage Value)) : (sortStages ss).Perm ss :=
  List.mergeSort_perm _ _

theorem sortStages_of_ordinals {ss : List (Stage Value)} {n : ℕ}
    (h : ss.map (·.ordinal) = (List.range n).map Nat.cast) : sortStages ss = ss := by
  have hle : (ss.map (·.ordinal)).Pairwise (· ≤ ·) := by
    rw [h, List.pairwise_map]
    exact List.pairwise_lt_range.imp fun hij => by exact_mod_cast hij.le
  exact List.mergeSort_of_pairwise ((List.pairwise_map.mp hle).imp fun hab => decide_eq_true hab)

namespace Flow

theorem nodup_stageId {path : Value} {stages : List (Stage Value)}
    (h : (stages.map (·.ordinal)).Nodup) : (stages.map (stageId path)).Nodup := by
  refine List.Nodup.map_on (fun s hs s' hs' heq => ?_) (h.of_map _)
  exact List.inj_on_of_nodup_map h hs hs' (Uri.create_number_inj heq).2

def HasScalarBindings (stages : List (Stage Value)) : Prop :=
  ∀ s ∈ stages, ∀ b ∈ s.binding, ∃ k, b = .scalar k

def MayFollow (up down : Stage Value) : Prop :=
  ∃ b b', up.binding = some b ∧ down.binding = some b' ∧ b.same b' = true ∧
    (up.tag, down.tag) ∈ directions

def keyed? (s : Stage Value) : Option (Scalar × Value × Stage Value) :=
  match s.binding with
  | some (.scalar k) => some (k.canonical, .scalar k, s)
  | _ => none

theorem keyed_cons_of_none {s : Stage Value} {stages : List (Stage Value)}
    (hb : s.binding = none) : keyed (s :: stages) = keyed stages := by
  simp only [keyed, List.filterMap_cons, hb, Option.map_none]

theorem keyed_cons_of_some {s : Stage Value} {stages : List (Stage Value)} {k : Scalar}
    {xs : List (Scalar × Value × Stage Value)} (hb : s.binding = some (.scalar k))
    (hxs : keyed stages = .ok xs) :
    keyed (s :: stages) = .ok ((k.canonical, .scalar k, s) :: xs) := by
  rw [keyed] at hxs
  simp only [keyed, List.filterMap_cons, hb, Option.map_some, List.mapM_cons, hxs]
  rfl

theorem keyed_scalars {stages : List (Stage Value)} (h : HasScalarBindings stages) :
    keyed stages = .ok (stages.filterMap keyed?) := by
  induction stages with
  | nil => rfl
  | cons s stages ih =>
    have ih := ih fun s' hs' => h s' (List.mem_cons_of_mem _ hs')
    cases hb : s.binding with
    | none => rw [keyed_cons_of_none hb, ih, List.filterMap_cons_none (by rw [keyed?, hb])]
    | some b =>
      obtain ⟨k, rfl⟩ := h s List.mem_cons_self b hb
      rw [keyed_cons_of_some hb ih, List.filterMap_cons_some (by rw [keyed?, hb])]

theorem mem_filterMap_keyed?_iff {stages : List (Stage Value)} {x : Scalar × Value × Stage Value} :
    x ∈ stages.filterMap keyed? ↔ x.2.2 ∈ stages ∧
      ∃ k, x.2.2.binding = some (.scalar k) ∧ x.1 = k.canonical ∧ x.2.1 = .scalar k := by
  rw [List.mem_filterMap]
  constructor
  · rintro ⟨s, hs, hx⟩
    unfold keyed? at hx
    split at hx
    · next k hk =>
      cases hx
      exact ⟨hs, k, hk, rfl, rfl⟩
    · cases hx
  · obtain ⟨k', b, s⟩ := x
    rintro ⟨hs, k, hk, rfl, rfl⟩
    exact ⟨s, hs, by rw [keyed?, hk]⟩

theorem nodup_ordinals_keyed {stages : List (Stage Value)}
    (h : (stages.map (·.ordinal)).Nodup) :
    ((stages.filterMap keyed?).map (·.2.2.ordinal)).Nodup := by
  refine nodup_ordinals_filterMap (fun s x hx => ?_) h
  unfold keyed? at hx
  split at hx <;> cases hx
  rfl

theorem existsUnique_link {e : FileExtraction Value} (h : (e.stages.map (·.ordinal)).Nodup)
    (hscalar : HasScalarBindings e.stages) : ∃ es, edges e = .ok es ∧
      ∀ up ∈ e.stages, ∀ down ∈ e.stages, up ≠ down → MayFollow up down →
        ∃! l, l ∈ es ∧ l.supplier = up ∧ l.consumer = down := by
  have hordinals := nodup_ordinals_keyed h
  refine ⟨(grouped (e.stages.filterMap keyed?)).mergeSort precedes, ?_, ?_⟩
  · rw [edges, keyed_scalars hscalar]
    rfl
  rintro up hup down hdown hne ⟨b, b', hb, hb', hsame, htags⟩
  obtain ⟨k, rfl⟩ := hscalar up hup b hb
  obtain ⟨k', rfl⟩ := hscalar down hdown b' hb'
  have hkey : k.canonical = k'.canonical := by
    simpa [Value.same, Scalar.same] using hsame
  have hmem : (k.canonical, .scalar k, up) ∈ e.stages.filterMap keyed? :=
    mem_filterMap_keyed?_iff.mpr ⟨hup, k, hb, rfl, rfl⟩
  have hmem' : (k'.canonical, .scalar k', down) ∈ e.stages.filterMap keyed? :=
    mem_filterMap_keyed?_iff.mpr ⟨hdown, k', hb', rfl, rfl⟩
  have hordinal : up.ordinal ≠ down.ordinal := fun he =>
    hne (List.inj_on_of_nodup_map h hup hdown he)
  obtain ⟨first, -, hfirst, -⟩ := exists_find?_key hmem
  have hlink : ⟨up, down, first.2.1⟩ ∈ grouped (e.stages.filterMap keyed?) := by
    refine mem_grouped_iff.mpr ⟨_, hmem, _, hmem', hkey, rfl, rfl, hordinal, follows_iff.mpr htags,
      ?_⟩
    rw [hfirst, Option.map_some]
  refine ⟨⟨up, down, first.2.1⟩, ⟨List.mem_mergeSort.mpr hlink, rfl, rfl⟩, ?_⟩
  · rintro l ⟨hl, rfl, rfl⟩
    exact eq_of_mem_grouped hordinals (List.mem_mergeSort.mp hl) hlink rfl rfl

end Flow

def carriedOrdinals (entries : List (StageTag × Value)) : List ℤ :=
  entries.filterMap fun x => carriedOrdinal x.2

/-- Stages that are read have different ordinals if and only if those that the entries carry differ
and none of them is the position of an entry without one. They then have different identifiers, and
each two of them that may follow one another are linked. Without any ordinal in the payload, the
stages stay in the order of the entries and are numbered by it. -/
theorem FileResult.nodup_ordinals_of_ofValue {v : Value} {e : FileExtraction Value}
    (h : FileResult.ofValue v = .ok (.extracted e)) : ∃ entries ss, stageEntries v = .ok entries ∧
      List.Forall₂ ReadsAs entries.zipIdx ss ∧ e.stages = sortStages ss ∧
      ((e.stages.map (·.ordinal)).Nodup ↔ (carriedOrdinals entries).Nodup ∧
        ∀ (i : ℕ) x, entries[i]? = some x → carriedOrdinal x.2 = none →
          (i : ℤ) ∉ carriedOrdinals entries) ∧
      ((e.stages.map (·.ordinal)).Nodup → (e.stages.map (Flow.stageId e.path)).Nodup ∧
        (Flow.HasScalarBindings e.stages → ∃ es, Flow.edges e = .ok es ∧
          ∀ up ∈ e.stages, ∀ down ∈ e.stages, up ≠ down → Flow.MayFollow up down →
            ∃! l, l ∈ es ∧ l.supplier = up ∧ l.consumer = down)) ∧
      ((∀ x ∈ entries, carriedOrdinal x.2 = none) → e.stages = ss ∧
        e.stages.map (·.ordinal) = (List.range entries.length).map Nat.cast) := by
  obtain ⟨entries, ss, hentries, hreads, hstages⟩ := stages_of_ofValue h
  have hnumbered := ordinals_of_readsAs hreads
  have hperm : (e.stages.map (·.ordinal)).Perm
      (givenOrPosition (entries.map fun x => carriedOrdinal x.2)) := by
    rw [hstages, ← hnumbered]
    exact (sortStages_perm ss).map _
  have hcarried : (entries.map fun x => carriedOrdinal x.2).reduceOption =
      carriedOrdinals entries := by
    rw [List.reduceOption, List.filterMap_map]
    rfl
  refine ⟨entries, ss, hentries, hreads, hstages, ?_, ?_, ?_⟩
  · rw [hperm.nodup_iff, nodup_givenOrPosition_iff, hcarried]
    refine and_congr_right fun _ => forall_congr' fun i => ?_
    simp only [List.getElem?_map, Option.map_eq_some_iff]
    constructor
    · intro hfree x hx hnone
      exact hfree ⟨x, hx, hnone⟩
    · rintro hfree ⟨x, hx, hnone⟩
      exact hfree x hx hnone
  · intro hnodup
    exact ⟨Flow.nodup_stageId hnodup, Flow.existsUnique_link hnodup⟩
  · intro hnone
    have hordinals : ss.map (·.ordinal) = (List.range entries.length).map Nat.cast := by
      rw [hnumbered, givenOrPosition_of_none, List.length_map]
      rintro _ ho
      obtain ⟨x, hx, rfl⟩ := List.mem_map.mp ho
      exact hnone x hx
    rw [hstages, sortStages_of_ordinals hordinals]
    exact ⟨rfl, hordinals⟩

section Sample

/-- A payload of two transformations on one binding. The second one carries no ordinal. -/
def samplePayload (ordinal : ℤ) : Value :=
  .ofFields [("file", .text "/r/A.java"), ("classes", .list []),
    ("pipelineStages", .ofFields [("sources", .list []),
      ("transformations", .list
        [.ofFields [("operation", .text "map"), ("bindingIdentifier", .text "rows"),
            ("ordinal", .int ordinal)],
          .ofFields [("operation", .text "filter"), ("bindingIdentifier", .text "rows")]]),
      ("sinks", .list [])])]

def sampleExtraction (ordinal : ℤ) : FileExtraction Value where
  source := ⟨.text "/r/A.java", none, []⟩
  types := []
  stages := [⟨.transformation, .text "map", [], some (.text "rows"), 0, ordinal⟩,
    ⟨.transformation, .text "filter", [], some (.text "rows"), 0, 1⟩]
  parseErrorCount := 0

theorem ofValue_samplePayload {ordinal : ℤ} (h : ordinal ≤ 1) :
    FileResult.ofValue (samplePayload ordinal) = .ok (.extracted (sampleExtraction ordinal)) := by
  have hread : FileResult.ofValue (samplePayload ordinal) = .ok (.extracted
      { sampleExtraction ordinal with stages := sortStages (sampleExtraction ordinal).stages }) :=
    rfl
  have hsorted : (sampleExtraction ordinal).stages.Pairwise
      fun a b => decide (a.ordinal ≤ b.ordinal) = true := by
    simp [sampleExtraction, h]
  rw [hread, sortStages, List.mergeSort_of_pairwise hsorted]

theorem stageEntries_samplePayload (ordinal : ℤ) : ∃ entries,
    stageEntries (samplePayload ordinal) = .ok entries ∧ carriedOrdinals entries = [ordinal] :=
  ⟨_, rfl, rfl⟩

/-- The two transformations get one link each way, if the first one carries no ordinal that the
second one gets. -/
theorem samplePayload_linked :
    FileResult.ofValue (samplePayload 0) = .ok (.extracted (sampleExtraction 0)) ∧
    ((sampleExtraction 0).stages.map (·.ordinal)).Nodup ∧
    ∃ es, Flow.edges (sampleExtraction 0) = .ok es ∧
      ∀ up ∈ (sampleExtraction 0).stages, ∀ down ∈ (sampleExtraction 0).stages, up ≠ down →
        ∃! l, l ∈ es ∧ l.supplier = up ∧ l.consumer = down := by
  have hread := ofValue_samplePayload (zero_le_one : (0 : ℤ) ≤ 1)
  have hnodup : ((sampleExtraction 0).stages.map (·.ordinal)).Nodup := by decide
  obtain ⟨-, -, -, -, -, -, hlinked, -⟩ := FileResult.nodup_ordinals_of_ofValue hread
  obtain ⟨-, hlinks⟩ := hlinked hnodup
  have hbinding : ∀ s ∈ (sampleExtraction 0).stages,
      s.tag = .transformation ∧ s.binding = some (.text "rows") := by decide
  obtain ⟨es, hes, hunique⟩ := hlinks fun s hs b hb => by
    rw [(hbinding s hs).2] at hb
    exact ⟨_, (Option.some.inj hb).symm⟩
  refine ⟨hread, hnodup, es, hes, fun up hup down hdown hne => hunique up hup down hdown hne ?_⟩
  refine ⟨_, _, (hbinding up hup).2, (hbinding down hdown).2, by decide, ?_⟩
  rw [(hbinding up hup).1, (hbinding down hdown).1]
  decide

/-- The only ordinal that the payload carries is the position of the other transformation: both get
it, share an identifier and are not linked, although they may follow one another. -/
theorem samplePayload_shared : ∃ entries, stageEntries (samplePayload 1) = .ok entries ∧
    (carriedOrdinals entries).Nodup ∧
    FileResult.ofValue (samplePayload 1) = .ok (.extracted (sampleExtraction 1)) ∧
    ¬ ((sampleExtraction 1).stages.map (·.ordinal)).Nodup ∧
    ¬ ((sampleExtraction 1).stages.map (Flow.stageId (sampleExtraction 1).path)).Nodup ∧
    (∃ up ∈ (sampleExtraction 1).stages, ∃ down ∈ (sampleExtraction 1).stages, up ≠ down ∧
      Flow.MayFollow up down) ∧
    Flow.edges (sampleExtraction 1) = .ok [] := by
  obtain ⟨entries, hentries, hcarried⟩ := stageEntries_samplePayload 1
  refine ⟨entries, hentries, ?_, ofValue_samplePayload le_rfl, by decide, ?_, ?_, ?_⟩
  · rw [hcarried]
    decide
  · exact List.not_nodup_pair _
  · exact ⟨_, List.mem_cons_self, _, List.mem_cons_of_mem _ List.mem_cons_self, by decide, _, _,
      rfl, rfl, by decide, by decide⟩
  · have hgrouped : Flow.grouped ((sampleExtraction 1).stages.filterMap Flow.keyed?) = [] := rfl
    have hedges : Flow.edges (sampleExtraction 1) = .ok
        ((Flow.grouped ((sampleExtraction 1).stages.filterMap Flow.keyed?)).mergeSort
          Flow.precedes) := rfl
    rw [hedges, hgrouped, List.mergeSort_nil]

end Sample

end CodeAtlas

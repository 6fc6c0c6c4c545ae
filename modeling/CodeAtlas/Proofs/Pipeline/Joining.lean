import Mathlib.Algebra.GroupWithZero.Nat
import Mathlib.Data.List.Count
import Mathlib.Data.List.Nodup
import CodeAtlas.Proofs.Graph.Rows
import CodeAtlas.Proofs.Order.StableSort

/-! # Links are the join of all pairs

Grouping the stages by their bindings and joining inside the groups gives the same links as looking
at all pairs of stages: each link that there is comes once, and links come in the order of the
ordinals of their ends.
-/

namespace CodeAtlas

theorem nodup_eraseDups {β : Type} [DecidableEq β] (xs : List β) : xs.eraseDups.Nodup := by
  induction hn : xs.length using Nat.strongRecOn generalizing xs with
  | ind n ih =>
    cases xs with
    | nil => exact List.nodup_nil
    | cons x xs =>
      have hshorter : (xs.filter fun y => !y == x).length < n := by
        rw [← hn, List.length_cons]
        exact Nat.lt_succ_of_le (List.length_filter_le _ _)
      rw [List.eraseDups_cons, List.nodup_cons, List.mem_eraseDups, List.mem_filter]
      exact ⟨by simp, ih _ hshorter _ rfl⟩

namespace Flow

section Groups

variable {α : Type} {xs : List (Scalar × α × Stage α)}

theorem groups_eq (xs : List (Scalar × α × Stage α)) :
    groups xs = (xs.map (·.1)).eraseDups.filterMap fun k =>
      ((xs.find? (·.1 == k)).map (·.2.1)).map (·, (xs.filter (·.1 == k)).map (·.2.2)) := by
  refine List.filterMap_congr fun k _ => ?_
  rw [← List.head?_filter]
  cases xs.filter (·.1 == k) <;> rfl

theorem mem_groups_iff {b : α} {group : List (Stage α)} :
    (b, group) ∈ groups xs ↔ ∃ x ∈ xs, (xs.find? (·.1 == x.1)).map (·.2.1) = some b ∧
      group = (xs.filter (·.1 == x.1)).map (·.2.2) := by
  simp only [groups_eq, List.mem_filterMap, List.mem_eraseDups, List.mem_map]
  constructor
  · rintro ⟨-, ⟨x, hx, rfl⟩, h⟩
    obtain ⟨b', hb', hpair⟩ := Option.map_eq_some_iff.mp h
    obtain ⟨rfl, rfl⟩ := Prod.mk.inj hpair
    exact ⟨x, hx, hb', rfl⟩
  · rintro ⟨x, hx, hb, rfl⟩
    exact ⟨x.1, ⟨x, hx, rfl⟩, by rw [hb, Option.map_some]⟩

/-- Among entries with keys there is a first one with the key of an entry. -/
theorem exists_find?_key {x : Scalar × α × Stage α} (hx : x ∈ xs) :
    ∃ y ∈ xs, xs.find? (·.1 == x.1) = some y ∧ y.1 = x.1 := by
  obtain ⟨y, hy⟩ := Option.isSome_iff_exists.mp
    (List.find?_isSome.mpr ⟨x, hx, beq_self_eq_true x.1⟩ : (xs.find? (·.1 == x.1)).isSome)
  exact ⟨y, List.mem_of_find?_eq_some hy, hy, by simpa using List.find?_some hy⟩

theorem mem_links_iff {b : α} {group : List (Stage α)} {l : FlowEdge α} :
    l ∈ links b group ↔ l.supplier ∈ group ∧ l.consumer ∈ group ∧
      l.supplier.ordinal ≠ l.consumer.ordinal ∧ follows l.supplier.tag l.consumer.tag = true ∧
      l.binding = b := by
  simp only [links, List.mem_flatMap, List.mem_map, List.mem_filter, Bool.and_eq_true,
    decide_eq_true_eq]
  constructor
  · rintro ⟨up, hup, down, ⟨hdown, hne, hfollows⟩, rfl⟩
    exact ⟨hup, hdown, hne, hfollows, rfl⟩
  · rintro ⟨hup, hdown, hne, hfollows, rfl⟩
    exact ⟨l.supplier, hup, l.consumer, ⟨hdown, hne, hfollows⟩, rfl⟩

/-- The links inside all groups, group by group. -/
def grouped (xs : List (Scalar × α × Stage α)) : List (FlowEdge α) :=
  (groups xs).flatMap fun (b, group) => links b group

/-- A link joins two stages with one key, and its binding is that of the first stage with the
key. -/
theorem mem_grouped_iff {l : FlowEdge α} :
    l ∈ grouped xs ↔ ∃ x ∈ xs, ∃ y ∈ xs, x.1 = y.1 ∧ l.supplier = x.2.2 ∧ l.consumer = y.2.2 ∧
      l.supplier.ordinal ≠ l.consumer.ordinal ∧ follows l.supplier.tag l.consumer.tag = true ∧
      (xs.find? (·.1 == x.1)).map (·.2.1) = some l.binding := by
  rw [grouped, List.mem_flatMap]
  constructor
  · rintro ⟨⟨b, group⟩, hgroup, hl⟩
    obtain ⟨x, hx, hb, rfl⟩ := mem_groups_iff.mp hgroup
    obtain ⟨hup, hdown, hne, hfollows, rfl⟩ := mem_links_iff.mp hl
    obtain ⟨u, hu, hsupplier⟩ := List.mem_map.mp hup
    obtain ⟨d, hd, hconsumer⟩ := List.mem_map.mp hdown
    obtain ⟨hu, huk⟩ := List.mem_filter.mp hu
    obtain ⟨hd, hdk⟩ := List.mem_filter.mp hd
    rw [beq_iff_eq] at huk hdk
    refine ⟨u, hu, d, hd, huk.trans hdk.symm, hsupplier.symm, hconsumer.symm, hne, hfollows, ?_⟩
    rw [huk]
    exact hb
  · rintro ⟨x, hx, y, hy, hxy, hsupplier, hconsumer, hne, hfollows, hb⟩
    refine ⟨(l.binding, _), mem_groups_iff.mpr ⟨x, hx, hb, rfl⟩, mem_links_iff.mpr ⟨?_, ?_, hne,
      hfollows, rfl⟩⟩
    · rw [hsupplier]
      exact List.mem_map_of_mem (List.mem_filter.mpr ⟨hx, by simp⟩)
    · rw [hconsumer]
      exact List.mem_map_of_mem (List.mem_filter.mpr ⟨hy, by simp [hxy]⟩)

theorem nodup_links (b : α) {group : List (Stage α)} (h : group.Nodup) :
    (links b group).Nodup := by
  rw [links, List.nodup_flatMap]
  constructor
  · intro up _
    refine (h.filter _).map fun d d' hd => ?_
    exact congrArg FlowEdge.consumer hd
  · refine h.imp fun {up up'} hne l hl hl' => ?_
    obtain ⟨_, -, rfl⟩ := List.mem_map.mp hl
    obtain ⟨_, -, he⟩ := List.mem_map.mp hl'
    exact hne (congrArg FlowEdge.supplier he).symm

theorem nodup_grouped (h : (xs.map (·.2.2.ordinal)).Nodup) : (grouped xs).Nodup := by
  have hnodup : (xs.map (·.2.2)).Nodup := by
    refine List.Nodup.of_map (·.ordinal) ?_
    rwa [List.map_map]
  rw [grouped, List.nodup_flatMap]
  constructor
  · rintro ⟨b, group⟩ hgroup
    obtain ⟨x, -, -, rfl⟩ := mem_groups_iff.mp hgroup
    exact nodup_links b (hnodup.sublist (List.filter_sublist.map _))
  · -- A stage that stands in two groups has one key, since it is bound once.
    rw [groups_eq, List.pairwise_filterMap]
    refine (nodup_eraseDups _).imp fun {k k'} hne g hg g' hg' l hl hl' => ?_
    obtain ⟨b, -, rfl⟩ := Option.map_eq_some_iff.mp hg
    obtain ⟨b', -, rfl⟩ := Option.map_eq_some_iff.mp hg'
    obtain ⟨x, hx, hsupplier⟩ := List.mem_map.mp (mem_links_iff.mp hl).1
    obtain ⟨y, hy, hsupplier'⟩ := List.mem_map.mp (mem_links_iff.mp hl').1
    obtain ⟨hx, hk⟩ := List.mem_filter.mp hx
    obtain ⟨hy, hk'⟩ := List.mem_filter.mp hy
    obtain rfl : x = y := List.inj_on_of_nodup_map h hx hy (by rw [hsupplier, hsupplier'])
    exact hne ((beq_iff_eq.mp hk).symm.trans (beq_iff_eq.mp hk'))

/-- The ends of a link determine it. -/
theorem eq_of_mem_grouped (h : (xs.map (·.2.2.ordinal)).Nodup) {l l' : FlowEdge α}
    (hl : l ∈ grouped xs) (hl' : l' ∈ grouped xs)
    (hsupplier : l.supplier.ordinal = l'.supplier.ordinal)
    (hconsumer : l.consumer.ordinal = l'.consumer.ordinal) : l = l' := by
  obtain ⟨x, hx, y, hy, hxy, hup, hdown, -, -, hb⟩ := mem_grouped_iff.mp hl
  obtain ⟨x', hx', y', hy', hxy', hup', hdown', -, -, hb'⟩ := mem_grouped_iff.mp hl'
  rw [hup, hup'] at hsupplier
  rw [hdown, hdown'] at hconsumer
  obtain rfl : x = x' := List.inj_on_of_nodup_map h hx hx' hsupplier
  obtain rfl : y = y' := List.inj_on_of_nodup_map h hy hy' hconsumer
  have hbinding : l.binding = l'.binding := Option.some.inj (hb.symm.trans hb')
  calc l = ⟨l.supplier, l.consumer, l.binding⟩ := rfl
    _ = ⟨l'.supplier, l'.consumer, l'.binding⟩ := by rw [hup, hup', hdown, hdown', hbinding]
    _ = l' := rfl

theorem nodup_ordinals_filterMap {f : Stage α → Option (Scalar × α × Stage α)}
    (hf : ∀ s, ∀ x ∈ f s, x.2.2 = s) {stages : List (Stage α)}
    (h : (stages.map (·.ordinal)).Nodup) :
    ((stages.filterMap f).map (·.2.2.ordinal)).Nodup := by
  refine List.pairwise_map.mpr (List.pairwise_filterMap.mpr ?_)
  refine (List.pairwise_map.mp h).imp fun hne x hx y hy => ?_
  rwa [hf _ x hx, hf _ y hy]

theorem isOrder_precedes : IsOrder (precedes (α := α)) where
  trans a b c := by
    simp only [precedes, Bool.or_eq_true, Bool.and_eq_true, decide_eq_true_eq]
    omega
  total a b := by
    simp only [precedes, Bool.or_eq_true, Bool.and_eq_true, decide_eq_true_eq]
    omega

/-- The order of links without ties. -/
def StrictlyPrecedes (l l' : FlowEdge α) : Prop :=
  l.supplier.ordinal < l'.supplier.ordinal ∨
    l.supplier.ordinal = l'.supplier.ordinal ∧ l.consumer.ordinal < l'.consumer.ordinal

theorem strictlyPrecedes_mergeSort (h : (xs.map (·.2.2.ordinal)).Nodup) :
    ((grouped xs).mergeSort precedes).Pairwise StrictlyPrecedes := by
  have hnodup := (List.mergeSort_perm (grouped xs) precedes).nodup_iff.mpr (nodup_grouped h)
  refine ((isOrder_precedes.sorted_mergeSort (grouped xs)).and hnodup).imp_of_mem ?_
  rintro l l' hl hl' ⟨hle, hne⟩
  have hends : ¬ (l.supplier.ordinal = l'.supplier.ordinal ∧
      l.consumer.ordinal = l'.consumer.ordinal) := by
    rintro ⟨hsupplier, hconsumer⟩
    exact hne (eq_of_mem_grouped h (List.mem_mergeSort.mp hl) (List.mem_mergeSort.mp hl') hsupplier
      hconsumer)
  simp only [precedes, Bool.or_eq_true, Bool.and_eq_true, decide_eq_true_eq] at hle
  unfold StrictlyPrecedes
  omega

end Groups

def directions : List (StageTag × StageTag) :=
  [(.source, .transformation), (.transformation, .transformation), (.transformation, .sink)]

theorem follows_iff {tag tag' : StageTag} : follows tag tag' = true ↔ (tag, tag') ∈ directions := by
  cases tag <;> cases tag' <;> decide

/-- A link of the quadratic join: from one stage to another one with the same binding, where the
tags follow one another. -/
structure Joins (stages : List (Stage String)) (l : FlowEdge String) : Prop where
  supplier_mem : l.supplier ∈ stages
  consumer_mem : l.consumer ∈ stages
  ne : l.supplier ≠ l.consumer
  supplier_binding : l.supplier.binding = some l.binding
  consumer_binding : l.consumer.binding = some l.binding
  tags_mem : (l.supplier.tag, l.consumer.tag) ∈ directions

section Text

variable {stages stages' : List (Stage String)}

theorem Joins.of_subset {l : FlowEdge String} (hl : Joins stages l) (h : stages ⊆ stages') :
    Joins stages' l :=
  ⟨h hl.supplier_mem, h hl.consumer_mem, hl.ne, hl.supplier_binding, hl.consumer_binding,
    hl.tags_mem⟩

theorem mem_bound_iff {x : Scalar × String × Stage String} :
    x ∈ bound stages ↔ x.2.2 ∈ stages ∧ x.2.2.binding = some x.2.1 ∧ x.1 = .text x.2.1 := by
  obtain ⟨k, b, s⟩ := x
  simp only [bound, List.mem_filterMap, Option.map_eq_some_iff, Prod.mk.injEq]
  constructor
  · rintro ⟨s, hs, b, hb, rfl, rfl, rfl⟩
    exact ⟨hs, hb, rfl⟩
  · rintro ⟨hs, hb, rfl⟩
    exact ⟨s, hs, b, hb, rfl, rfl, rfl⟩

theorem nodup_ordinals_bound (h : (stages.map (·.ordinal)).Nodup) :
    ((bound stages).map (·.2.2.ordinal)).Nodup := by
  refine nodup_ordinals_filterMap (fun s x hx => ?_) h
  obtain ⟨b, -, rfl⟩ := Option.map_eq_some_iff.mp hx
  rfl

theorem find?_bound {x : Scalar × String × Stage String} (hx : x ∈ bound stages) :
    ((bound stages).find? (·.1 == x.1)).map (·.2.1) = some x.2.1 := by
  obtain ⟨y, hy, hfirst, hk⟩ := exists_find?_key hx
  rw [(mem_bound_iff.mp hy).2.2, (mem_bound_iff.mp hx).2.2] at hk
  rw [hfirst, Option.map_some, Scalar.text.inj hk]

/-- Grouping and joining inside the groups is joining all pairs. -/
theorem mem_grouped_bound_iff (h : (stages.map (·.ordinal)).Nodup) {l : FlowEdge String} :
    l ∈ grouped (bound stages) ↔ Joins stages l := by
  rw [mem_grouped_iff]
  constructor
  · rintro ⟨x, hx, y, hy, hxy, hsupplier, hconsumer, hne, hfollows, hb⟩
    obtain ⟨hxs, hxb, hxk⟩ := mem_bound_iff.mp hx
    obtain ⟨hys, hyb, hyk⟩ := mem_bound_iff.mp hy
    have hbx : x.2.1 = l.binding := Option.some.inj ((find?_bound hx).symm.trans hb)
    have hby : y.2.1 = x.2.1 := by
      rw [hxk, hyk] at hxy
      exact (Scalar.text.inj hxy).symm
    refine ⟨hsupplier ▸ hxs, hconsumer ▸ hys, fun he => hne (by rw [he]), ?_, ?_,
      follows_iff.mp hfollows⟩
    · rw [hsupplier, hxb, hbx]
    · rw [hconsumer, hyb, hby, hbx]
  · intro hl
    have hup : (.text l.binding, l.binding, l.supplier) ∈ bound stages :=
      mem_bound_iff.mpr ⟨hl.supplier_mem, hl.supplier_binding, rfl⟩
    have hdown : (.text l.binding, l.binding, l.consumer) ∈ bound stages :=
      mem_bound_iff.mpr ⟨hl.consumer_mem, hl.consumer_binding, rfl⟩
    refine ⟨_, hup, _, hdown, rfl, rfl, rfl, fun he => hl.ne ?_, follows_iff.mpr hl.tags_mem,
      find?_bound hup⟩
    exact List.inj_on_of_nodup_map h hl.supplier_mem hl.consumer_mem he

theorem mem_linksOf_iff (h : (stages.map (·.ordinal)).Nodup) {l : FlowEdge String} :
    l ∈ linksOf stages ↔ Joins stages l :=
  List.mem_mergeSort.trans (mem_grouped_bound_iff h)

theorem strictlyPrecedes_linksOf (h : (stages.map (·.ordinal)).Nodup) :
    (linksOf stages).Pairwise StrictlyPrecedes :=
  strictlyPrecedes_mergeSort (nodup_ordinals_bound h)

theorem nodup_linksOf (h : (stages.map (·.ordinal)).Nodup) : (linksOf stages).Nodup :=
  (List.mergeSort_perm _ _).nodup_iff.mpr (nodup_grouped (nodup_ordinals_bound h))

theorem linksOf_perm (h : (stages.map (·.ordinal)).Nodup) (hperm : stages.Perm stages') :
    linksOf stages = linksOf stages' := by
  have h' : (stages'.map (·.ordinal)).Nodup := (hperm.map _).nodup_iff.mp h
  refine isOrder_precedes.mergeSort_eq_of_perm ?_ ?_
  · refine (List.perm_ext_iff_of_nodup (nodup_grouped (nodup_ordinals_bound h))
      (nodup_grouped (nodup_ordinals_bound h'))).mpr fun l => ?_
    rw [mem_grouped_bound_iff h, mem_grouped_bound_iff h']
    constructor
    · intro hl
      exact hl.of_subset hperm.subset
    · intro hl
      exact hl.of_subset hperm.symm.subset
  · intro l hl l' hl' hle hle'
    simp only [precedes, Bool.or_eq_true, Bool.and_eq_true, decide_eq_true_eq] at hle hle'
    exact eq_of_mem_grouped (nodup_ordinals_bound h) hl hl' (by omega) (by omega)

def tally (group : List (Stage String)) (tag : StageTag) : ℕ := group.countP (·.tag = tag)

/-- A sum over stages of what depends on the tag alone is weighted by the tallies. -/
theorem sum_map_tag (group : List (Stage String)) (f : StageTag → ℕ) :
    (group.map fun s => f s.tag).sum = tally group .source * f .source +
      tally group .transformation * f .transformation + tally group .sink * f .sink := by
  induction group with
  | nil => simp [tally]
  | cons s group ih =>
    simp only [List.map_cons, List.sum_cons, ih, tally, List.countP_cons]
    cases s.tag <;> simp [Nat.add_mul] <;> omega

/-- How many stages of a group follow those with a tag. -/
def reach (group : List (Stage String)) : StageTag → ℕ
  | .source => tally group .transformation
  | .transformation => tally group .transformation + tally group .sink
  | .sink => 0

theorem countP_follows (group : List (Stage String)) (tag : StageTag) :
    group.countP (fun s => follows tag s.tag) = reach group tag := by
  induction group with
  | nil => cases tag <;> rfl
  | cons s group ih =>
    rw [List.countP_cons, ih]
    cases tag <;> simp only [reach, tally, List.countP_cons] <;> cases s.tag <;>
      simp [follows] <;> omega

theorem length_consumers {group : List (Stage String)} (h : (group.map (·.ordinal)).Nodup)
    {up : Stage String} (hup : up ∈ group) :
    (group.filter fun down => up.ordinal ≠ down.ordinal && follows up.tag down.tag).length =
      reach group up.tag - if follows up.tag up.tag then 1 else 0 := by
  have herase : group.filter (fun down => decide (up.ordinal ≠ down.ordinal)) = group.erase up := by
    rw [(List.Nodup.of_map _ h).erase_eq_filter]
    refine List.filter_congr fun down hdown => ?_
    have hiff : up.ordinal = down.ordinal ↔ down = up :=
      ⟨fun he => List.inj_on_of_nodup_map h hdown hup he.symm, fun he => by rw [he]⟩
    rw [bne, Bool.eq_iff_iff]
    simp [hiff]
  have hand : group.filter (fun down => up.ordinal ≠ down.ordinal && follows up.tag down.tag) =
      (group.erase up).filter fun down => follows up.tag down.tag := by
    rw [← herase, List.filter_filter]
    exact List.filter_congr fun down _ => Bool.and_comm _ _
  rw [hand, ← List.countP_eq_length_filter, List.countP_erase, countP_follows]
  simp [hup]

theorem length_links (b : String) {group : List (Stage String)}
    (h : (group.map (·.ordinal)).Nodup) :
    (links b group).length = tally group .source * tally group .transformation +
      tally group .transformation * (tally group .transformation - 1) +
      tally group .transformation * tally group .sink := by
  have hsum : (links b group).length =
      (group.map fun up => reach group up.tag - if follows up.tag up.tag then 1 else 0).sum := by
    rw [links, List.length_flatMap]
    refine congrArg List.sum (List.map_congr_left fun up hup => ?_)
    rw [List.length_map, length_consumers h hup]
  rw [hsum, sum_map_tag group fun tag => reach group tag - if follows tag tag then 1 else 0]
  simp only [reach, follows]
  cases tally group .transformation with
  | zero => simp
  | succ t =>
    have hothers : t + 1 + tally group .sink - 1 = t + tally group .sink := by omega
    simp only [if_true, Bool.false_eq_true, if_false, Nat.sub_zero, Nat.mul_zero, Nat.add_zero,
      Nat.add_sub_cancel, hothers]
    rw [Nat.mul_add (t + 1), Nat.add_assoc]

theorem filter_binding_linksOf (h : (stages.map (·.ordinal)).Nodup) (b : String) :
    ((linksOf stages).filter (·.binding = b)).Perm
      (links b (stages.filter (·.binding = some b))) := by
  have hstages : stages.Nodup := List.Nodup.of_map _ h
  refine (List.perm_ext_iff_of_nodup ((nodup_linksOf h).filter _)
    (nodup_links b (hstages.filter _))).mpr fun l => ?_
  simp only [List.mem_filter, mem_linksOf_iff h, mem_links_iff, decide_eq_true_eq]
  constructor
  · rintro ⟨⟨hup, hdown, hne, hupb, hdownb, htags⟩, rfl⟩
    refine ⟨⟨hup, hupb⟩, ⟨hdown, hdownb⟩, fun he => hne ?_, follows_iff.mpr htags, rfl⟩
    exact List.inj_on_of_nodup_map h hup hdown he
  · rintro ⟨⟨hup, hupb⟩, ⟨hdown, hdownb⟩, hne, hfollows, rfl⟩
    exact ⟨⟨hup, hdown, fun he => hne (by rw [he]), hupb, hdownb, follows_iff.mp hfollows⟩, rfl⟩

/-- The links of a file whose stages have different ordinals are those of the quadratic join, each
once and in the order of their ends, whatever the order of the stages. -/
theorem edges_eq_join {e : FileExtraction String} (h : (e.stages.map (·.ordinal)).Nodup) :
    ∃ es, edges e = .ok es ∧ es.Pairwise StrictlyPrecedes ∧
      (∀ l, l ∈ es ↔ Joins e.stages l) ∧ (∀ l, Joins e.stages l → es.count l = 1) ∧
      (∀ e' : FileExtraction String, e.stages.Perm e'.stages → edges e' = .ok es) ∧
      ∀ b group, group = e.stages.filter (·.binding = some b) →
        (es.filter (·.binding = b)).length = tally group .source * tally group .transformation +
          tally group .transformation * (tally group .transformation - 1) +
          tally group .transformation * tally group .sink := by
  refine ⟨linksOf e.stages, edges_text e, strictlyPrecedes_linksOf h, fun l => mem_linksOf_iff h,
    ?_, ?_, ?_⟩
  · intro l hl
    exact List.count_eq_one_of_mem (nodup_linksOf h) ((mem_linksOf_iff h).mpr hl)
  · intro e' hperm
    rw [edges_text, linksOf_perm h hperm]
  · rintro b _ rfl
    rw [(filter_binding_linksOf h b).length_eq]
    exact length_links b (h.sublist (List.filter_sublist.map _))

/-- A file with stages of every tag on one binding and one stage without a binding. -/
def sampleJoined : FileExtraction String :=
  ⟨⟨"A.java", none, []⟩, [],
    [⟨.source, "read", [], some "rows", 1, 0⟩, ⟨.transformation, "map", [], some "rows", 2, 1⟩,
      ⟨.transformation, "join", [], some "rows", 3, 2⟩, ⟨.transformation, "map", [], none, 4, 3⟩,
      ⟨.sink, "save", [], some "rows", 5, 4⟩], 0⟩

theorem sampleJoined_edges :
    (sampleJoined.stages.map (·.ordinal)).Nodup ∧
    ∃ es, edges sampleJoined = .ok es ∧ es.Pairwise StrictlyPrecedes ∧
      (es.filter (·.binding = "rows")).length = 6 := by
  have h : (sampleJoined.stages.map (·.ordinal)).Nodup := by decide
  obtain ⟨es, hes, hsorted, -, -, -, hcount⟩ := edges_eq_join h
  refine ⟨h, es, hes, hsorted, ?_⟩
  rw [hcount "rows" _ rfl]
  decide

end Text

end Flow

end CodeAtlas

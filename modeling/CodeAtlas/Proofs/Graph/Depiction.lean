import Mathlib.Data.List.Nodup
import Mathlib.Data.List.Perm.Basic
import Mathlib.Data.Set.Function
import CodeAtlas.Graph.Query

/-! # Graphs that depict graphs

The graph of a database depicts a graph whose nodes are known by what they stand for, if it is that
graph up to the choice of identifiers and the order of things. What queries do to the graph of the
database is what is done to the graph that it depicts.
-/

namespace CodeAtlas.Graph

variable {ι κ : Type}

def Node.rename (f : ι → κ) (n : Node ι) : Node κ := ⟨f n.id, n.labels, n.properties⟩

def Relationship.rename (f : ι → κ) (r : Relationship ι) : Relationship κ :=
  ⟨f r.source, f r.target, r.type, r.properties⟩

@[simp] theorem Node.fits_rename (f : ι → κ) (labels : List String) (fields : List (String × Value))
    (n : Node ι) : (n.rename f).fits labels fields = n.fits labels fields := rfl

/-- The nodes have different identifiers, and relationships are between nodes. -/
structure PropertyGraph.IsSound (G : PropertyGraph ι) : Prop where
  nodup : G.ids.Nodup
  closed : ∀ r ∈ G.relationships, r.source ∈ G.ids ∧ r.target ∈ G.ids

def PropertyGraph.rename (f : ι → κ) (G : PropertyGraph ι) : PropertyGraph κ :=
  ⟨G.nodes.map (·.rename f), G.relationships.map (·.rename f)⟩

/-- A graph depicts another one under a choice of identifiers. -/
structure Depicts (place : ι → ℕ) (G : PropertyGraph ι) (g : PropertyGraph ℕ) : Prop where
  nodes : g.nodes.Perm (G.nodes.map (·.rename place))
  relationships : g.relationships.Perm (G.relationships.map (·.rename place))
  injOn : Set.InjOn place {k | k ∈ G.ids}

theorem Node.rename_congr {f f' : ι → κ} {n : Node ι} (h : f n.id = f' n.id) :
    n.rename f = n.rename f' := by
  simp [rename, h]

theorem Relationship.rename_congr {f f' : ι → κ} {r : Relationship ι}
    (hs : f r.source = f' r.source) (ht : f r.target = f' r.target) :
    r.rename f = r.rename f' := by
  simp [rename, hs, ht]

theorem PropertyGraph.mem_ids {G : PropertyGraph ι} {n : Node ι} (h : n ∈ G.nodes) : n.id ∈ G.ids :=
  List.mem_map_of_mem h

theorem PropertyGraph.IsSound.rename_congr {G : PropertyGraph ι} (h : G.IsSound) {f f' : ι → κ}
    (hf : ∀ k ∈ G.ids, f k = f' k) : G.rename f = G.rename f' := by
  rw [PropertyGraph.rename, PropertyGraph.rename]
  congr 1
  · exact List.map_congr_left fun n hn => Node.rename_congr (hf _ (mem_ids hn))
  · exact List.map_congr_left fun r hr =>
      Relationship.rename_congr (hf _ (h.closed r hr).1) (hf _ (h.closed r hr).2)

theorem PropertyGraph.freshId_notMem (g : PropertyGraph ℕ) : g.freshId ∉ g.ids := by
  have hlt (ns : List (Node ℕ)) :
      ∀ n ∈ ns, n.id < ns.foldr (fun n next => max (n.id + 1) next) 0 := by
    induction ns with
    | nil => simp
    | cons m ns ih =>
      intro n hn
      rw [List.foldr_cons]
      rcases List.mem_cons.mp hn with rfl | hn
      · omega
      · have := ih n hn
        omega
  intro h
  obtain ⟨n, hn, he⟩ := List.mem_map.mp h
  exact absurd (hlt g.nodes n hn) (he ▸ Nat.lt_irrefl _)

theorem PropertyGraph.without_without (G : PropertyGraph ι) (gone gone' : ι → Bool) :
    (G.without gone).without gone' = G.without fun k => gone k || gone' k := by
  rw [without, without, without, List.filter_filter, List.filter_filter]
  congr 1
  · refine List.filter_congr fun n _ => ?_
    cases gone n.id <;> simp
  · refine List.filter_congr fun r _ => ?_
    cases gone r.source <;> cases gone r.target <;> simp

theorem PropertyGraph.mem_ids_without {G : PropertyGraph ι} {gone : ι → Bool} {k : ι} :
    k ∈ (G.without gone).ids ↔ k ∈ G.ids ∧ gone k = false := by
  simp only [PropertyGraph.without, ids, List.mem_map, List.mem_filter, Bool.not_eq_true']
  constructor
  · rintro ⟨n, ⟨hn, hg⟩, rfl⟩
    exact ⟨⟨n, hn, rfl⟩, hg⟩
  · rintro ⟨⟨n, hn, rfl⟩, hg⟩
    exact ⟨n, ⟨hn, hg⟩, rfl⟩

@[simp] theorem PropertyGraph.ids_addNode (G : PropertyGraph ι) (n : Node ι) :
    (G.addNode n).ids = G.ids ++ [n.id] := by
  simp [PropertyGraph.addNode, ids]

theorem PropertyGraph.IsSound.addNode {G : PropertyGraph ι} (h : G.IsSound) {n : Node ι}
    (hn : n.id ∉ G.ids) : (G.addNode n).IsSound := by
  refine ⟨?_, fun r hr => ?_⟩
  · rw [ids_addNode, List.nodup_append]
    refine ⟨h.nodup, by simp, ?_⟩
    rintro k hk _ hk' rfl
    exact hn (List.mem_singleton.mp hk' ▸ hk)
  · rw [ids_addNode]
    exact ⟨List.mem_append_left _ (h.closed r hr).1, List.mem_append_left _ (h.closed r hr).2⟩

theorem PropertyGraph.IsSound.without {G : PropertyGraph ι} (h : G.IsSound) (gone : ι → Bool) :
    (G.without gone).IsSound := by
  refine ⟨h.nodup.sublist (List.filter_sublist.map _), fun r hr => ?_⟩
  simp only [PropertyGraph.without, List.mem_filter, Bool.and_eq_true, Bool.not_eq_true'] at hr
  obtain ⟨hr, hs, ht⟩ := hr
  exact ⟨mem_ids_without.mpr ⟨(h.closed r hr).1, hs⟩, mem_ids_without.mpr ⟨(h.closed r hr).2, ht⟩⟩

/-- What is done to the node with an identifier changes no list without it. -/
theorem map_ite_id_of_notMem [DecidableEq ι] {ns : List (Node ι)} {k : ι} (hk : k ∉ ns.map (·.id))
    (f : Node ι → Node ι) : ns.map (fun n => if n.id = k then f n else n) = ns := by
  refine (List.map_congr_left fun n hn => if_neg ?_).trans (List.map_id _)
  rintro rfl
  exact hk (List.mem_map_of_mem hn)

theorem PropertyGraph.without_eq_self_of_notMem [DecidableEq ι] {G : PropertyGraph ι} {k : ι}
    (hk : k ∉ G.ids) (hapart : ∀ r ∈ G.relationships, r.source ≠ k ∧ r.target ≠ k) :
    G.without (· == k) = G := by
  have hn : ∀ n ∈ G.nodes, (!n.id == k) = true := fun n hn => by
    simpa using fun he : n.id = k => hk (he ▸ mem_ids hn)
  have hr : ∀ r ∈ G.relationships, (!r.source == k && !r.target == k) = true := fun r hr => by
    simpa using hapart r hr
  rw [without, List.filter_eq_self.mpr hn, List.filter_eq_self.mpr hr]

/-- A node whose properties are set takes the place of the old one, if there are no relationships
at it. -/
theorem PropertyGraph.setProperties_perm [DecidableEq ι] {G : PropertyGraph ι} (h : G.IsSound)
    {n : Node ι} (hn : n ∈ G.nodes)
    (hapart : ∀ r ∈ G.relationships, r.source ≠ n.id ∧ r.target ≠ n.id)
    (fields : List (String × Value)) :
    (G.setProperties n.id fields).nodes.Perm
        ((G.without (· == n.id)).addNode { n with properties := n.properties.set fields }).nodes ∧
      (G.setProperties n.id fields).relationships = (G.without (· == n.id)).relationships := by
  obtain ⟨before, after, hsplit⟩ := List.append_of_mem hn
  have hnodup := h.nodup
  rw [ids, hsplit, List.map_append, List.map_cons, List.nodup_middle, List.nodup_cons,
    List.mem_append, not_or] at hnodup
  obtain ⟨⟨hbefore, hafter⟩, -⟩ := hnodup
  have hrest {ns : List (Node ι)} (hns : n.id ∉ ns.map (·.id)) :
      ns.filter (fun m => !m.id == n.id) = ns := by
    refine List.filter_eq_self.mpr fun m hm => ?_
    simpa using fun he : m.id = n.id => hns (he ▸ List.mem_map_of_mem hm)
  constructor
  · rw [setProperties, addNode, without, hsplit, List.map_append, List.map_cons,
      map_ite_id_of_notMem hbefore, map_ite_id_of_notMem hafter, List.filter_append,
      List.filter_cons_of_neg (by simp), hrest hbefore, hrest hafter, if_pos rfl]
    exact List.perm_middle.trans (List.perm_append_singleton _ _).symm
  · refine (List.filter_eq_self.mpr fun r hr => ?_).symm
    simpa using hapart r hr

structure Child (ι : Type) where
  parent : ι
  type : String
  node : Node ι

def Child.link (c : Child ι) : Relationship ι := ⟨c.parent, c.node.id, c.type, .ofFields []⟩

def PropertyGraph.attach (G : PropertyGraph ι) (cs : List (Child ι)) : PropertyGraph ι :=
  ⟨G.nodes ++ cs.map (·.node), G.relationships ++ cs.map (·.link)⟩

def PropertyGraph.relate (G : PropertyGraph ι) (rs : List (Relationship ι)) : PropertyGraph ι :=
  { G with relationships := G.relationships ++ rs }

@[simp] theorem PropertyGraph.attach_nil (G : PropertyGraph ι) : G.attach [] = G := by
  simp [attach]

@[simp] theorem PropertyGraph.relate_nil (G : PropertyGraph ι) : G.relate [] = G := by
  simp [relate]

theorem PropertyGraph.attach_append (G : PropertyGraph ι) (cs ds : List (Child ι)) :
    G.attach (cs ++ ds) = (G.attach cs).attach ds := by
  simp [attach]

theorem PropertyGraph.attach_cons (G : PropertyGraph ι) (c : Child ι) (cs : List (Child ι)) :
    G.attach (c :: cs) = ((G.addNode c.node).addRelationship c.link).attach cs := by
  simp [attach, addNode, addRelationship]

@[simp] theorem PropertyGraph.ids_attach (G : PropertyGraph ι) (cs : List (Child ι)) :
    (G.attach cs).ids = G.ids ++ cs.map (·.node.id) := by
  simp [attach, ids, Function.comp_def]

theorem PropertyGraph.IsSound.attach {G : PropertyGraph ι} (h : G.IsSound) {cs : List (Child ι)}
    (hparent : ∀ c ∈ cs, c.parent ∈ G.ids) (hnodup : (G.attach cs).ids.Nodup) :
    (G.attach cs).IsSound := by
  refine ⟨hnodup, fun r hr => ?_⟩
  rw [ids_attach]
  rcases List.mem_append.mp hr with hr | hr
  · exact ⟨List.mem_append_left _ (h.closed r hr).1, List.mem_append_left _ (h.closed r hr).2⟩
  · obtain ⟨c, hc, rfl⟩ := List.mem_map.mp hr
    exact ⟨List.mem_append_left _ (hparent c hc),
      List.mem_append_right _ (List.mem_map_of_mem hc)⟩

namespace Depicts

variable {place : ι → ℕ} {G G' : PropertyGraph ι} {g : PropertyGraph ℕ}

theorem empty (place : ι → ℕ) : Depicts place .empty .empty := by
  refine ⟨.refl _, .refl _, ?_⟩
  simp [PropertyGraph.empty, PropertyGraph.ids]

theorem ids (h : Depicts place G g) : g.ids.Perm (G.ids.map place) := by
  have := h.nodes.map (·.id)
  simpa [PropertyGraph.ids, Node.rename, Function.comp_def] using this

theorem perm (h : Depicts place G g) (hn : G.nodes.Perm G'.nodes)
    (hr : G.relationships.Perm G'.relationships) : Depicts place G' g := by
  refine ⟨h.nodes.trans (hn.map _), h.relationships.trans (hr.map _), ?_⟩
  have hids (k : ι) : k ∈ G'.ids ↔ k ∈ G.ids := ((hn.map (·.id)).mem_iff).symm
  simpa only [hids] using h.injOn

theorem congr (h : Depicts place G g) (hG : G.IsSound) {place' : ι → ℕ}
    (hp : ∀ k ∈ G.ids, place' k = place k) : Depicts place' G g := by
  have hrename : G.rename place' = G.rename place := hG.rename_congr hp
  rw [PropertyGraph.rename, PropertyGraph.rename, PropertyGraph.mk.injEq] at hrename
  refine ⟨hrename.1 ▸ h.nodes, hrename.2 ▸ h.relationships, ?_⟩
  exact h.injOn.congr fun k hk => (hp k hk).symm

theorem fitting (h : Depicts place G g) (labels : List String) (fields : List (String × Value)) :
    ((g.nodes.filter (Node.fits labels fields)).map (·.id)).Perm
      (((G.nodes.filter (Node.fits labels fields)).map (·.id)).map place) := by
  have := (h.nodes.filter (Node.fits labels fields)).map (·.id)
  rw [List.filter_map, List.map_map] at this
  rw [List.map_map]
  exact this

theorem matches_eq_singleton (h : Depicts place G g) (hG : G.IsSound) {ps : Value} {row : Row}
    {p : NodePattern} {k : ι} (hk : ∃ n ∈ G.nodes, n.id = k ∧
      n.fits p.labels (p.properties.values ps row) = true)
    (honly : ∀ n ∈ G.nodes, n.fits p.labels (p.properties.values ps row) = true → n.id = k) :
    p.matches ps g row = [place k] := by
  obtain ⟨n, hn, rfl, hfit⟩ := hk
  have hnodup : ((G.nodes.filter (Node.fits p.labels (p.properties.values ps row))).map
      (·.id)).Nodup := hG.nodup.sublist (List.filter_sublist.map _)
  have hone : (G.nodes.filter (Node.fits p.labels (p.properties.values ps row))).map (·.id) =
      [n.id] := by
    refine List.perm_singleton.mp ((List.perm_ext_iff_of_nodup hnodup (List.nodup_singleton _)).mpr
      fun k => ?_)
    simp only [List.mem_map, List.mem_filter, List.mem_singleton]
    constructor
    · rintro ⟨m, ⟨hm, hmf⟩, rfl⟩
      exact honly m hm hmf
    · rintro rfl
      exact ⟨n, ⟨hn, hfit⟩, rfl⟩
  have := h.fitting p.labels (p.properties.values ps row)
  rw [hone] at this
  exact List.perm_singleton.mp this

section Update

variable [DecidableEq ι]

theorem addNode (h : Depicts place G g) (hG : G.IsSound) {n : Node ι} (hn : n.id ∉ G.ids) :
    Depicts (Function.update place n.id g.freshId) (G.addNode n)
      (g.addNode (n.rename fun _ => g.freshId)) := by
  have hkeep : ∀ k ∈ G.ids, Function.update place n.id g.freshId k = place k := by
    intro k hk
    have hne : k ≠ n.id := by
      rintro rfl
      exact hn hk
    exact Function.update_of_ne hne _ _
  have h' := h.congr hG hkeep
  have hself : n.rename (fun _ => g.freshId) =
      n.rename (Function.update place n.id g.freshId) := by
    simp [Node.rename]
  refine ⟨?_, h'.relationships, ?_⟩
  · rw [PropertyGraph.addNode, PropertyGraph.addNode, List.map_append, hself]
    exact h'.nodes.append_right _
  · have hids : {k | k ∈ (G.addNode n).ids} = insert n.id {k | k ∈ G.ids} := by
      ext k
      simp [or_comm]
    have hnew : n.id ∉ {k | k ∈ G.ids} := hn
    rw [hids, Set.injOn_insert hnew]
    refine ⟨h'.injOn, ?_⟩
    rintro ⟨k, hk, he⟩
    rw [Function.update_self, hkeep k hk] at he
    exact g.freshId_notMem (h.ids.mem_iff.mpr (he ▸ List.mem_map_of_mem hk))

omit [DecidableEq ι] in
theorem addRelationship (h : Depicts place G g) (r : Relationship ι) :
    Depicts place (G.addRelationship r) (g.addRelationship (r.rename place)) := by
  refine ⟨h.nodes, ?_, h.injOn⟩
  rw [PropertyGraph.addRelationship, PropertyGraph.addRelationship, List.map_append]
  exact h.relationships.append_right _

omit [DecidableEq ι] in
theorem without (h : Depicts place G g) (hG : G.IsSound) {gone : ι → Bool} {gone' : ℕ → Bool}
    (hgone : ∀ k ∈ G.ids, gone' (place k) = gone k) :
    Depicts place (G.without gone) (g.without gone') := by
  refine ⟨?_, ?_, ?_⟩
  · have := h.nodes.filter fun n => !gone' n.id
    rw [List.filter_map] at this
    rw [PropertyGraph.without, PropertyGraph.without]
    have hfilter : G.nodes.filter ((fun n => !gone' n.id) ∘ (·.rename place)) =
        G.nodes.filter fun n => !gone n.id :=
      List.filter_congr fun n hn => by
        simpa [Node.rename] using hgone n.id (PropertyGraph.mem_ids hn)
    rwa [hfilter] at this
  · have := h.relationships.filter fun r => !gone' r.source && !gone' r.target
    rw [List.filter_map] at this
    have hfilter : G.relationships.filter
        ((fun r => !gone' r.source && !gone' r.target) ∘ (·.rename place)) =
          G.relationships.filter fun r => !gone r.source && !gone r.target :=
      List.filter_congr fun r hr => by
        have hs := hgone _ (hG.closed r hr).1
        have ht := hgone _ (hG.closed r hr).2
        simp [Relationship.rename, hs, ht]
    rwa [hfilter] at this
  · refine h.injOn.mono fun k hk => ?_
    obtain ⟨n, hn, rfl⟩ := List.mem_map.mp hk
    exact PropertyGraph.mem_ids (List.mem_of_mem_filter hn)

theorem setProperties (h : Depicts place G g) {k : ι} (hk : k ∈ G.ids)
    (fields : List (String × Value)) :
    Depicts place (G.setProperties k fields) (g.setProperties (place k) fields) := by
  have hids : (G.setProperties k fields).ids = G.ids := by
    simp only [PropertyGraph.setProperties, PropertyGraph.ids, List.map_map]
    refine List.map_congr_left fun n _ => ?_
    rw [Function.comp_apply]
    split <;> rfl
  refine ⟨?_, h.relationships, by rw [hids]; exact h.injOn⟩
  have := h.nodes.map fun n =>
    if n.id = place k then { n with properties := n.properties.set fields } else n
  rw [List.map_map] at this
  refine this.trans (List.Perm.of_eq ?_)
  rw [PropertyGraph.setProperties, List.map_map]
  refine List.map_congr_left fun n hn => ?_
  have hiff : place n.id = place k ↔ n.id = k :=
    h.injOn.eq_iff (PropertyGraph.mem_ids hn) hk
  by_cases hnk : n.id = k <;> simp [Node.rename, hiff, hnk]

end Update

end Depicts

end CodeAtlas.Graph

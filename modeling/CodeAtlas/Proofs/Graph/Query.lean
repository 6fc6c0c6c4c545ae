import CodeAtlas.Proofs.Exchange.Entries
import CodeAtlas.Proofs.Graph.Depiction

/-! # What queries do to a depicted graph

The statements that work on data are the queries that they are said to be. Each clause does to the
graph of the database what it is to do to the graph that is depicted.
-/

namespace CodeAtlas.Graph

theorem Statement.text_query {α : Type} [Cell α] {s : Statement α} (h : s.isOnData = true) :
    s.query.text = s.text := by
  cases s with
  | uniqueFiles => simp [isOnData] at h
  | lookup => simp [isOnData] at h
  | _ =>
    delta text query
    dsimp only
    decide +kernel

@[simp] theorem memberOf_ofFields (fields : List (String × Value)) (key : String) :
    memberOf (.ofFields fields) key = (fields.lookup key).getD .null := by
  rw [Value.ofFields, memberOf, lookup_map_text]

@[simp] theorem itemsOf_list (items : List Value) : itemsOf (.list items) = items := rfl

section Rows

variable (row : Row) (name : String)

@[simp] theorem Row.lookup_bind (b : Bound) (name' : String) :
    (row.bind name b).lookup name' = if name' = name then some b else row.lookup name' := by
  by_cases h : name' = name
  · simp [Row.bind, h]
  · simp [Row.bind, List.lookup_cons, beq_eq_false_iff_ne.mpr h, h]

@[simp] theorem Row.node?_bind (b : Bound) (name' : String) : (row.bind name b).node? name' =
    if name' = name then (match b with | .node id => some id | .value _ => none)
    else row.node? name' := by
  rw [Row.node?, Row.lookup_bind]
  by_cases h : name' = name
  · cases b <;> simp [h]
  · simp [h, Row.node?]

@[simp] theorem Row.bindNode_some (id : ℕ) :
    row.bindNode (some name) id = row.bind name (.node id) :=
  rfl

@[simp] theorem Row.bindNode_none (id : ℕ) : row.bindNode none id = row := rfl

@[simp] theorem Row.node?_nil : Row.node? [] name = none := rfl

end Rows

section Expressions

variable (ps : Value) (row : Row) (name key : String)

@[simp] theorem Expression.value_parameter :
    (Expression.parameter name).value ps row = memberOf ps name := rfl

@[simp] theorem Expression.value_member : (Expression.member name key).value ps row =
    match row.lookup name with
    | some (.value v) => memberOf v key
    | _ => .null := rfl

end Expressions

section Tables

variable {step : PropertyGraph ℕ → Row → PropertyGraph ℕ × List Row} {g : PropertyGraph ℕ}

theorem overRows_of_forall {rows : List Row} {out : Row → List Row}
    (h : ∀ row ∈ rows, step g row = (g, out row)) :
    overRows step g rows = (g, rows.flatMap out) := by
  induction rows with
  | nil => rfl
  | cons row rows ih =>
    rw [List.forall_mem_cons] at h
    simp [overRows, h.1, ih h.2]

theorem overRows_append (rows rows' : List Row) : overRows step g (rows ++ rows') =
    ((overRows step (overRows step g rows).1 rows').1,
      (overRows step g rows).2 ++ (overRows step (overRows step g rows).1 rows').2) := by
  induction rows generalizing g with
  | nil => rfl
  | cons row rows ih => simp [overRows, ih]

variable (ps : Value)

theorem find_run {β : Type} {p : NodePattern} {xs : List β} {row : β → Row} {id : β → ℕ}
    (h : ∀ x ∈ xs, p.matches ps g (row x) = [id x]) : (Clause.find p).run ps (g, xs.map row) =
      (g, xs.map fun x => (row x).bindNode p.name (id x)) := by
  rw [Clause.run]
  induction xs with
  | nil => rfl
  | cons x xs ih =>
    rw [List.forall_mem_cons] at h
    simp [overRows, Clause.step, h.1, ih h.2]

theorem unwind_run (list : Expression) (name : String) (rows : List Row) :
    (Clause.unwind list name).run ps (g, rows) =
      (g, rows.flatMap fun row => unwound ps row list name) :=
  overRows_of_forall fun _ _ => rfl

/-- Going through the lists of all rows is going through one list of rows. -/
theorem forEach_run (name : String) (list : Expression) (what : Creation) (rows : List Row) :
    (Clause.forEach name list what).run ps (g, rows) =
      ((overRows (what.step ps) g (rows.flatMap fun row => unwound ps row list name)).1, rows) := by
  rw [Clause.run]
  induction rows generalizing g with
  | nil => rfl
  | cons row rows ih => simp [overRows, Clause.step, overRows_append, ih]

theorem remove_run (name : String) (ids : List ℕ) :
    (Clause.remove name).run ps (g, ids.map fun id => Row.bind [] name (.node id)) =
      (g.without ids.contains, ids.map fun id => Row.bind [] name (.node id)) := by
  rw [Clause.run]
  induction ids generalizing g with
  | nil => simp [overRows, PropertyGraph.without]
  | cons id ids ih =>
    have hboth : (g.without (· == id)).without ids.contains = g.without (id :: ids).contains := by
      rw [PropertyGraph.without_without]
      congr 1
    dsimp only at ih ⊢
    simp [overRows, Clause.step, ih, hboth]

end Tables

variable {ι β : Type} {place : ι → ℕ} {G : PropertyGraph ι} {g : PropertyGraph ℕ} {ps : Value}

structure Makes (ps : Value) (place : ι → ℕ) (c : Creation) (pattern : NodePattern) (row : Row)
    (child : Child ι) : Prop where
  parent : row.node? c.source = some (place child.parent)
  type : child.type = c.type
  labels : child.node.labels = pattern.labels
  properties : child.node.properties = .ofFields (pattern.properties.values ps row)

namespace Depicts

variable [DecidableEq ι]

theorem create_step {c : Creation} {pattern : NodePattern} (htarget : c.target = .made pattern)
    (hproperties : c.properties = []) {row : Row} {child : Child ι} (h : Depicts place G g)
    (hG : G.IsSound) (hmakes : Makes ps place c pattern row child) (hparent : child.parent ∈ G.ids)
    (hnew : child.node.id ∉ G.ids) :
    Depicts (Function.update place child.node.id g.freshId) (G.attach [child])
        (c.step ps g row).1 ∧
      (c.step ps g row).2 = [row.bindNode pattern.name g.freshId] := by
  have hne : child.parent ≠ child.node.id := fun he => hnew (he ▸ hparent)
  have hnode : pattern.make ps row g.freshId = child.node.rename fun _ => g.freshId := by
    rw [NodePattern.make, Node.rename, hmakes.labels, hmakes.properties]
  have hlink : child.link.rename (Function.update place child.node.id g.freshId) =
      ⟨place child.parent, g.freshId, c.type, .ofFields []⟩ := by
    simp [Child.link, Relationship.rename, hmakes.type, hne]
  have hstep : c.step ps g row = ((g.addNode (child.node.rename fun _ => g.freshId)).addRelationship
      (child.link.rename (Function.update place child.node.id g.freshId)),
        [row.bindNode pattern.name g.freshId]) := by
    simp [Creation.step, hmakes.parent, htarget, hproperties, hnode, hlink, Assignments.values]
  rw [hstep, PropertyGraph.attach_cons, PropertyGraph.attach_nil]
  exact ⟨(h.addNode hG hnew).addRelationship _, rfl⟩

theorem create {c : Creation} {pattern : NodePattern} (htarget : c.target = .made pattern)
    (hproperties : c.properties = []) (xs : List β) (row : β → Row) (child : β → Child ι)
    (h : Depicts place G g) (hG : G.IsSound)
    (hmakes : ∀ x ∈ xs, Makes ps place c pattern (row x) (child x))
    (hparent : ∀ x ∈ xs, (child x).parent ∈ G.ids)
    (hnodup : (G.attach (xs.map child)).ids.Nodup) :
    ∃ place', (∀ k ∈ G.ids, place' k = place k) ∧
      Depicts place' (G.attach (xs.map child)) (overRows (c.step ps) g (xs.map row)).1 ∧
      (overRows (c.step ps) g (xs.map row)).2 =
        xs.map fun x => (row x).bindNode pattern.name (place' (child x).node.id) := by
  induction xs generalizing place G g with
  | nil => exact ⟨place, fun _ _ => rfl, by simpa [overRows] using h, rfl⟩
  | cons x xs ih =>
    rw [List.forall_mem_cons] at hmakes hparent
    have hsplit : G.attach ((x :: xs).map child) = (G.attach [child x]).attach (xs.map child) := by
      rw [← PropertyGraph.attach_append]
      rfl
    rw [hsplit] at hnodup ⊢
    have hone : (G.attach [child x]).ids.Nodup := by
      rw [PropertyGraph.ids_attach] at hnodup
      exact hnodup.of_append_left
    have hnew : (child x).node.id ∉ G.ids := by
      intro hm
      simp only [PropertyGraph.ids_attach, List.map_cons, List.map_nil] at hone
      exact (List.nodup_append.mp hone).2.2 _ hm _ List.mem_cons_self rfl
    obtain ⟨h₁, hrow⟩ := h.create_step htarget hproperties hG hmakes.1 hparent.1 hnew
    have hG₁ : (G.attach [child x]).IsSound := hG.attach (by simpa using hparent.1) hone
    -- The parents stand before the new node, so they keep their places.
    have hkeep : ∀ k ∈ G.ids,
        Function.update place (child x).node.id g.freshId k = place k := by
      intro k hk
      have hne : k ≠ (child x).node.id := by
        rintro rfl
        exact hnew hk
      exact Function.update_of_ne hne _ _
    have hmem : ∀ k ∈ G.ids, k ∈ (G.attach [child x]).ids := by
      intro k hk
      rw [PropertyGraph.ids_attach]
      exact List.mem_append_left _ hk
    obtain ⟨place', hplace, hdepicts, hrows⟩ := ih h₁ hG₁
      (fun y hy => by
        have hy' := hmakes.2 y hy
        exact ⟨by rw [hy'.parent, hkeep _ (hparent.2 y hy)], hy'.type, hy'.labels,
          hy'.properties⟩)
      (fun y hy => hmem _ (hparent.2 y hy)) hnodup
    have hself : place' (child x).node.id = g.freshId := by
      rw [hplace _ (by simp), Function.update_self]
    refine ⟨place', fun k hk => (hplace k (hmem k hk)).trans (hkeep k hk), ?_, ?_⟩
    · simpa [overRows] using hdepicts
    · simp [overRows, hrow, hrows, hself]

omit [DecidableEq ι] in
theorem relate (ps : Value) {c : Creation} {name : String} (htarget : c.target = .known name)
    (xs : List β) (row : β → Row) (r : β → Relationship ι) (h : Depicts place G g)
    (hrow : ∀ x ∈ xs, (row x).node? c.source = some (place (r x).source) ∧
      (row x).node? name = some (place (r x).target) ∧ (r x).type = c.type ∧
      (r x).properties = .ofFields (c.properties.values ps (row x))) :
    Depicts place (G.relate (xs.map r)) (overRows (c.step ps) g (xs.map row)).1 := by
  induction xs generalizing G g with
  | nil => simpa [overRows] using h
  | cons x xs ih =>
    rw [List.forall_mem_cons] at hrow
    obtain ⟨⟨hs, ht, htype, hproperties⟩, hrow⟩ := hrow
    have hstep : (c.step ps g (row x)).1 = g.addRelationship ((r x).rename place) := by
      simp [Creation.step, hs, htarget, ht, Relationship.rename, htype, hproperties]
    have hsplit : G.relate ((x :: xs).map r) = (G.addRelationship (r x)).relate (xs.map r) := by
      simp [PropertyGraph.relate, PropertyGraph.addRelationship]
    rw [hsplit]
    simpa [overRows, hstep] using ih (h.addRelationship (r x)) hrow

omit [DecidableEq ι] in
theorem place_mem_matches (h : Depicts place G g) {p : NodePattern} {row : Row} {k : ι}
    (hk : k ∈ G.ids) : place k ∈ p.matches ps g row ↔
      ∃ n ∈ G.nodes, n.fits p.labels (p.properties.values ps row) = true ∧ n.id = k := by
  rw [NodePattern.matches, (h.fitting _ _).mem_iff, List.map_map, List.mem_map]
  simp only [List.mem_filter, Function.comp_apply]
  constructor
  · rintro ⟨n, ⟨hn, hfit⟩, he⟩
    exact ⟨n, hn, hfit, h.injOn (PropertyGraph.mem_ids hn) hk he⟩
  · rintro ⟨n, hn, hfit, rfl⟩
    exact ⟨n, ⟨hn, hfit⟩, rfl⟩

omit [DecidableEq ι] in
theorem remove_run (h : Depicts place G g) (hG : G.IsSound) {p : NodePattern} {name : String}
    (hname : p.name = some name) {gone : ι → Bool}
    (hgone : ∀ n ∈ G.nodes, n.fits p.labels (p.properties.values ps []) = gone n.id) :
    Depicts place (G.without gone) (Query.run ps [.find p, .remove name] g) := by
  have hrun : Query.run ps [.find p, .remove name] g = g.without (p.matches ps g []).contains := by
    have hfind : (Clause.find p).run ps (g, [[]]) =
        (g, (p.matches ps g []).map fun id => Row.bind [] name (.node id)) := by
      simp [Clause.run, overRows, Clause.step, hname]
    simp only [Query.run, List.foldl_cons, List.foldl_nil, hfind]
    exact congrArg Prod.fst (Graph.remove_run ps name _)
  rw [hrun]
  refine h.without hG fun k hk => ?_
  rw [Bool.eq_iff_iff, List.contains_iff_mem, h.place_mem_matches hk]
  constructor
  · rintro ⟨n, hn, hfit, rfl⟩
    rwa [← hgone n hn]
  · intro hg
    obtain ⟨n, hn, rfl⟩ := List.mem_map.mp hk
    exact ⟨n, hn, by rwa [hgone n hn], rfl⟩

theorem merge_run (h : Depicts place G g) (hG : G.IsSound) {p : NodePattern} {name : String}
    (hname : p.name = some name) {as : Assignments} {fields : List (String × Value)}
    (has : ∀ row, as.values ps row = fields) {n : Node ι} (hlabels : n.labels = p.labels)
    (hproperties : n.properties = (Properties.ofFields (p.properties.values ps [])).set fields)
    (honly : ∀ m ∈ G.nodes, m.fits p.labels (p.properties.values ps []) = true ↔ m.id = n.id)
    (hsame : ∀ m ∈ G.nodes, m.id = n.id → { m with properties := m.properties.set fields } = n)
    (hapart : ∀ r ∈ G.relationships, r.source ≠ n.id ∧ r.target ≠ n.id) :
    ∃ place', (∀ k ∈ G.ids, k ≠ n.id → place' k = place k) ∧
      Depicts place' ((G.without (· == n.id)).addNode n)
        (Query.run ps [.merge p, .set name as] g) := by
  by_cases hk : n.id ∈ G.ids
  · obtain ⟨m, hm, hmn⟩ := List.mem_map.mp hk
    have hfound : p.matches ps g [] = [place n.id] :=
      h.matches_eq_singleton hG ⟨m, hm, hmn, (honly m hm).mpr hmn⟩ fun m' hm' => (honly m' hm').mp
    have hrun : Query.run ps [.merge p, .set name as] g = g.setProperties (place n.id) fields := by
      simp [Query.run, Clause.run, overRows, Clause.step, hfound, hname, has]
    obtain ⟨hnodes, hrelationships⟩ :=
      PropertyGraph.setProperties_perm hG hm (by rwa [hmn]) fields
    rw [hsame m hm hmn, hmn] at hnodes
    rw [hmn] at hrelationships
    refine ⟨place, fun _ _ _ => rfl, ?_⟩
    rw [hrun]
    exact (h.setProperties hk fields).perm hnodes (.of_eq hrelationships)
  · have hnone : p.matches ps g [] = [] := by
      have hnot : ∀ m ∈ G.nodes, ¬ m.fits p.labels (p.properties.values ps []) = true :=
        fun m hm hfit => hk ((honly m hm).mp hfit ▸ PropertyGraph.mem_ids hm)
      have := h.fitting p.labels (p.properties.values ps [])
      rw [List.filter_eq_nil_iff.mpr hnot] at this
      exact List.perm_nil.mp this
    have hrun : Query.run ps [.merge p, .set name as] g =
        g.addNode (n.rename fun _ => g.freshId) := by
      have hset : (g.addNode (p.make ps [] g.freshId)).setProperties g.freshId fields =
          g.addNode (n.rename fun _ => g.freshId) := by
        rw [PropertyGraph.setProperties, PropertyGraph.addNode, List.map_append,
          map_ite_id_of_notMem g.freshId_notMem]
        simp [NodePattern.make, PropertyGraph.addNode, Node.rename, hlabels, hproperties]
      simp [Query.run, Clause.run, overRows, Clause.step, hnone, hname, has, hset]
    rw [hrun, PropertyGraph.without_eq_self_of_notMem hk hapart]
    exact ⟨_, fun k _ hne => Function.update_of_ne hne _ _, h.addNode hG hk⟩

end Depicts

end CodeAtlas.Graph

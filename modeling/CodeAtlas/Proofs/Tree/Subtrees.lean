import CodeAtlas.Proofs.Tree.DocumentOrder

/-! # Subtrees in document order

What stands below a node is one block of the document order. Before the block come the nodes up to
the node itself, and after it those whose place is greater than every place below the node.
-/

namespace CodeAtlas.Node

variable {σ : Type} (down : Node → σ → ℕ → σ)

/-- The place `q` lies strictly below the place `p`. -/
def Below (p q : Place) : Prop := ∃ r, r ≠ [] ∧ q = p ++ r

/-- The strict descendants of the node `m` at the place `p`, with their places from the root. -/
def placedBelow (p : Place) (m : Node) : List (Place × Node) :=
  m.placed.map fun e => (p ++ e.1, e.2)

theorem placedBelow_nil (m : Node) : placedBelow [] m = m.placed := List.map_id _

theorem map_placedBelow (i : ℕ) (p : Place) (m : Node) :
    (placedBelow p m).map (fun e => (i :: e.1, e.2)) = placedBelow (i :: p) m := by
  rw [placedBelow, List.map_map]
  rfl

theorem isInfix_placed_of_child {n c : Node} {i : ℕ} (h : n.children[i]? = some c) :
    ([i], c) :: placedBelow [i] c <:+: n.placed := by
  rw [placed_eq_flatMap, List.flatMap_def]
  refine List.infix_of_mem_flatten (List.mem_map.mpr ⟨(c, i), ?_, rfl⟩)
  exact List.mk_mem_zipIdx_iff_getElem?.mpr h

/-- A node and what is below it stand together. -/
theorem isInfix_placed_of_at? {n m : Node} {p : Place} (hp : p ≠ []) (h : n.at? p = some m) :
    (p, m) :: placedBelow p m <:+: n.placed := by
  induction p generalizing n with
  | nil => exact absurd rfl hp
  | cons i p ih =>
    obtain ⟨c, hc, hm⟩ := Option.bind_eq_some_iff.mp h
    have hchild := isInfix_placed_of_child hc
    cases p with
    | nil =>
      obtain rfl : c = m := Option.some.inj hm
      exact hchild
    | cons j p =>
      have hbelow := (ih (by simp) hm).map fun e => (i :: e.1, e.2)
      rw [List.map_cons, map_placedBelow] at hbelow
      exact (hbelow.trans (List.suffix_cons _ _).isInfix).trans hchild

theorem placedBelow_isInfix {n m : Node} {p : Place} (h : n.at? p = some m) :
    placedBelow p m <:+: n.placed := by
  by_cases hp : p = []
  · subst hp
    obtain rfl : n = m := Option.some.inj h
    exact (placedBelow_nil n).symm ▸ List.infix_rfl
  · exact (List.suffix_cons _ _).isInfix.trans (isInfix_placed_of_at? hp h)

theorem handedDown_append {s : σ} {n m : Node} {p : Place} (h : n.at? p = some m) (q : Place) :
    handedDown down s n (p ++ q) = handedDown down (handedDown down s n p) m q := by
  induction p generalizing n s with
  | nil =>
    obtain rfl : n = m := Option.some.inj h
    rfl
  | cons i p ih =>
    obtain ⟨c, hc, hm⟩ := Option.bind_eq_some_iff.mp h
    rw [List.cons_append, handedDown_cons down hc, handedDown_cons down hc, ih hm]

/-- A visit meets the strict descendants of a node in one go, as a visit from the node would that
starts with what is handed down to it. -/
theorem visitedWith_isInfix {s : σ} {n m : Node} {p : Place} (h : n.at? p = some m) :
    m.visitedWith down (handedDown down s n p) <:+: n.visitedWith down s := by
  have hbelow := (placedBelow_isInfix h).map fun e => (handedDown down s n e.1, e.2)
  rw [visitedWith_eq_map_placed, visitedWith_eq_map_placed]
  rw [placedBelow, List.map_map] at hbelow
  simpa only [Function.comp_def, handedDown_append down h] using hbelow

theorem visited_isInfix {n m : Node} {p : Place} (h : n.at? p = some m) :
    m.visited <:+: n.visited := (visitedWith_isInfix _ h).map _

theorem below_of_mem_placedBelow {m : Node} {p : Place} {e : Place × Node}
    (h : e ∈ placedBelow p m) : Below p e.1 := by
  obtain ⟨d, hd, rfl⟩ := List.mem_map.mp h
  exact ⟨d.1, (mem_placed_iff.mp hd).1, rfl⟩

theorem mem_placedBelow_of_below {n m : Node} {p : Place} (h : n.at? p = some m)
    {e : Place × Node} (he : e ∈ n.placed) (hbelow : Below p e.1) : e ∈ placedBelow p m := by
  obtain ⟨q, d⟩ := e
  obtain ⟨r, hr, rfl⟩ := hbelow
  have hd := (mem_placed_iff.mp he).2
  rw [at?_append, h] at hd
  exact List.mem_map.mpr ⟨(r, d), mem_placed_iff.mpr ⟨hr, hd⟩, rfl⟩

theorem lt_of_below {p q : Place} (h : Below p q) : p < q := by
  obtain ⟨r, hr, rfl⟩ := h
  obtain ⟨i, r, rfl⟩ := List.exists_cons_of_ne_nil hr
  induction p with
  | nil => simp
  | cons j p ih => simpa using ih

theorem exists_placed_eq_append {n m : Node} {p : Place} (h : n.at? p = some m) :
    ∃ before after, n.placed = before ++ placedBelow p m ++ after ∧
      (∀ e ∈ before, e.1 ≤ p) ∧ ∀ e ∈ after, p < e.1 ∧ ¬ Below p e.1 := by
  by_cases hp : p = []
  · subst hp
    obtain rfl : n = m := Option.some.inj h
    exact ⟨[], [], by simp [placedBelow_nil], by simp, by simp⟩
  obtain ⟨before, after, hsplit⟩ := isInfix_placed_of_at? hp h
  -- All three parts are told apart by the order in which the whole list stands.
  have hinc := placed_increasing n
  rw [← hsplit, List.append_assoc, List.pairwise_append] at hinc
  obtain ⟨-, hblock, hbefore⟩ := hinc
  rw [List.cons_append, List.pairwise_cons, List.pairwise_append] at hblock
  obtain ⟨hnode, -, -, hafter⟩ := hblock
  refine ⟨before ++ [(p, m)], after, by simp [← hsplit], ?_, ?_⟩
  · intro e he
    rcases List.mem_append.mp he with he | he
    · exact (hbefore e he (p, m) (by simp)).le
    · obtain rfl := List.mem_singleton.mp he
      exact le_rfl
  · intro e he
    constructor
    · exact hnode e (List.mem_append_right _ he)
    · intro hbelow
      have hmem : e ∈ placedBelow p m :=
        mem_placedBelow_of_below h (by simp [← hsplit, he]) hbelow
      exact lt_irrefl _ (hafter e hmem e he)

/-- The document order falls into three parts: the nodes up to a node, those below it, and those
that come later. -/
theorem exists_placed_parts {n m : Node} {p : Place} (h : n.at? p = some m) :
    ∃ before after, n.placed = before ++ placedBelow p m ++ after ∧ ∀ e ∈ n.placed,
      (e ∈ before ↔ e.1 ≤ p) ∧ (e ∈ placedBelow p m ↔ Below p e.1) ∧
        (e ∈ after ↔ p < e.1 ∧ ¬ Below p e.1) := by
  obtain ⟨before, after, hsplit, hbefore, hafter⟩ := exists_placed_eq_append h
  refine ⟨before, after, hsplit, ?_⟩
  intro e he
  have hcover : e ∈ before ∨ e ∈ placedBelow p m ∨ e ∈ after := by
    rw [hsplit] at he
    simpa [or_assoc] using he
  refine ⟨⟨hbefore e, ?_⟩, ⟨below_of_mem_placedBelow, mem_placedBelow_of_below h he⟩,
    ⟨hafter e, ?_⟩⟩
  · intro hle
    rcases hcover with hmem | hmem | hmem
    · exact hmem
    · exact absurd (lt_of_below (below_of_mem_placedBelow hmem)) (not_lt_of_ge hle)
    · exact absurd (hafter e hmem).1 (not_lt_of_ge hle)
  · rintro ⟨hlt, hnot⟩
    rcases hcover with hmem | hmem | hmem
    · exact absurd hlt (not_lt_of_ge (hbefore e hmem))
    · exact absurd (below_of_mem_placedBelow hmem) hnot
    · exact hmem

end CodeAtlas.Node

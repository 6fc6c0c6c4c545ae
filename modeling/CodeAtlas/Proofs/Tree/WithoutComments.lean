import CodeAtlas.Proofs.Tree.DocumentOrder
import CodeAtlas.Tree.Comments
import CodeAtlas.Tree.Kind

/-! # Comments and document order

Leaving out the comments of a tree leaves out their visits and nothing else. What is looked for
among the children of a node is found in both trees, unless it may be a comment; and what is handed
down to a node is the same if it does not depend on comments.
-/

namespace CodeAtlas.Node

namespace CommentsApart

variable {n m c : Node}

theorem of_mem_descendants (h : n.CommentsApart) (hm : m ∈ n.descendants) : m.CommentsApart where
  children_eq_nil c hc := h.children_eq_nil c (mem_descendants_trans hm hc)
  field_eq_none c hc := h.field_eq_none c (mem_descendants_trans hm hc)

theorem of_at? {p : Place} (h : n.CommentsApart) (hm : n.at? p = some m) : m.CommentsApart := by
  cases p with
  | nil => exact Option.some.inj hm ▸ h
  | cons i p => exact h.of_mem_descendants (mem_descendants_iff.mpr ⟨i :: p, by simp, hm⟩)

theorem of_mem_children (h : n.CommentsApart) (hc : c ∈ n.children) : c.CommentsApart :=
  h.of_mem_descendants (mem_descendants_of_mem_children hc)

theorem of_child? {field : String} (h : n.CommentsApart) (hc : n.child? field = some c) :
    c.CommentsApart :=
  h.of_mem_children (List.mem_of_find?_eq_some hc)

theorem isComment_of_fills {field : String} (h : n.CommentsApart) (hc : c ∈ n.children)
    (hf : c.fills field = true) : c.isComment = false := by
  by_contra hcomment
  have := h.field_eq_none c (mem_descendants_of_mem_children hc) (by simpa using hcomment)
  simp [fills, this] at hf

end CommentsApart

section Lookup

variable {P : Node → Bool} {cs : List Node}

theorem filter_map_withoutComments (hP : ∀ c, P c.withoutComments = P c)
    (hc : ∀ c ∈ cs, P c = true → c.isComment = false) :
    ((cs.filter (!·.isComment)).map withoutComments).filter P =
      (cs.filter P).map withoutComments := by
  rw [List.filter_map, List.filter_filter]
  congr 1
  refine List.filter_congr fun c hm => ?_
  cases h : P c with
  | false => simp [hP, h]
  | true => simp [hP, h, hc c hm h]

theorem find?_map_withoutComments (hP : ∀ c, P c.withoutComments = P c)
    (hc : ∀ c ∈ cs, P c = true → c.isComment = false) :
    ((cs.filter (!·.isComment)).map withoutComments).find? P =
      (cs.find? P).map withoutComments := by
  rw [← List.head?_filter, filter_map_withoutComments hP hc, List.head?_map, List.head?_filter]

theorem any_map_withoutComments (hP : ∀ c, P c.withoutComments = P c)
    (hc : ∀ c ∈ cs, P c = true → c.isComment = false) :
    ((cs.filter (!·.isComment)).map withoutComments).any P = cs.any P := by
  rw [← List.isSome_find?, find?_map_withoutComments hP hc, Option.isSome_map, List.isSome_find?]

/-- The child after `before` is the first one with a property. -/
theorem findIdx?_eq_some_length_iff {before after : List Node} {c : Node} :
    (before ++ c :: after).findIdx? P = some before.length ↔
      (∀ b ∈ before, P b = false) ∧ P c = true := by
  induction before with
  | nil => cases h : P c <;> simp [List.findIdx?_cons, h]
  | cons b before ih =>
    rw [List.cons_append, List.findIdx?_cons, List.length_cons, List.forall_mem_cons]
    cases h : P b with
    | true => simp
    | false =>
      simp only [Bool.false_eq_true, if_false, true_and, ← ih, Option.map_eq_some_iff,
        Nat.add_right_cancel_iff, exists_eq_right]

end Lookup

variable {n : Node} {field kind : String}

theorem namedChildren_withoutComments (n : Node) :
    n.withoutComments.namedChildren =
      (n.namedChildren.filter (!·.isComment)).map withoutComments := by
  rw [namedChildren, children_withoutComments, List.filter_map, namedChildren, List.filter_filter,
    List.filter_filter]
  simp [Bool.and_comm]

theorem child?_withoutComments (h : n.CommentsApart) :
    n.withoutComments.child? field = (n.child? field).map withoutComments := by
  rw [child?, children_withoutComments, find?_map_withoutComments (by simp)
    fun c hc hf => h.isComment_of_fills hc hf, child?]

theorem childText_withoutComments (h : n.CommentsApart) :
    n.withoutComments.childText field = n.childText field := by
  simp [childText, child?_withoutComments h, Function.comp_def]

theorem childrenAt_withoutComments (h : n.CommentsApart) :
    n.withoutComments.childrenAt field = (n.childrenAt field).map withoutComments := by
  rw [childrenAt, children_withoutComments, filter_map_withoutComments (by simp)
    fun c hc hf => h.isComment_of_fills hc hf, childrenAt]

theorem childOfKind?_withoutComments (hk : kind ≠ "line_comment" ∧ kind ≠ "block_comment") :
    n.withoutComments.childOfKind? kind = (n.childOfKind? kind).map withoutComments := by
  rw [childOfKind?, children_withoutComments, find?_map_withoutComments (by simp) ?_, childOfKind?]
  intro c _ hc
  exact isComment_eq_false (by simpa using hc) hk

section Visit

variable {σ τ : Type} {down : Node → σ → ℕ → σ} {down' : Node → τ → ℕ → τ} {f : σ → τ}

/-- What `down'` hands down in the tree without comments is what `down` hands down to the same
child. -/
def HandsDownAlike (f : σ → τ) (down : Node → σ → ℕ → σ) (down' : Node → τ → ℕ → τ) : Prop :=
  ∀ (p : Node) (s : σ) (before after : List Node) (c : Node), p.CommentsApart →
    p.children = before ++ c :: after → c.isComment = false →
    down' p.withoutComments (f s) (before.filter (!·.isComment)).length = f (down p s before.length)

def visitWithoutComments (f : σ → τ) (es : List (σ × Node)) : List (τ × Node) :=
  (es.filter (!·.2.isComment)).map fun e => (f e.1, e.2.withoutComments)

mutual

theorem walk_withoutComments (hd : HandsDownAlike f down down') (s : σ) :
    (n : Node) → n.CommentsApart →
      n.withoutComments.walk down' (f s) = visitWithoutComments f (n.walk down s)
  | mk l cs, h => by
    have := walkForest_withoutComments hd s (mk l cs) h [] cs rfl
    simpa only [withoutComments, walk, List.filter_nil, List.length_nil] using this

theorem walkForest_withoutComments (hd : HandsDownAlike f down down') (s : σ) (p : Node)
    (h : p.CommentsApart) (before : List Node) :
    (cs : List Node) → p.children = before ++ cs →
      walkForest down' p.withoutComments (f s) (before.filter (!·.isComment)).length
          (forestWithoutComments cs) =
        visitWithoutComments f (walkForest down p s before.length cs)
  | [], _ => by simp [forestWithoutComments, walkForest, visitWithoutComments]
  | c :: cs, hcs => by
    have hm : c ∈ p.children := by simp [hcs]
    have rest := walkForest_withoutComments hd s p h (before ++ [c]) cs (by simpa using hcs)
    have below := walk_withoutComments hd (down p s before.length) c (h.of_mem_children hm)
    simp only [List.length_append, List.length_singleton, List.filter_append] at rest
    cases hc : c.isComment with
    | true =>
      -- a comment is visited alone, since nothing is below it
      have hnil : c.children = [] :=
        h.children_eq_nil c (mem_descendants_of_mem_children hm) hc
      have hwalk : c.walk down (down p s before.length) = [] := by
        rw [walk_eq_flatMap]
        simp [offspring, hnil]
      simp only [forestWithoutComments, hc, if_true, walkForest, hwalk, List.nil_append]
      simpa [hc, visitWithoutComments] using rest
    | false =>
      have here := hd p s before cs c h hcs hc
      simp only [forestWithoutComments, hc, Bool.false_eq_true, if_false, walkForest, here, below]
      simp only [List.filter_cons, hc, Bool.not_false, if_true, List.filter_nil,
        List.length_singleton] at rest
      rw [rest]
      simp [visitWithoutComments, hc]

end

/-- A visit of the tree without comments meets the same nodes but for the comments, each with what
is handed down to it. -/
theorem visitedWith_withoutComments (hd : HandsDownAlike f down down') (h : n.CommentsApart)
    (s : σ) :
    n.withoutComments.visitedWith down' (f s) = visitWithoutComments f (n.visitedWith down s) := by
  rw [visitedWith_eq_walk, visitedWith_eq_walk, walk_withoutComments hd s n h]

end Visit

theorem visited_withoutComments (h : n.CommentsApart) :
    n.withoutComments.visited = (n.visited.filter (!·.isComment)).map withoutComments := by
  have hd : HandsDownAlike id (fun _ _ _ => ()) (fun _ _ _ => ()) := fun _ _ _ _ _ _ _ _ => rfl
  have := visitedWith_withoutComments hd h ()
  rw [visited, this, visited, visitWithoutComments, List.map_map, List.filter_map, List.map_map]
  rfl

end CodeAtlas.Node

import CodeAtlas.Tree.Node

/-! # Traversal

The strict descendants of a node are visited with a stack of the nodes that are still to come. Each
node comes with a value that is handed down to it: `down` takes its parent, the value of the parent
and the place of the node among its siblings.
-/

namespace CodeAtlas.Node

/-- The children of a node, each with the value that is handed down to it. -/
def offspring {σ : Type} (down : Node → σ → Nat → σ) (s : σ) (n : Node) : List (σ × Node) :=
  n.children.zipIdx.map fun (c, i) => (down n s i, c)

@[simp] theorem map_snd_offspring {σ : Type} (down : Node → σ → Nat → σ) (s : σ) (n : Node) :
    (offspring down s n).map (·.2) = n.children := by
  simp only [offspring, List.map_map, Function.comp_def, List.zipIdx_map_fst]

theorem sizeOf_append (ns ms : List Node) :
    sizeOf (ns ++ ms) + 1 = sizeOf ns + sizeOf ms := by
  induction ns with
  | nil => simp [Nat.add_comm]
  | cons n ns ih =>
    simp only [List.cons_append, List.cons.sizeOf_spec]
    omega

theorem sizeOf_children_lt (n : Node) : sizeOf n.children < sizeOf n := by
  cases n with
  | mk l cs =>
    simp only [children, mk.sizeOf_spec]
    omega

/-- Visits what is on a stack: the top is taken off and its children are put in its place, until
nothing is left. -/
def visit {σ : Type} (down : Node → σ → Nat → σ) (seen : Array (σ × Node)) :
    List (σ × Node) → Array (σ × Node)
  | [] => seen
  | (s, n) :: stack => visit down (seen.push (s, n)) (offspring down s n ++ stack)
termination_by stack => sizeOf (stack.map (·.2))
decreasing_by
  simp only [List.map_append, List.map_cons, List.cons.sizeOf_spec, map_snd_offspring]
  have := sizeOf_append n.children (stack.map (·.2))
  have := sizeOf_children_lt n
  omega

/-- The strict descendants of a node as they are visited, each with what is handed down to it. -/
def visitedWith {σ : Type} (down : Node → σ → Nat → σ) (s : σ) (n : Node) : List (σ × Node) :=
  (visit down #[] (offspring down s n)).toList

def visited (n : Node) : List Node := (n.visitedWith (fun _ _ _ => ()) ()).map (·.2)

end CodeAtlas.Node

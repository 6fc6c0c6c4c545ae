import CodeAtlas.Tree.Kind
import CodeAtlas.Tree.Traversal

/-! # Faulty nodes

Nodes that stand for a syntax error: those of the kind `ERROR` and those that the source lacks.
Both searches descend only where the flag of a node says that something below it is faulty. They
end since each turn of theirs leaves a smaller stack, or a smaller tree.
-/

namespace CodeAtlas.Node

def isFaulty (n : Node) : Bool := n.kind == Kind.faulty || n.label.missing

theorem sizeOf_reverse (ns : List Node) : sizeOf ns.reverse = sizeOf ns := by
  induction ns with
  | nil => rfl
  | cons n ns ih =>
    have := sizeOf_append ns.reverse [n]
    simp only [List.reverse_cons, List.cons.sizeOf_spec, List.nil.sizeOf_spec] at this ⊢
    omega

/-- Counts the faulty nodes with a stack of the nodes that are still to be looked at. The top is
taken off; if the flag of that node is set, its children are put on the stack, the last one on
top. -/
def countFaults (count : Nat) : List Node → Nat
  | [] => count
  | n :: stack =>
    countFaults (if n.isFaulty then count + 1 else count)
      (if n.label.hasError then n.children.reverse ++ stack else stack)
termination_by stack => sizeOf stack
decreasing_by
  have := sizeOf_append n.children.reverse stack
  have := sizeOf_children_lt n
  rw [sizeOf_reverse] at *
  rw [List.cons.sizeOf_spec]
  split <;> omega

def faultCount (root : Node) : Nat := countFaults 0 [root]

def faultyChild? (n : Node) : Option Node :=
  n.children.find? fun c => c.label.hasError || c.label.missing

theorem sizeOf_lt_of_faultyChild? {n c : Node} (h : n.faultyChild? = some c) :
    sizeOf c < sizeOf n := by
  have := List.sizeOf_lt_of_mem (List.mem_of_find?_eq_some h)
  have := sizeOf_children_lt n
  omega

/-- Line and column of the first faulty node on the way down from a node: the way goes on to the
first child that is missing or has something faulty below it, and ends where there is none. -/
def faultPlace (n : Node) : Nat × Nat :=
  if n.isFaulty then (n.line, n.column)
  else
    match _h : n.faultyChild? with
    | some c => faultPlace c
    | none => (n.line, n.column)
termination_by sizeOf n
decreasing_by exact sizeOf_lt_of_faultyChild? _h

/-- Line and column of the first faulty node, if the flag of the root says that there is one. -/
def firstFault? (root : Node) : Option (Nat × Nat) :=
  if root.label.hasError then some root.faultPlace else none

end CodeAtlas.Node

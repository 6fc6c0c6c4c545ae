import CodeAtlas.Extract.Process
import CodeAtlas.Proofs.Tree.DocumentOrder

/-! # Accepting a tree

Where the flag of every node says whether the node or something below it is faulty, the two searches
that follow the flags find what a search of the whole tree finds: the number of the faulty nodes,
and the first one in document order. So a tree is refused exactly if there is a faulty node in it.
-/

namespace CodeAtlas

namespace Node

/-- The faulty nodes of a tree in document order. -/
def faults (root : Node) : List Node := (root :: root.descendants).filter isFaulty

/-- The flag of every node is set exactly if the node is faulty or the flag of a child is set. -/
def FlagsAgree (root : Node) : Prop :=
  ∀ n ∈ root :: root.descendants, n.label.hasError = true ↔
    n.isFaulty = true ∨ ∃ c ∈ n.children, c.label.hasError = true

theorem forest_eq_flatMap (cs : List Node) :
    forest cs = cs.flatMap fun c => c :: c.descendants := by
  induction cs with
  | nil => simp [forest]
  | cons c cs ih => simp [forest, ih]

theorem faults_eq (n : Node) :
    n.faults = (if n.isFaulty then [n] else []) ++ n.children.flatMap faults := by
  obtain ⟨l, cs⟩ := n
  have hbelow : (mk l cs).descendants.filter isFaulty = cs.flatMap faults := by
    rw [descendants, forest_eq_flatMap, List.filter_flatMap]
    rfl
  rw [faults, List.filter_cons, hbelow]
  split <;> rfl

namespace FlagsAgree

variable {n c : Node} (h : n.FlagsAgree)

include h

theorem of_mem_children (hc : c ∈ n.children) : c.FlagsAgree := by
  have hbelow := mem_descendants_of_mem_children hc
  intro m hm
  rcases List.mem_cons.mp hm with rfl | hm
  · exact h m (List.mem_cons_of_mem _ hbelow)
  · exact h m (List.mem_cons_of_mem _ (mem_descendants_trans hbelow hm))

theorem hasError_iff : n.label.hasError = true ↔
    n.isFaulty = true ∨ ∃ c ∈ n.children, c.label.hasError = true :=
  h n List.mem_cons_self

omit h in
/-- The flag of a node says whether there is a faulty node in its tree. -/
theorem faults_eq_nil_iff : {n : Node} → n.FlagsAgree → (n.faults = [] ↔ n.label.hasError = false)
  | mk l cs, h => by
    have hchildren : ∀ c ∈ cs, c.faults = [] ↔ c.label.hasError = false := by
      intro c hc
      exact (h.of_mem_children hc).faults_eq_nil_iff
    rw [faults_eq, ← Bool.not_eq_true, h.hasError_iff, List.append_eq_nil_iff,
      List.flatMap_eq_nil_iff, not_or, children]
    apply and_congr
    · simp
    · constructor
      · rintro hnone ⟨c, hc, hflag⟩
        rw [(hchildren c hc).mp (hnone c hc)] at hflag
        exact Bool.false_ne_true hflag
      · intro hnone c hc
        rw [hchildren c hc, ← Bool.not_eq_true]
        exact fun hflag => hnone ⟨c, hc, hflag⟩
termination_by n => sizeOf n
decreasing_by
  have := List.sizeOf_lt_of_mem hc
  rw [mk.sizeOf_spec]
  omega

end FlagsAgree

/-- Nothing is lost where the children of a node are not put on the stack. -/
theorem FlagsAgree.length_faults_below {n : Node} (h : n.FlagsAgree) (stack : List Node) :
    ((if n.label.hasError then n.children.reverse ++ stack else stack).flatMap faults).length =
      (n.children.flatMap faults).length + (stack.flatMap faults).length := by
  cases hflag : n.label.hasError with
  | true =>
    have hreverse : (n.children.reverse.flatMap faults).length =
        (n.children.flatMap faults).length :=
      ((List.reverse_perm _).flatMap_right _).length_eq
    rw [if_pos rfl, List.flatMap_append, List.length_append, hreverse]
  | false =>
    have hnone := h.faults_eq_nil_iff.mpr hflag
    rw [faults_eq, List.append_eq_nil_iff] at hnone
    rw [if_neg Bool.false_ne_true, hnone.2, List.length_nil, Nat.zero_add]

theorem countFaults_eq (count : ℕ) (stack : List Node) (h : ∀ n ∈ stack, n.FlagsAgree) :
    countFaults count stack = count + (stack.flatMap faults).length := by
  fun_induction countFaults count stack with
  | case1 count => simp
  | case2 count n stack ih =>
    obtain ⟨hn, hstack⟩ := List.forall_mem_cons.mp h
    have hbelow : ∀ m ∈ if n.label.hasError then n.children.reverse ++ stack else stack,
        m.FlagsAgree := by
      intro m hm
      split at hm
      · rcases List.mem_append.mp hm with hm | hm
        · exact hn.of_mem_children (List.mem_reverse.mp hm)
        · exact hstack m hm
      · exact hstack m hm
    simp only [dite_eq_ite] at ih
    -- What is not put on the stack has no faults, as the flags agree.
    rw [ih hbelow, hn.length_faults_below, List.flatMap_cons, List.length_append, faults_eq,
      List.length_append]
    split
    · rw [List.length_singleton]
      omega
    · rw [List.length_nil]
      omega

theorem FlagsAgree.faultCount_eq {root : Node} (h : root.FlagsAgree) :
    root.faultCount = root.faults.length := by
  rw [faultCount, countFaults_eq 0 [root] (by simpa using h)]
  simp

section First

variable {n c : Node} (h : n.FlagsAgree) (hf : n.isFaulty = false)

include h hf

/-- The way goes on to the child with the first fault, and no fault stands before it. -/
theorem FlagsAgree.head?_faults_of_faultyChild? (hc : n.faultyChild? = some c) :
    n.faults.head? = c.faults.head? ∧ c.label.hasError = true := by
  obtain ⟨hflag, before, after, hsplit, hbefore⟩ := List.find?_eq_some_iff_append.mp hc
  have hagree : ∀ b ∈ n.children, b.FlagsAgree := fun b hb => h.of_mem_children hb
  rw [hsplit, List.forall_mem_append, List.forall_mem_cons] at hagree
  obtain ⟨hagreeBefore, hagreeChild, -⟩ := hagree
  have hchild : c.label.hasError = true := by
    rcases (Bool.or_eq_true _ _).mp hflag with hset | hmissing
    · exact hset
    · exact hagreeChild.hasError_iff.mpr (Or.inl (by simp [isFaulty, hmissing]))
  have hnone : before.flatMap faults = [] := by
    rw [List.flatMap_eq_nil_iff]
    intro b hb
    rw [(hagreeBefore b hb).faults_eq_nil_iff]
    exact (Bool.or_eq_false_iff.mp (by simpa using hbefore b hb)).1
  have hsome : c.faults ≠ [] := by
    rw [Ne, hagreeChild.faults_eq_nil_iff, hchild]
    exact Bool.noConfusion
  refine ⟨?_, hchild⟩
  rw [faults_eq, hf, hsplit, List.flatMap_append, hnone, List.flatMap_cons]
  exact List.head?_append_of_ne_nil _ hsome

theorem FlagsAgree.exists_faultyChild? (hflag : n.label.hasError = true) :
    ∃ c, n.faultyChild? = some c := by
  obtain ⟨c, hc, hset⟩ := (h.hasError_iff.mp hflag).resolve_left (by simp [hf])
  exact Option.isSome_iff_exists.mp (List.find?_isSome.mpr ⟨c, hc, by simp [hset]⟩)

end First

/-- The way down that never turns back ends at the first faulty node. -/
theorem FlagsAgree.head?_faults {n : Node} (h : n.FlagsAgree) (hflag : n.label.hasError = true) :
    n.faults.head?.map (fun m => (m.line, m.column)) = some n.faultPlace := by
  fun_induction faultPlace n with
  | case1 n hf => rw [faults_eq, if_pos hf, List.singleton_append, List.head?_cons, Option.map_some]
  | case2 n hf c hc ih =>
    obtain ⟨hhead, hset⟩ := h.head?_faults_of_faultyChild? (Bool.not_eq_true _ ▸ hf) hc
    rw [hhead]
    exact ih (h.of_mem_children (List.mem_of_find?_eq_some hc)) hset
  | case3 n hf hc =>
    obtain ⟨c, hsome⟩ := h.exists_faultyChild? (Bool.not_eq_true _ ▸ hf) hflag
    rw [hc] at hsome
    exact absurd hsome nofun

theorem FlagsAgree.firstFault?_eq {root : Node} (h : root.FlagsAgree) :
    root.firstFault? = root.faults.head?.map fun n => (n.line, n.column) := by
  unfold firstFault?
  split
  · rename_i hflag
    exact (h.head?_faults hflag).symm
  · rename_i hflag
    rw [h.faults_eq_nil_iff.mpr (Bool.not_eq_true _ ▸ hflag)]
    rfl

theorem faults_eq_nil_iff_forall {root : Node} :
    root.faults = [] ↔ ∀ n ∈ root :: root.descendants, n.isFaulty = false := by
  simp only [faults, List.filter_eq_nil_iff, Bool.not_eq_true]

end Node

namespace Extract

section Accepted

variable {root : Node} (h : root.FlagsAgree)

include h

theorem accept_of_faults_eq_nil (hnone : root.faults = []) (tolerant : Bool) :
    accept tolerant root = .ok ⟨some root, 0⟩ := by
  rw [accept, h.faults_eq_nil_iff.mp hnone]
  rfl

theorem accept_tolerant : accept true root = .ok ⟨some root, root.faults.length⟩ := by
  by_cases hnone : root.faults = []
  · rw [accept_of_faults_eq_nil h hnone, hnone, List.length_nil]
  · rw [h.faults_eq_nil_iff, Bool.not_eq_false] at hnone
    rw [accept, hnone, h.faultCount_eq]
    rfl

theorem accept_of_head?_faults {n : Node} (hn : root.faults.head? = some n) :
    accept false root = .error
      ⟨s!"Syntax error at line {n.line}, column {n.column} ({root.faults.length} error nodes)",
        root.faults.length⟩ := by
  have hsome : root.label.hasError = true := by
    rw [← Bool.not_eq_false, ← h.faults_eq_nil_iff]
    intro hnone
    rw [hnone] at hn
    exact absurd hn nofun
  have hplace : root.firstFault? = some (n.line, n.column) := by
    rw [h.firstFault?_eq, hn, Option.map_some]
  rw [accept, hsome, faultMessage, hplace, h.faultCount_eq]
  rfl

theorem accept_eq_error_iff : (∃ e, accept false root = .error e) ↔ root.faults ≠ [] := by
  constructor
  · rintro ⟨e, he⟩ hnone
    rw [accept_of_faults_eq_nil h hnone] at he
    exact absurd he nofun
  · intro hsome
    exact ⟨_, accept_of_head?_faults h (List.head?_eq_some_head hsome)⟩

end Accepted

/-- A tree whose flags agree is judged by all the faulty nodes in it: the searches give their number
and the place of the first one. Without tolerance the tree is refused exactly if there is one, for
the reason that has this place and this number in it. With tolerance it is accepted with this
number; where there is none, tolerance makes no difference to the result of the file. -/
theorem accept_of_flagsAgree {root : Node} (h : root.FlagsAgree) :
    root.faultCount = root.faults.length ∧
      root.firstFault? = root.faults.head?.map (fun n => (n.line, n.column)) ∧
      (root.firstFault? = none ↔ root.faultCount = 0) ∧
      ((∃ e, accept false root = .error e) ↔
        ∃ n ∈ root :: root.descendants, n.isFaulty = true) ∧
      (∀ n, root.faults.head? = some n → accept false root = .error
        ⟨s!"Syntax error at line {n.line}, column {n.column} ({root.faults.length} error nodes)",
          root.faults.length⟩) ∧
      accept true root = .ok ⟨some root, root.faults.length⟩ ∧
      ((∀ n ∈ root :: root.descendants, n.isFaulty = false) →
        ∀ (phases : Phases) (path : String), ofParse phases path (accept true root) =
          ofParse phases path (accept false root)) := by
  refine ⟨h.faultCount_eq, h.firstFault?_eq, ?null, ?refused, fun n => accept_of_head?_faults h,
    accept_tolerant h, ?alike⟩
  case null =>
    rw [h.firstFault?_eq, h.faultCount_eq, Option.map_eq_none_iff, List.head?_eq_none_iff,
      List.length_eq_zero_iff]
  case refused =>
    rw [accept_eq_error_iff h, Ne, Node.faults_eq_nil_iff_forall]
    push Not
    simp only [Bool.not_eq_false]
  case alike =>
    intro hnone phases path
    have hfaults := Node.faults_eq_nil_iff_forall.mpr hnone
    rw [accept_of_faults_eq_nil h hfaults, accept_of_faults_eq_nil h hfaults]

def sampleNodeAt (kind : String) (row column : ℕ) (missing flag : Bool) (children : List Node) :
    Node :=
  .mk ⟨kind, true, none, "", row, column, missing, flag⟩ children

def sampleWhole : Node :=
  sampleNodeAt "class_declaration" 0 0 false false [sampleNodeAt "identifier" 0 6 false false []]

/-- Three faults, two of them in a class that is not the first one. -/
def sampleBroken : Node :=
  sampleNodeAt "program" 0 0 false true [
    sampleWhole,
    sampleNodeAt "class_declaration" 1 0 false true [
      sampleNodeAt "identifier" 1 6 false false [],
      sampleNodeAt "class_body" 2 4 false true [
        sampleNodeAt "ERROR" 2 8 false true [sampleNodeAt ";" 2 9 true true []]]],
    sampleNodeAt "ERROR" 4 0 false true []]

theorem sampleBroken_accept : sampleBroken.FlagsAgree ∧
    accept false sampleBroken =
      .error ⟨"Syntax error at line 3, column 9 (3 error nodes)", 3⟩ ∧
    accept true sampleBroken = .ok ⟨some sampleBroken, 3⟩ ∧
    sampleWhole.FlagsAgree ∧
    ∀ (phases : Phases) (path : String), ofParse phases path (accept true sampleWhole) =
      ofParse phases path (accept false sampleWhole) := by
  have hbroken : sampleBroken.FlagsAgree := by
    unfold Node.FlagsAgree
    decide
  have hwhole : sampleWhole.FlagsAgree := by
    unfold Node.FlagsAgree
    decide
  obtain ⟨-, -, -, -, hrefused, haccepted, -⟩ := accept_of_flagsAgree hbroken
  obtain ⟨-, -, -, -, -, -, halike⟩ := accept_of_flagsAgree hwhole
  exact ⟨hbroken, hrefused _ rfl, haccepted, hwhole, halike (by decide)⟩

end Extract

end CodeAtlas

import CodeAtlas.Proofs.Tree.Subtrees

/-! # The turns of a visit

A visit takes one turn for each strict descendant and then ends: each turn meets the next node of
the document order, and what is on the stack stands for the nodes that come later. A node is
followed at once by what a visit from it would meet.
-/

namespace CodeAtlas.Node

variable {σ : Type} (down : Node → σ → ℕ → σ)

/-- How far a visit has come: what was met, and what is still on the stack. -/
structure Tour (σ : Type) where
  seen : Array (σ × Node)
  stack : List (σ × Node)

namespace Tour

/-- A turn of a visit takes the top off the stack. There is none when the stack is empty. -/
def turn? : Tour σ → Option (Tour σ)
  | ⟨_, []⟩ => none
  | ⟨seen, (s, n) :: stack⟩ => some ⟨seen.push (s, n), offspring down s n ++ stack⟩

def turns? : ℕ → Tour σ → Option (Tour σ)
  | 0, t => some t
  | k + 1, t => (t.turn? down).bind (turns? k)

/-- The visit of what is below a node, before its first turn. -/
def start (s : σ) (n : Node) : Tour σ := ⟨#[], offspring down s n⟩

/-- What is still to be met: the nodes on the stack, each with what is below it. -/
def pending (t : Tour σ) : List (σ × Node) := t.stack.flatMap fun e => e :: e.2.walk down e.1

variable {down} {t t' : Tour σ}

theorem visit_eq (t : Tour σ) : visit down t.seen t.stack =
    match t.turn? down with
    | none => t.seen
    | some t' => visit down t'.seen t'.stack := by
  obtain ⟨seen, _ | ⟨⟨s, n⟩, stack⟩⟩ := t <;> rw [visit, turn?]

/-- What a visit comes to in the end is the same after any number of its turns. -/
theorem visit_of_turns? {k : ℕ} (h : t.turns? down k = some t') :
    visit down t'.seen t'.stack = visit down t.seen t.stack := by
  induction k generalizing t with
  | zero =>
    obtain rfl := Option.some.inj h
    rfl
  | succ k ih =>
    obtain ⟨next, hturn, hturns⟩ := Option.bind_eq_some_iff.mp h
    rw [ih hturns, visit_eq t, hturn]

theorem pending_start (s : σ) (n : Node) :
    (start down s n).pending down = n.visitedWith down s := by
  rw [visitedWith_eq_walk, walk_eq_flatMap]
  rfl

theorem pending_eq_nil_iff : t.pending down = [] ↔ t.stack = [] := by
  obtain ⟨seen, _ | ⟨e, stack⟩⟩ := t <;> simp [pending]

theorem turn?_eq_none_iff : t.turn? down = none ↔ t.stack = [] := by
  obtain ⟨seen, _ | ⟨e, stack⟩⟩ := t <;> simp [turn?]

/-- A turn meets the first of the nodes that are still to be met. -/
theorem of_turn? (h : t.turn? down = some t') : ∃ e,
    t'.seen.toList = t.seen.toList ++ [e] ∧ t.pending down = e :: t'.pending down := by
  obtain ⟨seen, _ | ⟨⟨s, n⟩, stack⟩⟩ := t
  · cases h
  · obtain rfl := Option.some.inj h
    refine ⟨(s, n), Array.toList_push, ?_⟩
    simp only [pending, List.flatMap_cons, List.flatMap_append, List.cons_append,
      ← walk_eq_flatMap]

theorem of_turns? {k : ℕ} (h : t.turns? down k = some t') :
    t'.seen.toList = t.seen.toList ++ (t.pending down).take k ∧
      t'.pending down = (t.pending down).drop k := by
  induction k generalizing t with
  | zero =>
    obtain rfl := Option.some.inj h
    simp
  | succ k ih =>
    obtain ⟨next, hturn, hturns⟩ := Option.bind_eq_some_iff.mp h
    obtain ⟨e, hseen, hpending⟩ := of_turn? hturn
    obtain ⟨hseen', hpending'⟩ := ih hturns
    simp [hseen', hseen, hpending', hpending]

theorem turns?_eq_none_iff {k : ℕ} : t.turns? down k = none ↔ (t.pending down).length < k := by
  induction k generalizing t with
  | zero => simp [turns?]
  | succ k ih =>
    rw [turns?]
    cases hturn : t.turn? down with
    | none => simp [pending_eq_nil_iff.mpr (turn?_eq_none_iff.mp hturn)]
    | some next =>
      obtain ⟨e, -, hpending⟩ := of_turn? hturn
      rw [Option.bind_some, ih, hpending, List.length_cons, Nat.add_lt_add_iff_right]

end Tour

theorem length_visitedWith (s : σ) (n : Node) :
    (n.visitedWith down s).length = n.descendants.length := by
  rw [visitedWith_eq_map_placed, ← map_snd_placed, List.length_map, List.length_map]

theorem map_snd_visitedWith (s : σ) (n : Node) :
    (n.visitedWith down s).map (·.2) = n.visited := by
  rw [visitedWith_eq_map_placed, visited_eq_map_placed, List.map_map]
  rfl

/-- The nodes that some turns have met are the first ones of the visit, and the stack is empty when
they are all. -/
theorem of_turns?_start {s : σ} {n : Node} {k : ℕ} {t : Tour σ}
    (h : (Tour.start down s n).turns? down k = some t) :
    t.seen.toList = (n.visitedWith down s).take k ∧
      (t.stack = [] ↔ n.descendants.length ≤ k) := by
  obtain ⟨hseen, hpending⟩ := Tour.of_turns? h
  rw [Tour.pending_start] at hseen hpending
  refine ⟨by simpa [Tour.start] using hseen, ?_⟩
  rw [← Tour.pending_eq_nil_iff, hpending, List.drop_eq_nil_iff, length_visitedWith]

/-- The nodes at the places with a property, in document order. -/
def ListsPlaces (n : Node) (P : Place → Prop) (ms : List Node) : Prop :=
  Enumerates (· < ·) (fun p => P p ∧ p ≠ [] ∧ (n.at? p).isSome) (fun p m => n.at? p = some m) ms

theorem listsPlaces_of_sublist {n : Node} {P : Place → Prop} {es : List (Place × Node)}
    (hes : es.Sublist n.placed) (hP : ∀ e ∈ n.placed, e ∈ es ↔ P e.1) :
    n.ListsPlaces P (es.map (·.2)) := by
  refine Enumerates.of_map (·.1) _ ((placed_increasing n).sublist hes) (fun p => ?_) ?_
  · constructor
    · rintro ⟨e, he, rfl⟩
      have hm := mem_placed_iff.mp (hes.subset he)
      exact ⟨(hP e (hes.subset he)).mp he, hm.1, Option.isSome_of_eq_some hm.2⟩
    · rintro ⟨hp, hne, hsome⟩
      obtain ⟨m, hm⟩ := Option.isSome_iff_exists.mp hsome
      exact ⟨(p, m), (hP _ (mem_placed_iff.mpr ⟨hne, hm⟩)).mpr hp, rfl⟩
  · exact fun e he => (mem_placed_iff.mp (hes.subset he)).2

theorem listsPlaces_visited (n : Node) : n.ListsPlaces (fun _ => True) n.visited := by
  rw [visited_eq_map_placed]
  exact listsPlaces_of_sublist (List.Sublist.refl _) fun e he => by simp [he]

/-- The nodes at smaller places come before a node, and those of a visit from it right after. -/
theorem exists_visited_eq_append {n m : Node} {p : Place} (hp : p ≠ []) (h : n.at? p = some m) :
    ∃ before after, n.visited = before ++ m :: (m.visited ++ after) ∧
      n.ListsPlaces (· < p) before := by
  obtain ⟨before, after, hsplit⟩ := isInfix_placed_of_at? hp h
  have hbelow : (placedBelow p m).map (·.2) = m.visited := by
    rw [visited_eq_map_placed, placedBelow, List.map_map]
    rfl
  refine ⟨before.map (·.2), after.map (·.2), ?_, ?_⟩
  · rw [visited_eq_map_placed, ← hsplit]
    simp [hbelow]
  · have hinc := placed_increasing n
    rw [← hsplit, List.append_assoc, List.pairwise_append, List.cons_append,
      List.pairwise_cons] at hinc
    obtain ⟨-, ⟨hafter, -⟩, hbefore⟩ := hinc
    refine listsPlaces_of_sublist (hsplit ▸ List.append_assoc .. ▸ List.sublist_append_left ..) ?_
    intro e he
    constructor
    · exact fun he => hbefore e he (p, m) (List.mem_cons_self ..)
    · intro hlt
      rw [← hsplit, List.append_assoc, List.mem_append, List.cons_append, List.mem_cons] at he
      rcases he with he | rfl | he
      · exact he
      · exact absurd hlt (lt_irrefl _)
      · exact absurd hlt (hafter e he).not_gt

/-- A visit with a stack ends after one turn for each strict descendant, and has met the first of
them after the first turns. It lists them all as the recursion does: the node at each place below
the root once, in the order of places, and right after it what a visit from that node meets. -/
theorem visit_in_document_order (s : σ) (n : Node) :
    (∀ k, match (Tour.start down s n).turns? down k with
      | some t => k ≤ n.descendants.length ∧ t.seen.toList.map (·.2) = n.visited.take k ∧
        (t.stack = [] ↔ k = n.descendants.length) ∧
        (visit down t.seen t.stack).toList = n.visitedWith down s
      | none => n.descendants.length < k) ∧
    n.visited = n.descendants ∧ n.ListsPlaces (fun _ => True) n.visited ∧
    ∀ p m, p ≠ [] → n.at? p = some m → ∃ before after,
      n.visited = before ++ m :: (m.visited ++ after) ∧ n.ListsPlaces (· < p) before := by
  refine ⟨fun k => ?_, visited_eq_descendants n, listsPlaces_visited n,
    fun p m hp h => exists_visited_eq_append hp h⟩
  have hnone : (Tour.start down s n).turns? down k = none ↔ n.descendants.length < k := by
    rw [Tour.turns?_eq_none_iff, Tour.pending_start, length_visitedWith]
  cases ht : (Tour.start down s n).turns? down k with
  | none => exact hnone.mp ht
  | some t =>
    obtain ⟨hseen, hstack⟩ := of_turns?_start down ht
    have hk : k ≤ n.descendants.length := by
      refine Nat.not_lt.mp fun hlt => ?_
      cases ht.symm.trans (hnone.mpr hlt)
    refine ⟨hk, ?_, hstack.trans ⟨fun h => le_antisymm hk h, fun h => h.ge⟩,
      congrArg Array.toList (Tour.visit_of_turns? ht)⟩
    rw [hseen, List.map_take, map_snd_visitedWith]

end CodeAtlas.Node

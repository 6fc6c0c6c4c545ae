import Mathlib.Data.List.Forall2
import Mathlib.Data.List.Lex
import Mathlib.Data.List.Pairwise
import CodeAtlas.Tree.Traversal

/-! # Document order

The place of a node is the way down to it from the root. A visit with a stack meets the strict
descendants of a node in the order of their places, each of them once and with what its ancestors
hand down to it.
-/

namespace CodeAtlas

/--
The items of a list correspond one to one, in increasing order, to the indices with a property.
-/
def Enumerates {ι β : Type} (lt : ι → ι → Prop) (P : ι → Prop) (R : ι → β → Prop)
    (xs : List β) : Prop :=
  ∃ is : List ι, is.Pairwise lt ∧ (∀ i, i ∈ is ↔ P i) ∧ List.Forall₂ R is xs

theorem Enumerates.of_map {ι β γ : Type} {lt : ι → ι → Prop} {P : ι → Prop} {R : ι → β → Prop}
    {es : List γ} (index : γ → ι) (item : γ → β)
    (hlt : es.Pairwise fun a b => lt (index a) (index b))
    (hP : ∀ i, (∃ e ∈ es, index e = i) ↔ P i) (hR : ∀ e ∈ es, R (index e) (item e)) :
    Enumerates lt P R (es.map item) := by
  refine ⟨es.map index, List.pairwise_map.mpr hlt, fun i => ?_, ?_⟩
  · rw [List.mem_map, hP]
  · rw [List.forall₂_map_left_iff, List.forall₂_map_right_iff, List.forall₂_same]
    exact hR

theorem Enumerates.of_filterMap {ι β γ : Type} {lt : ι → ι → Prop} {P : ι → Prop}
    {R : ι → β → Prop} {es : List γ} (index : γ → ι) (item? : γ → Option β)
    (hlt : es.Pairwise fun a b => lt (index a) (index b))
    (hP : ∀ i, (∃ e ∈ es, index e = i ∧ (item? e).isSome) ↔ P i)
    (hR : ∀ e ∈ es, ∀ b, item? e = some b → R (index e) b) :
    Enumerates lt P R (es.filterMap item?) := by
  refine ⟨(es.filter (item? · |>.isSome)).map index, List.pairwise_map.mpr (hlt.filter _),
    fun i => ?_, ?_⟩
  · rw [← hP]
    simp only [List.mem_map, List.mem_filter]
    exact exists_congr fun e => and_assoc.trans (and_congr_right' and_comm)
  · clear hlt hP
    induction es with
    | nil => exact .nil
    | cons e es ih =>
      have ih := ih fun e he => hR e (List.mem_cons_of_mem _ he)
      cases he : item? e with
      | none =>
        rw [List.filterMap_cons_none he, List.filter_cons_of_neg (by simp [he])]
        exact ih
      | some b =>
        rw [List.filterMap_cons_some he, List.filter_cons_of_pos (by simp [he])]
        exact .cons (hR e (List.mem_cons_self ..) b he) ih

namespace Node

variable {σ : Type} (down : Node → σ → ℕ → σ)

theorem walkForest_eq_flatMap (parent : Node) (s : σ) (place : ℕ) (cs : List Node) :
    walkForest down parent s place cs =
      (cs.zipIdx place).flatMap fun (c, i) =>
        (down parent s i, c) :: c.walk down (down parent s i) := by
  induction cs generalizing place with
  | nil => simp [walkForest]
  | cons c cs ih => simp [walkForest, ih]

theorem walk_eq_flatMap (s : σ) (n : Node) :
    n.walk down s = (offspring down s n).flatMap fun e => e :: e.2.walk down e.1 := by
  cases n with
  | mk l cs =>
    rw [walk, walkForest_eq_flatMap, offspring, List.flatMap_map]
    rfl

theorem toList_visit (seen : Array (σ × Node)) (stack : List (σ × Node)) :
    (visit down seen stack).toList =
      seen.toList ++ stack.flatMap fun e => e :: e.2.walk down e.1 := by
  fun_induction visit down seen stack with
  | case1 seen => simp
  | case2 seen s n stack ih =>
    rw [ih, Array.toList_push, List.flatMap_append, ← walk_eq_flatMap]
    simp

theorem visitedWith_eq_walk (s : σ) (n : Node) : n.visitedWith down s = n.walk down s := by
  rw [visitedWith, toList_visit, ← walk_eq_flatMap]
  simp

/-- The way down to a node, as the places of children among their siblings. -/
abbrev Place := List ℕ

def at? : Node → Place → Option Node
  | n, [] => some n
  | n, i :: p => n.children[i]?.bind (at? · p)

@[simp] theorem at?_nil (n : Node) : n.at? [] = some n := rfl

@[simp] theorem at?_cons (n : Node) (i : ℕ) (p : Place) :
    n.at? (i :: p) = n.children[i]?.bind (at? · p) := rfl

theorem at?_append (n : Node) (p q : Place) : n.at? (p ++ q) = (n.at? p).bind (at? · q) := by
  induction p generalizing n with
  | nil => simp
  | cons i p ih =>
    cases h : n.children[i]? with
    | none => simp [h]
    | some c => simp [h, ih]

mutual

/-- The strict descendants of a node with their places. -/
def placed : Node → List (Place × Node)
  | mk _ cs => placedForest 0 cs

/-- The nodes of the trees that start at a place among siblings. -/
def placedForest (place : ℕ) : List Node → List (Place × Node)
  | [] => []
  | c :: cs =>
    ([place], c) :: ((placed c).map fun e => (place :: e.1, e.2)) ++ placedForest (place + 1) cs

end

theorem placedForest_eq_flatMap (place : ℕ) (cs : List Node) :
    placedForest place cs = (cs.zipIdx place).flatMap fun (c, i) =>
      ([i], c) :: c.placed.map fun e => (i :: e.1, e.2) := by
  induction cs generalizing place with
  | nil => simp [placedForest]
  | cons c cs ih => simp [placedForest, ih]

theorem placed_eq_flatMap (n : Node) :
    n.placed = n.children.zipIdx.flatMap fun (c, i) =>
      ([i], c) :: c.placed.map fun e => (i :: e.1, e.2) := by
  cases n with
  | mk l cs => exact placedForest_eq_flatMap 0 cs

mutual

theorem map_snd_placed : (n : Node) → n.placed.map (·.2) = n.descendants
  | mk _ cs => map_snd_placedForest 0 cs

theorem map_snd_placedForest (place : ℕ) :
    (cs : List Node) → (placedForest place cs).map (·.2) = forest cs
  | [] => by simp [placedForest, forest]
  | c :: cs => by
    simp only [placedForest, forest, List.cons_append, List.map_cons, List.map_append,
      List.map_map, Function.comp_def]
    rw [map_snd_placed c, map_snd_placedForest (place + 1) cs]

end

/-- Every place below a node is listed, and nothing else. -/
theorem mem_placed_iff {n m : Node} {p : Place} :
    (p, m) ∈ n.placed ↔ p ≠ [] ∧ n.at? p = some m := by
  induction p generalizing n with
  | nil => simp [placed_eq_flatMap n]
  | cons i p ih =>
    rw [placed_eq_flatMap]
    simp only [List.mem_flatMap, Prod.exists, List.mk_mem_zipIdx_iff_getElem?, List.mem_cons,
      List.mem_map, Prod.mk.injEq, ne_eq, reduceCtorEq, not_false_eq_true, true_and, at?_cons,
      Option.bind_eq_some_iff, List.cons.injEq]
    constructor
    · rintro ⟨c, j, hc, ⟨⟨rfl, rfl⟩, rfl⟩ | ⟨q, m', hm, ⟨rfl, rfl⟩, rfl⟩⟩
      · exact ⟨m, hc, rfl⟩
      · exact ⟨c, hc, (ih.mp hm).2⟩
    · rintro ⟨c, hc, hm⟩
      refine ⟨c, i, hc, ?_⟩
      cases p with
      | nil => exact Or.inl ⟨⟨rfl, rfl⟩, (Option.some.inj hm).symm⟩
      | cons j p => exact Or.inr ⟨j :: p, m, ih.mpr ⟨by simp, hm⟩, ⟨rfl, rfl⟩, rfl⟩

theorem placedForest_below {place : ℕ} {cs : List Node} {e : Place × Node}
    (h : e ∈ placedForest place cs) : ∃ i q, place ≤ i ∧ e.1 = i :: q := by
  rw [placedForest_eq_flatMap] at h
  obtain ⟨⟨c, i⟩, hc, he⟩ := List.mem_flatMap.mp h
  have hi : place ≤ i := (List.mem_zipIdx hc).1
  rcases List.mem_cons.mp he with rfl | he
  · exact ⟨i, [], hi, rfl⟩
  · obtain ⟨d, _, rfl⟩ := List.mem_map.mp he
    exact ⟨i, d.1, hi, rfl⟩

mutual

/-- Document order is the lexicographic order of places. -/
theorem placed_increasing : (n : Node) → n.placed.Pairwise fun a b => a.1 < b.1
  | mk _ cs => placedForest_increasing 0 cs

theorem placedForest_increasing (place : ℕ) :
    (cs : List Node) → (placedForest place cs).Pairwise fun a b => a.1 < b.1
  | [] => by simp [placedForest]
  | c :: cs => by
    have hc : (([place], c) :: c.placed.map fun e => (place :: e.1, e.2)).Pairwise
        fun a b => a.1 < b.1 := by
      refine List.pairwise_cons.mpr ⟨fun b hb => ?_, ?_⟩
      · obtain ⟨e, he, rfl⟩ := List.mem_map.mp hb
        obtain ⟨j, q, hq⟩ := List.exists_cons_of_ne_nil (mem_placed_iff.mp he).1
        simp [hq]
      · exact List.pairwise_map.mpr ((placed_increasing c).imp fun h => by simpa using h)
    rw [placedForest, List.pairwise_append]
    refine ⟨hc, placedForest_increasing (place + 1) cs, fun a ha b hb => ?_⟩
    obtain ⟨q, hq⟩ : ∃ q, a.1 = place :: q := by
      rcases List.mem_cons.mp ha with rfl | ha
      · exact ⟨[], rfl⟩
      · obtain ⟨e, _, rfl⟩ := List.mem_map.mp ha
        exact ⟨e.1, rfl⟩
    obtain ⟨i, r, hi, hr⟩ := placedForest_below hb
    rw [hq, hr]
    exact List.cons_lt_cons_iff.mpr (Or.inl hi)

end

/-- What reaches a place when the root has the value `s`. -/
def handedDown : σ → Node → Place → σ
  | s, _, [] => s
  | s, n, i :: p =>
    match n.children[i]? with
    | some c => handedDown (down n s i) c p
    | none => s

@[simp] theorem handedDown_nil (s : σ) (n : Node) : handedDown down s n [] = s := rfl

theorem handedDown_cons {s : σ} {n c : Node} {i : ℕ} (h : n.children[i]? = some c) (p : Place) :
    handedDown down s n (i :: p) = handedDown down (down n s i) c p := by
  simp [handedDown, h]

theorem at?_dropLast {n m : Node} {p : Place} (s : Node) (hp : p ≠ []) (hm : n.at? p = some m) :
    n.at? p.dropLast = some (handedDown (fun parent _ _ => parent) s n p) := by
  induction p generalizing n s with
  | nil => exact absurd rfl hp
  | cons i p ih =>
    obtain ⟨c, hc, hm⟩ := Option.bind_eq_some_iff.mp hm
    rw [handedDown_cons _ hc]
    cases p with
    | nil => rfl
    | cons j p => simpa [hc] using ih n (by simp) hm

mutual

theorem walk_eq_map_placed (s : σ) :
    (n : Node) → n.walk down s = n.placed.map fun e => (handedDown down s n e.1, e.2)
  | mk l cs => by
    rw [walk, placed, walkForest_eq_map_placedForest s (mk l cs) 0 cs (by simp [children])]

theorem walkForest_eq_map_placedForest (s : σ) (parent : Node) (place : ℕ) :
    (cs : List Node) → (∀ i, parent.children[place + i]? = cs[i]?) →
      walkForest down parent s place cs =
        (placedForest place cs).map fun e => (handedDown down s parent e.1, e.2)
  | [], _ => by simp [walkForest, placedForest]
  | c :: cs, h => by
    have hc : parent.children[place]? = some c := by simpa using h 0
    have hcs : ∀ i, parent.children[place + 1 + i]? = cs[i]? := fun i => by
      simpa [Nat.add_assoc, Nat.add_comm 1 i] using h (i + 1)
    rw [walkForest, placedForest, walk_eq_map_placed (down parent s place) c,
      walkForest_eq_map_placedForest s parent (place + 1) cs hcs]
    simp [handedDown_cons down hc]

end

theorem visitedWith_eq_map_placed (s : σ) (n : Node) :
    n.visitedWith down s = n.placed.map fun e => (handedDown down s n e.1, e.2) := by
  rw [visitedWith_eq_walk, walk_eq_map_placed]

theorem visited_eq_map_placed (n : Node) : n.visited = n.placed.map (·.2) := by
  rw [visited, visitedWith_eq_map_placed, List.map_map]
  rfl

theorem visited_eq_descendants (n : Node) : n.visited = n.descendants := by
  rw [visited_eq_map_placed, map_snd_placed]

theorem mem_descendants_iff {n m : Node} : m ∈ n.descendants ↔ ∃ p ≠ [], n.at? p = some m := by
  rw [← map_snd_placed, List.mem_map]
  constructor
  · rintro ⟨⟨p, m⟩, h, rfl⟩
    exact ⟨p, mem_placed_iff.mp h⟩
  · rintro ⟨p, h⟩
    exact ⟨(p, m), mem_placed_iff.mpr h, rfl⟩

theorem mem_descendants_of_mem_children {n c : Node} (h : c ∈ n.children) : c ∈ n.descendants := by
  obtain ⟨i, hi⟩ := List.mem_iff_getElem?.mp h
  exact mem_descendants_iff.mpr ⟨[i], by simp, by simp [hi]⟩

theorem mem_descendants_trans {n m k : Node} (hm : m ∈ n.descendants) (hk : k ∈ m.descendants) :
    k ∈ n.descendants := by
  obtain ⟨p, hp, hm⟩ := mem_descendants_iff.mp hm
  obtain ⟨q, _, hk⟩ := mem_descendants_iff.mp hk
  exact mem_descendants_iff.mpr ⟨p ++ q, by simp [hp], by simp [at?_append, hm, hk]⟩

end Node

end CodeAtlas

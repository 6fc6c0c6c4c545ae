import CodeAtlas.Pipeline.Classifier
import CodeAtlas.Proofs.Tree.DocumentOrder

/-! # Classification finds every call

The stages of a tree are exactly the recognised calls below its root, in document order and once
for each tag of the name, numbered from zero.
-/

namespace CodeAtlas

def StageTag.rank : StageTag → ℕ
  | .source => 0
  | .transformation => 1
  | .sink => 2

theorem StageTag.mem_all (tag : StageTag) : tag ∈ StageTag.all := by
  cases tag <;> simp [StageTag.all]

theorem StageTag.all_increasing : StageTag.all.Pairwise fun s t => s.rank < t.rank := by
  simp [StageTag.all, StageTag.rank]

theorem StageTag.rank_injective : Function.Injective StageTag.rank := by
  intro s t h
  cases s <;> cases t <;> simp_all [StageTag.rank]

namespace Vocabulary

theorem mem_tagsFor_iff {v : Vocabulary} {operation : String} {tag : StageTag} :
    tag ∈ v.tagsFor operation ↔ operation ∈ v.namesFor tag := by
  simp [tagsFor, StageTag.mem_all]

theorem tagsFor_increasing (v : Vocabulary) (operation : String) :
    (v.tagsFor operation).Pairwise fun s t => s.rank < t.rank :=
  StageTag.all_increasing.filter _

end Vocabulary

namespace Classifier

open Node

def IsNamedCall (n : Node) : Prop := n.kind = Kind.methodInvocation ∧ n.childText "name" ≠ ""

/-- A tag of the name of a call below the root, the call given by its place. -/
def IsHit (v : Vocabulary) (root : Node) (hit : Place × StageTag) : Prop :=
  hit.1 ≠ [] ∧ ∃ n, root.at? hit.1 = some n ∧ IsNamedCall n ∧
    n.childText "name" ∈ v.namesFor hit.2

/-- Document order, and the order of tags at one call. -/
def Precedes (a b : Place × StageTag) : Prop := a.1 < b.1 ∨ (a.1 = b.1 ∧ a.2.rank < b.2.rank)

/-- The texts of the arguments of a call, which are the named children of its argument list apart
from comments. -/
def argumentTexts (n : Node) : List String :=
  ((n.child? "arguments").map fun list =>
    (list.children.filter fun a => a.label.named && a.kind ∉ Kind.comments).map Node.text).getD []

/-- A stage says of a hit what its call says; the binding is left open. -/
structure Describes (root : Node) (hit : Place × StageTag) (s : Stage String) : Prop where
  tag : s.tag = hit.2
  call : ∃ n, root.at? hit.1 = some n ∧ s.operation = n.childText "name" ∧
    s.arguments = argumentTexts n ∧ s.line = n.label.row + 1

theorem arguments_eq (n : Node) : arguments n = argumentTexts n := by
  unfold arguments argumentTexts
  cases n.child? "arguments" with
  | none => rfl
  | some list => simp [namedChildren, List.filter_filter, Bool.and_comm]

structure Hit where
  place : Place
  /-- The variable that the result of the call is stored in. -/
  stored : Option String
  call : Node
  tag : StageTag

def Hit.stage (h : Hit) (ordinal : ℕ) : Stage String :=
  ⟨h.tag, h.call.childText "name", arguments h.call, binding h.stored h.call h.tag, h.call.line,
    ordinal⟩

def hitsAt (v : Vocabulary) (place : Place) (stored : Option String) (n : Node) : List Hit :=
  if n.kind == Kind.methodInvocation && n.childText "name" != "" then
    (v.tagsFor (n.childText "name")).map (⟨place, stored, n, ·⟩)
  else []

def hits (v : Vocabulary) (root : Node) : List Hit :=
  root.placed.flatMap fun e => hitsAt v e.1 (handedDown storedIn none root e.1) e.2

theorem toList_foldl_push {α β : Type} (f : α → ℕ → β) (xs : List α) (out : Array β) :
    (xs.foldl (fun out x => out.push (f x out.size)) out).toList =
      out.toList ++ (xs.zipIdx out.size).map fun (x, i) => f x i := by
  induction xs generalizing out with
  | nil => simp
  | cons x xs ih => simp [ih]

theorem toList_addStages (v : Vocabulary) (found : Array (Stage String)) (place : Place)
    (stored : Option String) (n : Node) :
    (addStages v found stored n).toList =
      found.toList ++
        ((hitsAt v place stored n).zipIdx found.size).map fun (h, i) => h.stage i := by
  unfold addStages hitsAt
  dsimp only
  split
  · rw [toList_foldl_push fun tag i => (⟨tag, n.childText "name", arguments n,
      binding stored n tag, n.line, i⟩ : Stage String), List.zipIdx_map, List.map_map]
    rfl
  · simp

theorem size_addStages (v : Vocabulary) (found : Array (Stage String)) (place : Place)
    (stored : Option String) (n : Node) :
    (addStages v found stored n).size = found.size + (hitsAt v place stored n).length := by
  rw [← Array.length_toList, toList_addStages v found place]
  simp

theorem toList_foldl_addStages (v : Vocabulary) (stored : Place → Option String)
    (es : List (Place × Node)) (found : Array (Stage String)) :
    ((es.map fun e => (stored e.1, e.2)).foldl
        (fun found (stored, n) => addStages v found stored n) found).toList =
      found.toList ++ ((es.flatMap fun e => hitsAt v e.1 (stored e.1) e.2).zipIdx found.size).map
        fun (h, i) => h.stage i := by
  induction es generalizing found with
  | nil => simp
  | cons e es ih =>
    rw [List.map_cons, List.foldl_cons, ih, toList_addStages v found e.1,
      size_addStages v found e.1, List.flatMap_cons, List.zipIdx_append, List.map_append,
      List.append_assoc]

theorem stages_eq_hits (v : Vocabulary) (root : Node) :
    stages v root = (hits v root).zipIdx.map fun (h, i) => h.stage i := by
  unfold stages
  dsimp only
  rw [visitedWith_eq_map_placed, toList_foldl_addStages]
  rfl

theorem mem_hitsAt_iff {v : Vocabulary} {place : Place} {stored : Option String} {n : Node}
    {h : Hit} :
    h ∈ hitsAt v place stored n ↔
      IsNamedCall n ∧ n.childText "name" ∈ v.namesFor h.tag ∧ h = ⟨place, stored, n, h.tag⟩ := by
  unfold hitsAt IsNamedCall
  split
  · next hc =>
    simp only [Bool.and_eq_true, beq_iff_eq, bne_iff_ne] at hc
    rw [List.mem_map]
    constructor
    · rintro ⟨tag, ht, rfl⟩
      exact ⟨hc, Vocabulary.mem_tagsFor_iff.mp ht, rfl⟩
    · rintro ⟨_, hv, he⟩
      exact ⟨h.tag, Vocabulary.mem_tagsFor_iff.mpr hv, he.symm⟩
  · next hc =>
    simp only [Bool.and_eq_true, beq_iff_eq, bne_iff_ne] at hc
    simp [hc]

theorem exists_hit_iff {v : Vocabulary} {root : Node} (hit : Place × StageTag) :
    (∃ h ∈ hits v root, (h.place, h.tag) = hit) ↔ IsHit v root hit := by
  obtain ⟨p, tag⟩ := hit
  simp only [hits, List.mem_flatMap, Prod.exists]
  constructor
  · rintro ⟨h, ⟨q, n, hn, hh⟩, he⟩
    obtain ⟨hc, hv, hq⟩ := mem_hitsAt_iff.mp hh
    obtain ⟨rfl, rfl⟩ := Prod.mk.inj he
    obtain ⟨hne, hat⟩ := mem_placed_iff.mp hn
    rw [hq]
    exact ⟨hne, n, hat, hc, hv⟩
  · rintro ⟨hne, n, hat, hc, hv⟩
    exact ⟨⟨p, handedDown storedIn none root p, n, tag⟩,
      ⟨p, n, mem_placed_iff.mpr ⟨hne, hat⟩, mem_hitsAt_iff.mpr ⟨hc, hv, rfl⟩⟩, rfl⟩

theorem hitsAt_increasing (v : Vocabulary) (place : Place) (stored : Option String) (n : Node) :
    (hitsAt v place stored n).Pairwise fun a b => Precedes (a.place, a.tag) (b.place, b.tag) := by
  unfold hitsAt
  split
  · exact List.pairwise_map.mpr
      ((v.tagsFor_increasing _).imp fun h => Or.inr ⟨rfl, h⟩)
  · exact .nil

theorem hits_increasing (v : Vocabulary) (root : Node) :
    (hits v root).Pairwise fun a b => Precedes (a.place, a.tag) (b.place, b.tag) := by
  refine List.pairwise_flatMap.mpr ⟨fun e _ => hitsAt_increasing v _ _ _, ?_⟩
  refine (placed_increasing root).imp fun h a ha b hb => Or.inl ?_
  rw [(mem_hitsAt_iff.mp ha).2.2, (mem_hitsAt_iff.mp hb).2.2]
  exact h

theorem describes_of_mem_hits {v : Vocabulary} {root : Node} {h : Hit} (hh : h ∈ hits v root)
    (i : ℕ) : Describes root (h.place, h.tag) (h.stage i) := by
  obtain ⟨⟨q, n⟩, hn, hm⟩ := List.mem_flatMap.mp hh
  obtain ⟨_, _, he⟩ := mem_hitsAt_iff.mp hm
  refine ⟨rfl, n, ?_⟩
  rw [he]
  exact ⟨(mem_placed_iff.mp hn).2, rfl, arguments_eq n, rfl⟩

theorem ordinal_stages (v : Vocabulary) (root : Node) :
    (stages v root).map (·.ordinal) =
      (List.range (stages v root).length).map fun i : ℕ => (i : ℤ) := by
  rw [stages_eq_hits, List.map_map, List.length_map, List.length_zipIdx, List.range_eq_range',
    ← List.zipIdx_map_snd, List.map_map]
  rfl

/-- Every tag of a recognised call gives exactly one stage, in document order, and nothing else
does; the ordinals count the stages from zero. -/
theorem stages_enumerate_hits (v : Vocabulary) (root : Node) :
    Enumerates Precedes (IsHit v root) (Describes root) (stages v root) ∧
      (stages v root).map (·.ordinal) =
        (List.range (stages v root).length).map fun i : ℕ => (i : ℤ) := by
  refine ⟨?_, ordinal_stages v root⟩
  rw [stages_eq_hits]
  refine Enumerates.of_map (fun e => (e.1.place, e.1.tag)) _ ?_ (fun hit => ?_) ?_
  · have h := hits_increasing v root
    rw [← List.zipIdx_map_fst 0 (hits v root), List.pairwise_map] at h
    exact h
  · rw [← exists_hit_iff]
    constructor
    · rintro ⟨⟨h, i⟩, hm, he⟩
      exact ⟨h, List.fst_mem_of_mem_zipIdx hm, he⟩
    · rintro ⟨h, hm, he⟩
      rw [← List.zipIdx_map_fst 0 (hits v root)] at hm
      obtain ⟨e, hi, rfl⟩ := List.mem_map.mp hm
      exact ⟨e, hi, he⟩
  · rintro ⟨h, i⟩ hm
    exact describes_of_mem_hits (List.fst_mem_of_mem_zipIdx hm) i

end Classifier

end CodeAtlas

import Mathlib.Data.List.Induction
import CodeAtlas.Proofs.Pipeline.CallSites

/-! # What a stage is bound to

The classifier hands down, from the root, the variable that the value of each node is stored in.
Seen from a call this is what one finds by going up: out of the parentheses around the call, to the
declaration or the assignment that takes its value. A source is bound to that variable, and a call
of which there is none, or with another tag, to the variable that it is made on.
-/

namespace CodeAtlas

namespace Classifier

open Node

section Up

variable (root : Node)

def FillsAt (m : Node) (field : String) (p : Place) : Prop :=
  ∃ q i, p = q ++ [i] ∧ root.at? q = some m ∧ m.children.findIdx? (fills field) = some i

/-- The node around the place stands for parentheses. -/
def InParentheses (p : Place) : Prop :=
  ∃ q i m, p = q ++ [i] ∧ root.at? q = some m ∧ m.kind = Kind.parenthesized

/-- Going up from a place through all parentheses around it, one after the other. -/
inductive Leaves : Place → Place → Prop
  | outside {p : Place} (h : ¬ InParentheses root p) : Leaves p p
  | inside {q w : Place} {i : ℕ} {m : Node} (hm : root.at? q = some m)
      (hk : m.kind = Kind.parenthesized) (h : Leaves q w) : Leaves (q ++ [i]) w

/-- A call or a field access is made on the node at the place. -/
def IsReceiver (p : Place) : Prop :=
  ∃ m, FillsAt root m "object" p ∧
    (m.kind = Kind.methodInvocation ∨ m.kind = Kind.fieldAccess)

/-- The node at the place is the initial value of a variable with a name. -/
def Initialises (p : Place) (v : String) : Prop :=
  ∃ m, FillsAt root m "value" p ∧ m.kind = Kind.variableDeclarator ∧ m.childText "name" = v ∧
    v ≠ ""

def IsAssignedTo (p : Place) (v : String) : Prop :=
  ∃ m left, FillsAt root m "right" p ∧ m.kind = Kind.assignment ∧ m.child? "left" = some left ∧
    left.kind = Kind.identifier ∧ left.text = v

/-- What the node at the place gives is stored in a variable, with nothing but parentheses
between. -/
def IsStoredIn (p : Place) (v : String) : Prop :=
  ¬ IsReceiver root p ∧ ∃ w, Leaves root p w ∧ (Initialises root w v ∨ IsAssignedTo root w v)

def IsMadeOn (n : Node) (v : String) : Prop :=
  ∃ r, n.child? "object" = some r ∧ r.kind = Kind.identifier ∧ r.text = v

/-- The call `n` at the place is bound to a variable for a tag: as a source to the one that its
result is stored in, and else to the one that it is made on. -/
def IsBoundTo (p : Place) (n : Node) (tag : StageTag) (v : String) : Prop :=
  (tag = .source ∧ IsStoredIn root p v) ∨
    ((tag = .source → ∀ w, ¬ IsStoredIn root p w) ∧ IsMadeOn n v)

end Up

section Step

variable {root m : Node} {q : Place} {i : ℕ}

theorem not_fillsAt_nil {field : String} : ¬ FillsAt root m field [] := by
  rintro ⟨q, i, h, -⟩
  simp at h

theorem fillsAt_concat_iff (hm : root.at? q = some m) {m' : Node} {field : String} :
    FillsAt root m' field (q ++ [i]) ↔ m' = m ∧ m.children.findIdx? (fills field) = some i := by
  constructor
  · rintro ⟨q', i', hp, hm', hi⟩
    obtain ⟨rfl, hlast⟩ := List.append_inj' hp rfl
    obtain rfl : i = i' := by simpa using hlast
    obtain rfl : m = m' := Option.some.inj (hm.symm.trans hm')
    exact ⟨rfl, hi⟩
  · rintro ⟨rfl, hi⟩
    exact ⟨q, i, rfl, hm, hi⟩

theorem inParentheses_concat_iff (hm : root.at? q = some m) :
    InParentheses root (q ++ [i]) ↔ m.kind = Kind.parenthesized := by
  constructor
  · rintro ⟨q', i', m', hp, hm', hk⟩
    obtain ⟨rfl, -⟩ := List.append_inj' hp rfl
    obtain rfl : m = m' := Option.some.inj (hm.symm.trans hm')
    exact hk
  · exact fun hk => ⟨q, i, m, rfl, hm, hk⟩

theorem leaves_nil_iff {w : Place} : Leaves root [] w ↔ w = [] := by
  constructor
  · intro h
    generalize hp : ([] : Place) = p at h
    cases h with
    | outside => rfl
    | inside => simp at hp
  · rintro rfl
    exact .outside fun ⟨q, i, _, hp, _⟩ => by simp at hp

theorem leaves_concat_iff (hm : root.at? q = some m) {w : Place} : Leaves root (q ++ [i]) w ↔
    if m.kind = Kind.parenthesized then Leaves root q w else w = q ++ [i] := by
  split
  · next hk =>
    constructor
    · intro h
      generalize hp : q ++ [i] = p at h
      cases h with
      | outside hout => exact absurd ((inParentheses_concat_iff hm).mpr hk) (hp ▸ hout)
      | inside _ _ h =>
        obtain ⟨rfl, -⟩ := List.append_inj' hp rfl
        exact h
    · exact .inside hm hk
  · next hk =>
    constructor
    · intro h
      generalize hp : q ++ [i] = p at h
      cases h with
      | outside => rfl
      | inside hm' hk' =>
        obtain ⟨rfl, -⟩ := List.append_inj' hp rfl
        obtain rfl := Option.some.inj (hm.symm.trans hm')
        exact absurd hk' hk
    · rintro rfl
      exact .outside fun h => hk ((inParentheses_concat_iff hm).mp h)

end Step

section HandedDown

variable {root m n : Node} {p q : Place} {i : ℕ} {v : String}

/-- What is handed down to a node is the variable that is found on the way up. -/
def IsFoundAbove (root : Node) (p : Place) (v : String) : Prop :=
  ∃ w, Leaves root p w ∧ (Initialises root w v ∨ IsAssignedTo root w v)

theorem isFoundAbove_nil : ¬ IsFoundAbove root [] v := by
  rintro ⟨w, hw, h⟩
  obtain rfl := leaves_nil_iff.mp hw
  rcases h with ⟨m, hm, -⟩ | ⟨m, left, hm, -⟩
  · exact not_fillsAt_nil hm
  · exact not_fillsAt_nil hm

theorem isFoundAbove_concat_of_parenthesized (hm : root.at? q = some m)
    (hk : m.kind = Kind.parenthesized) :
    IsFoundAbove root (q ++ [i]) v ↔ IsFoundAbove root q v := by
  simp only [IsFoundAbove, leaves_concat_iff hm, if_pos hk]

theorem isFoundAbove_concat (hm : root.at? q = some m) (hk : m.kind ≠ Kind.parenthesized) :
    IsFoundAbove root (q ++ [i]) v ↔
      Initialises root (q ++ [i]) v ∨ IsAssignedTo root (q ++ [i]) v := by
  simp only [IsFoundAbove, leaves_concat_iff hm, if_neg hk, exists_eq_left]

theorem initialises_concat_iff (hm : root.at? q = some m) : Initialises root (q ++ [i]) v ↔
    m.children.findIdx? (fills "value") = some i ∧ m.kind = Kind.variableDeclarator ∧
      m.childText "name" = v ∧ v ≠ "" := by
  simp only [Initialises, fillsAt_concat_iff hm, and_assoc, exists_eq_left]

theorem isAssignedTo_concat_iff (hm : root.at? q = some m) : IsAssignedTo root (q ++ [i]) v ↔
    ∃ left, m.children.findIdx? (fills "right") = some i ∧ m.kind = Kind.assignment ∧
      m.child? "left" = some left ∧ left.kind = Kind.identifier ∧ left.text = v := by
  simp only [IsAssignedTo, fillsAt_concat_iff hm, and_assoc]
  exact ⟨fun ⟨_, left, rfl, h⟩ => ⟨left, h⟩, fun ⟨left, h⟩ => ⟨m, left, rfl, h⟩⟩

theorem storedIn_eq_some_iff (hm : root.at? q = some m) (hk : m.kind ≠ Kind.parenthesized)
    (outer : Option String) : storedIn m outer i = some v ↔
      Initialises root (q ++ [i]) v ∨ IsAssignedTo root (q ++ [i]) v := by
  rw [initialises_concat_iff hm, isAssignedTo_concat_iff hm]
  simp only [storedIn, isFirstAt, beq_iff_eq, if_neg hk, Bool.and_eq_true, bne_iff_ne]
  by_cases hd : m.kind = Kind.variableDeclarator
  · have ha : m.kind ≠ Kind.assignment := by rw [hd]; decide
    rw [if_pos hd, Option.ite_none_right_eq_some, Option.some.injEq]
    constructor
    · rintro ⟨⟨hi, hname⟩, rfl⟩
      exact Or.inl ⟨hi, hd, rfl, hname⟩
    · rintro (⟨hi, -, rfl, hname⟩ | ⟨_, -, hk', -⟩)
      · exact ⟨⟨hi, hname⟩, rfl⟩
      · exact absurd hk' ha
  rw [if_neg hd]
  by_cases ha : m.kind = Kind.assignment
  · rw [if_pos ha]
    cases hleft : m.child? "left" with
    | none => simp [hd]
    | some left =>
      rw [Option.ite_none_right_eq_some, Option.some.injEq]
      constructor
      · rintro ⟨⟨hi, hident⟩, rfl⟩
        exact Or.inr ⟨left, hi, ha, rfl, hident, rfl⟩
      · rintro (⟨-, hk', -⟩ | ⟨_, hi, -, heq, hident, htext⟩)
        · exact absurd hk' hd
        · cases heq
          exact ⟨⟨hi, hident⟩, htext⟩
  · simp [hd, ha]

theorem handedDown_concat (hn : root.at? (q ++ [i]) = some n) : ∃ m, root.at? q = some m ∧
    handedDown storedIn none root (q ++ [i]) = storedIn m (handedDown storedIn none root q) i := by
  rw [at?_append, Option.bind_eq_some_iff] at hn
  obtain ⟨m, hm, hn⟩ := hn
  obtain ⟨c, hc, -⟩ := Option.bind_eq_some_iff.mp hn
  refine ⟨m, hm, ?_⟩
  rw [handedDown_append storedIn hm, handedDown_cons storedIn hc, handedDown_nil]

theorem handedDown_storedIn_eq_some_iff (hn : root.at? p = some n) :
    handedDown storedIn none root p = some v ↔ IsFoundAbove root p v := by
  induction p using List.reverseRecOn generalizing n with
  | nil => simp [isFoundAbove_nil]
  | append_singleton q i ih =>
    obtain ⟨m, hm, hdown⟩ := handedDown_concat hn
    rw [hdown]
    by_cases hk : m.kind = Kind.parenthesized
    · rw [isFoundAbove_concat_of_parenthesized hm hk, ← ih hm, storedIn, if_pos (by simp [hk])]
    · rw [isFoundAbove_concat hm hk, storedIn_eq_some_iff hm hk]

end HandedDown

section Chains

variable {root n : Node} {p : Place}

/-- A call is made on the node at the place, or on parentheses around it. -/
def IsInChain (root : Node) (p : Place) : Prop := ∃ w, Leaves root p w ∧ IsReceiver root w

theorem leaves_unique {w w' : Place} (h : Leaves root p w) (h' : Leaves root p w') : w = w' := by
  induction h with
  | outside hout =>
    cases h' with
    | outside => rfl
    | inside hm hk => exact absurd ⟨_, _, _, rfl, hm, hk⟩ hout
  | @inside q w i m hm hk _ ih =>
    refine ih ?_
    simpa [leaves_concat_iff hm, hk] using h'

/-- A place has one node around it, so what it fills there is of one kind. -/
theorem kind_unique {m m' : Node} {field field' : String} (h : FillsAt root m field p)
    (h' : FillsAt root m' field' p) : m = m' := by
  obtain ⟨q, i, rfl, hm, -⟩ := h
  exact ((fillsAt_concat_iff hm).mp h').1.symm

theorem not_isFoundAbove_of_isInChain (h : IsInChain root p) (v : String) :
    ¬ IsFoundAbove root p v := by
  obtain ⟨w, hw, m, hm, hk⟩ := h
  rintro ⟨w', hw', hstore⟩
  obtain rfl := leaves_unique hw hw'
  rcases hstore with ⟨m', hm', hk', -⟩ | ⟨m', _, hm', hk', -⟩
  · obtain rfl := kind_unique hm hm'
    rw [hk'] at hk
    revert hk
    decide
  · obtain rfl := kind_unique hm hm'
    rw [hk'] at hk
    revert hk
    decide

theorem isInChain_of_isReceiver (h : IsReceiver root p) : IsInChain root p := by
  refine ⟨p, .outside ?_, h⟩
  obtain ⟨m, ⟨q, i, rfl, hm, -⟩, hk⟩ := h
  rw [inParentheses_concat_iff hm]
  intro hp
  rw [hp] at hk
  revert hk
  decide

theorem isStoredIn_iff {v : String} : IsStoredIn root p v ↔ IsFoundAbove root p v :=
  ⟨And.right, fun h =>
    ⟨fun hr => not_isFoundAbove_of_isInChain (isInChain_of_isReceiver hr) v h, h⟩⟩

theorem receiver?_eq_some_iff {v : String} : receiver? n = some v ↔ IsMadeOn n v := by
  unfold receiver? IsMadeOn
  cases n.child? "object" with
  | none => simp
  | some r => simp

theorem binding_eq_some_iff (hn : root.at? p = some n) (tag : StageTag) (v : String) :
    binding (handedDown storedIn none root p) n tag = some v ↔ IsBoundTo root p n tag v := by
  have hstored (w : String) : handedDown storedIn none root p = some w ↔ IsStoredIn root p w := by
    rw [handedDown_storedIn_eq_some_iff hn, isStoredIn_iff]
  unfold binding IsBoundTo
  by_cases ht : tag = .source
  · cases hd : handedDown storedIn none root p with
    | none => simp [ht, ← hstored, hd, receiver?_eq_some_iff]
    | some w => simp [ht, ← hstored, hd]
  · simp [ht, receiver?_eq_some_iff]

theorem isBoundTo_iff_of_isInChain (h : IsInChain root p) (tag : StageTag) (v : String) :
    IsBoundTo root p n tag v ↔ IsMadeOn n v := by
  have hnot (w : String) : ¬ IsStoredIn root p w := fun hw =>
    not_isFoundAbove_of_isInChain h w hw.2
  simp [IsBoundTo, hnot]

end Chains

/-- The binding of a stage is what going up from its call leads to. -/
def BindsAsFound (root : Node) (hit : Place × StageTag) (s : Stage String) : Prop :=
  ∃ n, root.at? hit.1 = some n ∧ ∀ x, s.binding = some x ↔ IsBoundTo root hit.1 n hit.2 x

theorem bindsAsFound_of_mem_hits {v : Vocabulary} {root : Node} {h : Hit} (hh : h ∈ hits v root)
    (i : ℕ) : BindsAsFound root (h.place, h.tag) (h.stage i) := by
  obtain ⟨⟨q, n⟩, hn, hm⟩ := List.mem_flatMap.mp hh
  obtain ⟨-, -, he⟩ := mem_hitsAt_iff.mp hm
  have hat := (mem_placed_iff.mp hn).2
  rw [he]
  exact ⟨n, hat, binding_eq_some_iff hat h.tag⟩

/-- A source is bound to the variable that its result is stored in, a call of which there is none,
or with another tag, to the variable that it is made on, and else to nothing. What another call or
a field access is made on, directly or in parentheses, is not stored by itself: it is bound to the
variable that it is made on, whatever its tag. -/
theorem stages_bound (v : Vocabulary) (root : Node) :
    Enumerates Precedes (IsHit v root) (fun hit s => Describes root hit s ∧ BindsAsFound root hit s)
      (stages v root) ∧
    ∀ p n, root.at? p = some n → ∀ tag,
      (∀ x, binding (handedDown storedIn none root p) n tag = some x ↔
        IsBoundTo root p n tag x) ∧
      (IsInChain root p → ∀ x, ¬ IsStoredIn root p x ∧
        (binding (handedDown storedIn none root p) n tag = some x ↔ IsMadeOn n x)) := by
  constructor
  · have henumerates := enumerates_hitsAmong (v := v) (P := fun _ => True)
      (R := fun hit s => Describes root hit s ∧ BindsAsFound root hit s)
      (fun h hh i => And.intro (describes_of_mem_hits hh i) (bindsAsFound_of_mem_hits hh i))
      (List.Sublist.refl root.placed) (fun e he => by simp [he]) 0
    simp only [and_true] at henumerates
    rw [stages_eq_hits]
    exact henumerates
  · intro p n hn tag
    refine ⟨binding_eq_some_iff hn tag, fun hchain x => ⟨?_, ?_⟩⟩
    · exact fun hx => not_isFoundAbove_of_isInChain hchain x hx.2
    · rw [binding_eq_some_iff hn, isBoundTo_iff_of_isInChain hchain]

section Chain

open Extract

def innerCall : Node :=
  sampleNode Kind.methodInvocation none "" [sampleNode Kind.identifier (some "object") "spark" [],
    sampleNode Kind.identifier (some "name") "read" []]

def outerCall : Node :=
  sampleNode Kind.methodInvocation none ""
    [sampleNode Kind.parenthesized (some "object") "" [innerCall],
      sampleNode Kind.identifier (some "name") "csv" []]

/-- A variable that is initialised with the calls, in parentheses. -/
def sampleChain : Node :=
  sampleNode Kind.program none "" [sampleNode Kind.variableDeclarator none ""
    [sampleNode Kind.identifier (some "name") "rows" [],
      sampleNode Kind.parenthesized (some "value") "" [outerCall]]]

theorem sampleChain_bound :
    sampleChain.at? [0, 1, 0] = some outerCall ∧
    binding (handedDown storedIn none sampleChain [0, 1, 0]) outerCall .source = some "rows" ∧
    sampleChain.at? [0, 1, 0, 0, 0] = some innerCall ∧
    IsInChain sampleChain [0, 1, 0, 0, 0] ∧
    binding (handedDown storedIn none sampleChain [0, 1, 0, 0, 0]) innerCall .source =
      some "spark" := by
  have houter : sampleChain.at? [0, 1, 0] = some outerCall := rfl
  have hinner : sampleChain.at? [0, 1, 0, 0, 0] = some innerCall := rfl
  have hbound := (stages_bound .standard sampleChain).2
  have hchain : IsInChain sampleChain [0, 1, 0, 0, 0] := by
    refine ⟨[0, 1, 0, 0], .inside (q := [0, 1, 0, 0]) (i := 0) rfl rfl (.outside ?_), outerCall,
      ⟨[0, 1, 0], 0, rfl, houter, rfl⟩, Or.inl rfl⟩
    exact fun h => absurd ((inParentheses_concat_iff (q := [0, 1, 0]) houter).mp h) (by decide)
  refine ⟨houter, ?_, hinner, hchain, ?_⟩
  · rw [(hbound _ _ houter .source).1]
    refine Or.inl ⟨rfl, isStoredIn_iff.mpr ⟨[0, 1], .inside (q := [0, 1]) (i := 0) rfl rfl
      (.outside ?_), Or.inl ⟨_, ⟨[0], 1, rfl, rfl, rfl⟩, rfl, rfl, by decide⟩⟩⟩
    exact fun h => absurd ((inParentheses_concat_iff (q := [0]) rfl).mp h) (by decide)
  · rw [((hbound _ _ hinner .source).2 hchain _).2]
    exact ⟨_, rfl, rfl, rfl⟩

end Chain

end Classifier

end CodeAtlas

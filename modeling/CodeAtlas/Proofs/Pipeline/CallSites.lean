import Mathlib.Data.List.Flatten
import CodeAtlas.Extract.Types
import CodeAtlas.Proofs.Extract.Membership
import CodeAtlas.Proofs.Pipeline.Classification
import CodeAtlas.Proofs.Tree.Subtrees

/-! # The calls of a method and the stages in its body

The stages of the calls below the body of a method are one block of the stages of the tree, and
they are those of the calls of the method, one for each tag of their names. The calls and variables
of a method that stands inside the body of another one are a block of those of the outer method.
-/

namespace CodeAtlas

open Node

namespace Extract

theorem calls_isInfix {body n : Node} {p : Place} (h : body.at? p = some n) :
    calls n <:+: calls body := (visited_isInfix h).filterMap _

/-- A variable has the parent that it has in the tree around, wherever the visit starts. -/
theorem locals_isInfix {body n : Node} {p : Place} (h : body.at? p = some n) :
    locals n <:+: locals body :=
  (visitedWith_isInfix (fun parent _ _ => parent) h).filterMap _

theorem method_isInfix {body n : Node} {p : Place} (h : body.at? p = some n) :
    (method n).calls <:+: calls body ∧ (method n).locals <:+: locals body := by
  cases hb : n.child? "body" with
  | none => simp [method, hb]
  | some inner =>
    have hinner : ∃ b, n.at? [b] = some inner := by
      rw [child?_eq_bind_findIdx?, Option.bind_eq_some_iff] at hb
      obtain ⟨b, -, hb⟩ := hb
      exact ⟨b, by simpa using hb⟩
    obtain ⟨b, hinner⟩ := hinner
    have hplace : body.at? (p ++ [b]) = some inner := by
      rw [at?_append, h]
      exact hinner
    have hcalls : (method n).calls = calls inner := by simp [method, hb]
    have hlocals : (method n).locals = locals inner := by simp [method, hb]
    rw [hcalls, hlocals]
    exact ⟨calls_isInfix hplace, locals_isInfix hplace⟩

end Extract

namespace Classifier

section Part

variable (v : Vocabulary) (root : Node)

def hitsAmong (es : List (Place × Node)) : List Hit :=
  es.flatMap fun e => hitsAt v e.1 (handedDown storedIn none root e.1) e.2

theorem hitsAmong_append (es es' : List (Place × Node)) :
    hitsAmong v root (es ++ es') = hitsAmong v root es ++ hitsAmong v root es' :=
  List.flatMap_append

def stagesFrom (n : ℕ) (hs : List Hit) : List (Stage String) :=
  (hs.zipIdx n).map fun (h, i) => h.stage i

theorem stagesFrom_append (n : ℕ) (hs hs' : List Hit) :
    stagesFrom n (hs ++ hs') = stagesFrom n hs ++ stagesFrom (n + hs.length) hs' := by
  rw [stagesFrom, List.zipIdx_append, List.map_append]
  rfl

variable {v root}

theorem place_of_mem_hitsAt {place : Place} {stored : Option String} {n : Node} {h : Hit}
    (hh : h ∈ hitsAt v place stored n) : h.place = place := by
  rw [(mem_hitsAt_iff.mp hh).2.2]

theorem mem_hitsAmong_iff {es : List (Place × Node)} {P : Place → Prop}
    (hes : es.Sublist root.placed) (hP : ∀ e ∈ root.placed, e ∈ es ↔ P e.1) {h : Hit} :
    h ∈ hitsAmong v root es ↔ h ∈ hits v root ∧ P h.place := by
  simp only [hitsAmong, hits, List.mem_flatMap]
  constructor
  · rintro ⟨e, he, hh⟩
    refine ⟨⟨e, hes.subset he, hh⟩, ?_⟩
    rw [place_of_mem_hitsAt hh]
    exact (hP e (hes.subset he)).mp he
  · rintro ⟨⟨e, he, hh⟩, hplace⟩
    rw [place_of_mem_hitsAt hh] at hplace
    exact ⟨e, (hP e he).mpr hplace, hh⟩

theorem enumerates_hitsAmong {R : Place × StageTag → Stage String → Prop}
    (hR : ∀ h ∈ hits v root, ∀ i, R (h.place, h.tag) (h.stage i)) {es : List (Place × Node)}
    {P : Place → Prop} (hes : es.Sublist root.placed)
    (hP : ∀ e ∈ root.placed, e ∈ es ↔ P e.1) (n : ℕ) :
    Enumerates Precedes (fun hit => IsHit v root hit ∧ P hit.1) R
      (stagesFrom n (hitsAmong v root es)) := by
  have hfst : ((hitsAmong v root es).zipIdx n).map (·.1) = hitsAmong v root es :=
    List.zipIdx_map_fst n _
  refine Enumerates.of_map (fun e => (e.1.place, e.1.tag)) _ ?_ (fun hit => ?_) ?_
  · have hinc := (hits_increasing v root).sublist (hes.flatMap _)
    change (hitsAmong v root es).Pairwise _ at hinc
    rw [← hfst, List.pairwise_map] at hinc
    exact hinc
  · rw [← exists_hit_iff]
    constructor
    · rintro ⟨⟨h, i⟩, hm, rfl⟩
      obtain ⟨hh, hp⟩ := (mem_hitsAmong_iff hes hP).mp (List.fst_mem_of_mem_zipIdx hm)
      exact ⟨⟨h, hh, rfl⟩, hp⟩
    · rintro ⟨⟨h, hh, rfl⟩, hp⟩
      have hm := (mem_hitsAmong_iff hes hP).mpr ⟨hh, hp⟩
      rw [← hfst] at hm
      obtain ⟨e, he, rfl⟩ := List.mem_map.mp hm
      exact ⟨e, he, rfl⟩
  · rintro ⟨h, i⟩ hm
    have hh := (mem_hitsAmong_iff hes hP).mp (List.fst_mem_of_mem_zipIdx hm)
    exact hR h hh.1 i

/-- The stages fall into those of the nodes up to a node, those below it, and those of later
nodes. -/
theorem exists_stages_eq {p : Place} {n : Node} (h : root.at? p = some n) :
    ∃ before after, stages v root =
        before ++ stagesFrom before.length (hitsAmong v root (placedBelow p n)) ++ after ∧
      Enumerates Precedes (fun hit => IsHit v root hit ∧ hit.1 ≤ p) (Describes root) before ∧
      Enumerates Precedes (fun hit => IsHit v root hit ∧ Below p hit.1) (Describes root)
        (stagesFrom before.length (hitsAmong v root (placedBelow p n))) ∧
      Enumerates Precedes (fun hit => IsHit v root hit ∧ p < hit.1 ∧ ¬ Below p hit.1)
        (Describes root) after := by
  obtain ⟨before, after, hsplit, hparts⟩ := exists_placed_parts h
  have hlength : (stagesFrom 0 (hitsAmong v root before)).length =
      (hitsAmong v root before).length := by simp [stagesFrom]
  have hbefore : before.Sublist root.placed := by
    rw [hsplit, List.append_assoc]
    exact List.sublist_append_left _ _
  have hafter : after.Sublist root.placed := by
    rw [hsplit]
    exact List.sublist_append_right _ _
  have hdescribes : ∀ h ∈ hits v root, ∀ i, Describes root (h.place, h.tag) (h.stage i) :=
    fun _ hh i => describes_of_mem_hits hh i
  refine ⟨stagesFrom 0 (hitsAmong v root before), stagesFrom (0 + (hitsAmong v root
    (before ++ placedBelow p n)).length) (hitsAmong v root after), ?_, ?_, ?_, ?_⟩
  · have hhits : hits v root = hitsAmong v root (before ++ placedBelow p n ++ after) := by
      rw [← hsplit]
      rfl
    rw [stages_eq_hits, hhits]
    change stagesFrom 0 _ = _
    rw [hitsAmong_append, stagesFrom_append, hitsAmong_append, stagesFrom_append, hlength,
      Nat.zero_add]
  · exact enumerates_hitsAmong (P := fun q => q ≤ p) hdescribes hbefore
      (fun e he => (hparts e he).1) 0
  · exact enumerates_hitsAmong hdescribes (placedBelow_isInfix h).sublist
      (fun e he => (hparts e he).2.1) _
  · exact enumerates_hitsAmong (P := fun q => p < q ∧ ¬ Below p q) hdescribes hafter
      (fun e he => (hparts e he).2.2) _

end Part

section Names

variable {v : Vocabulary} (hv : ∀ tag, "" ∉ v.namesFor tag)

include hv

theorem tagsFor_empty : v.tagsFor "" = [] := by
  rw [List.eq_nil_iff_forall_not_mem]
  intro tag htag
  exact hv tag (Vocabulary.mem_tagsFor_iff.mp htag)

/-- A call without a name node and one with an empty name both give no stage. -/
theorem map_hitsAt (place : Place) (stored : Option String) (n : Node) :
    (hitsAt v place stored n).map (fun h => (h.call.childText "name", h.tag)) =
      (Extract.callName? n).toList.flatMap fun name => (v.tagsFor name).map (name, ·) := by
  unfold hitsAt Extract.callName?
  by_cases hk : n.kind = Kind.methodInvocation
  · cases hname : n.child? "name" with
    | none => simp [hk, hname, childText]
    | some c =>
      have htext : n.childText "name" = c.text := by simp [childText, hname]
      by_cases hempty : c.text = ""
      · simp [hk, htext, hempty, tagsFor_empty hv]
      · simp [hk, htext, hempty]
  · simp [hk]

theorem map_stagesFrom (root body : Node) (p : Place) (i : ℕ) :
    (stagesFrom i (hitsAmong v root (placedBelow p body))).map
        (fun s => (s.operation, s.tag)) =
      (Extract.calls body).flatMap fun name => (v.tagsFor name).map (name, ·) := by
  have hstages (hs : List Hit) : (stagesFrom i hs).map (fun s => (s.operation, s.tag)) =
      hs.map fun h => (h.call.childText "name", h.tag) := by
    conv_rhs => rw [← List.zipIdx_map_fst i hs, List.map_map]
    rw [stagesFrom, List.map_map]
    rfl
  rw [hstages, hitsAmong, List.map_flatMap, Extract.calls, visited_eq_map_placed,
    List.filterMap_eq_flatMap_toList, placedBelow, List.flatMap_map, List.flatMap_map,
    List.flatMap_assoc]
  exact List.flatMap_congr fun e _ => map_hitsAt hv _ _ _

end Names

/-- The stages below the body of a method are one block of all stages, and they are those of the
calls of the method, tag by tag. The calls and variables of a method that is declared inside the
body are a block of those of the outer method. -/
theorem stages_of_body {v : Vocabulary} (hv : ∀ tag, "" ∉ v.namesFor tag) {root m body : Node}
    {p : Place} {b : ℕ} (hm : root.at? p = some m)
    (hb : m.children.findIdx? (fills "body") = some b) (hbody : m.children[b]? = some body) :
    (∃ before block after, stages v root = before ++ block ++ after ∧
      Enumerates Precedes (fun hit => IsHit v root hit ∧ hit.1 ≤ p ++ [b]) (Describes root)
        before ∧
      Enumerates Precedes (fun hit => IsHit v root hit ∧ Below (p ++ [b]) hit.1) (Describes root)
        block ∧
      Enumerates Precedes (fun hit => IsHit v root hit ∧ p ++ [b] < hit.1 ∧
        ¬ Below (p ++ [b]) hit.1) (Describes root) after ∧
      block.map (fun s => (s.operation, s.tag)) =
        (Extract.method m).calls.flatMap fun name => (v.tagsFor name).map (name, ·)) ∧
    ∀ q inner, body.at? q = some inner →
      (Extract.method inner).calls <:+: (Extract.method m).calls ∧
        (Extract.method inner).locals <:+: (Extract.method m).locals := by
  have hchild : m.child? "body" = some body := by
    rw [child?_eq_bind_findIdx?, hb]
    exact hbody
  have hcalls : (Extract.method m).calls = Extract.calls body := by
    simp [Extract.method, hchild]
  have hlocals : (Extract.method m).locals = Extract.locals body := by
    simp [Extract.method, hchild]
  have hplace : root.at? (p ++ [b]) = some body := by
    rw [at?_append, hm]
    simpa using hbody
  rw [hcalls, hlocals]
  constructor
  · obtain ⟨before, after, hsplit, hbefore, hblock, hafter⟩ := exists_stages_eq (v := v) hplace
    exact ⟨before, _, after, hsplit, hbefore, hblock, hafter, map_stagesFrom hv root body _ _⟩
  · intro q inner hinner
    exact Extract.method_isInfix hinner

section Nested

open Extract

def innerMethod : Node :=
  sampleNode Kind.methodDeclaration none "" [sampleNode Kind.identifier (some "name") "g" [],
    sampleNode "block" (some "body") ""
      [sampleNode Kind.methodInvocation none "" [sampleNode Kind.identifier (some "name") "map" []],
        sampleNode "local_variable_declaration" none ""
          [sampleNode Kind.typeIdentifier (some "type") "Row" [],
            sampleNode Kind.variableDeclarator (some "declarator") ""
              [sampleNode Kind.identifier (some "name") "row" []]]]]

/-- A method that calls another operation and, inside its body, declares a class with the first
method. -/
def outerMethod : Node :=
  sampleNode Kind.methodDeclaration none "" [sampleNode Kind.identifier (some "name") "f" [],
    sampleNode "block" (some "body") ""
      [sampleNode Kind.methodInvocation none ""
          [sampleNode Kind.identifier (some "name") "read" []],
        sampleNode "class_body" none "" [innerMethod]]]

def nestedMethods : Node := sampleNode Kind.program none "" [outerMethod]

theorem calls_outerMethod : (method outerMethod).calls = ["read", "map"] := by
  have hbody : outerMethod.child? "body" = some outerMethod.children[1] := rfl
  simp only [method, hbody, Option.map_some, Option.getD_some, calls, visited_eq_descendants]
  rfl

/-- The stages of the outer body hold that of the inner one. -/
theorem stages_of_body_nested :
    (∀ tag, "" ∉ (⟨["read"], ["map"], []⟩ : Vocabulary).namesFor tag) ∧
    nestedMethods.at? [0] = some outerMethod ∧
    (∃ before block after,
      stages ⟨["read"], ["map"], []⟩ nestedMethods = before ++ block ++ after ∧
      block.map (fun s => (s.operation, s.tag)) = [("read", .source), ("map", .transformation)]) ∧
    (method innerMethod).calls <:+: (method outerMethod).calls ∧
    (method innerMethod).locals <:+: (method outerMethod).locals := by
  have hv : ∀ tag, "" ∉ (⟨["read"], ["map"], []⟩ : Vocabulary).namesFor tag := by
    intro tag
    cases tag <;> decide
  have hm : nestedMethods.at? [0] = some outerMethod := rfl
  obtain ⟨⟨before, block, after, hsplit, -, -, -, hblock⟩, hinner⟩ :=
    stages_of_body hv (b := 1) hm rfl rfl
  refine ⟨hv, hm, ⟨before, block, after, hsplit, ?_⟩, hinner [1, 0] innerMethod rfl⟩
  rw [hblock, calls_outerMethod]
  decide

end Nested

end Classifier

end CodeAtlas

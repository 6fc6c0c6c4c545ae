import CodeAtlas.Proofs.Extract.Members

/-! # Every declaration is extracted once

The types of a tree are exactly the named type declarations below its root. The methods and fields
of a type are exactly those that its own body declares, so none belongs to two types.
-/

namespace CodeAtlas

namespace Node

theorem append_lt_append_iff (p : Place) {q r : Place} : p ++ q < p ++ r ↔ q < r := by
  induction p with
  | nil => rfl
  | cons i p ih => simp [ih]

theorem child?_eq_bind_findIdx? (n : Node) (field : String) :
    n.child? field = (n.children.findIdx? (fills field)).bind (n.children[·]?) := by
  unfold child?
  induction n.children with
  | nil => rfl
  | cons c cs ih =>
    rw [List.find?_cons, List.findIdx?_cons, ih]
    cases fills field c with
    | true => rfl
    | false =>
      rw [if_neg Bool.false_ne_true, Option.bind_map]
      rfl

/-- The children with a property, each with its place among all children. -/
def selected (P : Node → Bool) (n : Node) : List (ℕ × Node) :=
  (n.children.zipIdx.filter fun e => P e.1).map fun e => (e.2, e.1)

theorem mem_selected_iff {P : Node → Bool} {n c : Node} {i : ℕ} :
    (i, c) ∈ selected P n ↔ n.children[i]? = some c ∧ P c = true := by
  simp only [selected, List.mem_map, List.mem_filter, Prod.exists, Prod.mk.injEq,
    List.mk_mem_zipIdx_iff_getElem?]
  constructor
  · rintro ⟨d, j, h, rfl, rfl⟩
    exact h
  · intro h
    exact ⟨c, i, h, rfl, rfl⟩

theorem map_snd_selected (P : Node → Bool) (n : Node) :
    (selected P n).map (·.2) = n.children.filter P := by
  conv_rhs => rw [← List.zipIdx_map_fst 0 n.children, List.filter_map]
  rw [selected, List.map_map]
  rfl

theorem selected_increasing (P : Node → Bool) (n : Node) :
    (selected P n).Pairwise fun a b => a.1 < b.1 := by
  have h : n.children.zipIdx.Pairwise fun a b => a.2 < b.2 := by
    rw [← List.pairwise_map (f := Prod.snd) (R := (· < ·)), List.zipIdx_map_snd]
    exact List.pairwise_lt_range'
  exact List.pairwise_map.mpr (h.filter _)

end Node

namespace Extract

open Node

/-- The place below the root holds a declaration of a class or an interface whose name is not
empty. -/
def TypeAt (root : Node) (p : Place) : Prop :=
  p ≠ [] ∧ ∃ n, root.at? p = some n ∧
    (n.kind = Kind.classDeclaration ∨ n.kind = Kind.interfaceDeclaration) ∧
    n.childText "name" ≠ ""

/-- The place `q` holds a named child of the body of the node at `p`, the first child to fill that
field. -/
def MemberAt (root : Node) (p q : Place) : Prop :=
  ∃ n b body i m, root.at? p = some n ∧ n.children.findIdx? (fills "body") = some b ∧
    n.children[b]? = some body ∧ body.children[i]? = some m ∧ m.label.named = true ∧
    q = p ++ [b, i]

def MethodAt (root : Node) (p q : Place) : Prop :=
  MemberAt root p q ∧ ∃ m, root.at? q = some m ∧ m.kind = Kind.methodDeclaration

def DeclaratorAt (root : Node) (p q : Place) : Prop :=
  ∃ r o i d, MemberAt root p r ∧ root.at? r = some o ∧ o.kind ∈ Kind.fieldDeclarations ∧
    o.children[i]? = some d ∧ fills "declarator" d = true ∧ q = r ++ [i]

/-- No member belongs to two nodes. -/
theorem MemberAt.owner_unique {root : Node} {p p' q : Place} (h : MemberAt root p q)
    (h' : MemberAt root p' q) : p = p' := by
  obtain ⟨_, b, _, i, _, _, _, _, _, _, rfl⟩ := h
  obtain ⟨_, b', _, i', _, _, _, _, _, _, he⟩ := h'
  exact (List.append_inj' he rfl).1

theorem DeclaratorAt.owner_unique {root : Node} {p p' q : Place} (h : DeclaratorAt root p q)
    (h' : DeclaratorAt root p' q) : p = p' := by
  obtain ⟨r, _, i, _, hr, _, _, _, _, rfl⟩ := h
  obtain ⟨r', _, i', _, hr', _, _, _, _, he⟩ := h'
  obtain rfl : r = r' := (List.append_inj' he rfl).1
  exact hr.owner_unique hr'

def placedMembers (n : Node) : List (Place × Node) :=
  match n.children.findIdx? (fills "body") with
  | none => []
  | some b =>
    match n.children[b]? with
    | none => []
    | some body => (selected (·.label.named) body).map fun e => ([b, e.1], e.2)

theorem map_snd_placedMembers (n : Node) : (placedMembers n).map (·.2) = members n := by
  unfold placedMembers members
  rw [child?_eq_bind_findIdx?]
  split
  · next h => simp [h]
  · next b h =>
    split
    · next hb => simp [h, hb]
    · next body hb =>
      simp only [h, hb, Option.bind_some, Option.map_some, Option.getD_some, List.map_map]
      exact map_snd_selected _ body

/-- A member and all that is below it come before the next member. -/
theorem placedMembers_increasing (n : Node) :
    (placedMembers n).Pairwise fun a b => ∀ x y : Place, a.1 ++ x < b.1 ++ y := by
  unfold placedMembers
  split
  · exact .nil
  · next b _ =>
    split
    · exact .nil
    · refine List.pairwise_map.mpr ((selected_increasing _ _).imp fun h x y => ?_)
      exact List.cons_lt_cons_iff.mpr (Or.inr ⟨rfl, List.cons_lt_cons_iff.mpr (Or.inl h)⟩)

theorem mem_placedMembers_iff {n : Node} {e : Place × Node} :
    e ∈ placedMembers n ↔ ∃ b body i m, n.children.findIdx? (fills "body") = some b ∧
      n.children[b]? = some body ∧ body.children[i]? = some m ∧ m.label.named = true ∧
      e = ([b, i], m) := by
  unfold placedMembers
  constructor
  · intro he
    split at he
    · simp at he
    · next b hb =>
      split at he
      · simp at he
      · next body hbody =>
        obtain ⟨⟨i, m⟩, hm, rfl⟩ := List.mem_map.mp he
        obtain ⟨hm, hnamed⟩ := mem_selected_iff.mp hm
        exact ⟨b, body, i, m, hb, hbody, hm, hnamed, rfl⟩
  · rintro ⟨b, body, i, m, hb, hbody, hm, hnamed, rfl⟩
    simp only [hb, hbody]
    exact List.mem_map.mpr ⟨(i, m), mem_selected_iff.mpr ⟨hm, hnamed⟩, rfl⟩

/-- The declarators among the members of a type, each with its place below the type and with the
declaration around it. -/
def placedDeclarators (n : Node) : List (Place × Node × Node) :=
  ((placedMembers n).filter fun e => Kind.fieldDeclarations.contains e.2.kind).flatMap fun e =>
    (selected (fills "declarator") e.2).map fun d => (e.1 ++ [d.1], e.2, d.2)

theorem mem_placedDeclarators_iff {n : Node} {e : Place × Node × Node} :
    e ∈ placedDeclarators n ↔ ∃ m i, (m, e.2.1) ∈ placedMembers n ∧
      e.2.1.kind ∈ Kind.fieldDeclarations ∧ e.2.1.children[i]? = some e.2.2 ∧
      fills "declarator" e.2.2 = true ∧ e.1 = m ++ [i] := by
  obtain ⟨q, o, d⟩ := e
  simp only [placedDeclarators, List.mem_flatMap, List.mem_filter, List.contains_iff_mem,
    List.mem_map, Prod.exists, Prod.mk.injEq, mem_selected_iff]
  constructor
  · rintro ⟨m, _, ⟨hm, hk⟩, i, _, hd, rfl, rfl, rfl⟩
    exact ⟨m, i, hm, hk, hd.1, hd.2, rfl⟩
  · rintro ⟨m, i, hm, hk, hd, hf, rfl⟩
    exact ⟨m, o, ⟨hm, hk⟩, i, d, ⟨hd, hf⟩, rfl, rfl, rfl⟩

theorem placedDeclarators_increasing (n : Node) :
    (placedDeclarators n).Pairwise fun a b => a.1 < b.1 := by
  refine List.pairwise_flatMap.mpr ⟨fun e _ => ?_, ?_⟩
  · refine List.pairwise_map.mpr ((selected_increasing _ e.2).imp fun h => ?_)
    rw [append_lt_append_iff]
    exact List.cons_lt_cons_iff.mpr (Or.inl h)
  · refine ((placedMembers_increasing n).imp fun hab d hd d' hd' => ?_).filter _
    obtain ⟨c, _, rfl⟩ := List.mem_map.mp hd
    obtain ⟨c', _, rfl⟩ := List.mem_map.mp hd'
    exact hab [c.1] [c'.1]

theorem fields_eq_map (n : Node) :
    (typeOf n).fields = (placedDeclarators n).map fun e => field e.2.1 e.2.2 := by
  simp only [typeOf, ← map_snd_placedMembers, placedDeclarators, List.filter_map, List.flatMap_map,
    List.map_flatMap, List.map_map]
  refine List.flatMap_congr fun e _ => ?_
  rw [fields, childrenAt, ← map_snd_selected, List.map_map]
  rfl

section Owner

variable {root n : Node} {p : Place} (hn : root.at? p = some n)

include hn

theorem memberAt_iff {q : Place} : MemberAt root p q ↔ ∃ e ∈ placedMembers n, p ++ e.1 = q := by
  constructor
  · rintro ⟨n', b, body, i, m, hn', hb, hbody, hm, hnamed, rfl⟩
    obtain rfl : n = n' := Option.some.inj (hn.symm.trans hn')
    exact ⟨([b, i], m), mem_placedMembers_iff.mpr ⟨b, body, i, m, hb, hbody, hm, hnamed, rfl⟩, rfl⟩
  · rintro ⟨e, he, rfl⟩
    obtain ⟨b, body, i, m, hb, hbody, hm, hnamed, rfl⟩ := mem_placedMembers_iff.mp he
    exact ⟨n, b, body, i, m, hn, hb, hbody, hm, hnamed, rfl⟩

theorem at?_of_mem_placedMembers {e : Place × Node} (he : e ∈ placedMembers n) :
    root.at? (p ++ e.1) = some e.2 := by
  obtain ⟨b, body, i, m, _, hbody, hm, _, rfl⟩ := mem_placedMembers_iff.mp he
  simp [at?_append, hn, hbody, hm]

theorem methods_enumerate : Enumerates (· < ·) (MethodAt root p)
    (fun q m => ∃ d, root.at? q = some d ∧ DeclaresMethod d m) (typeOf n).methods := by
  have h : (typeOf n).methods = ((placedMembers n).filter (·.2.kind == Kind.methodDeclaration)).map
      fun e => method e.2 := by
    simp only [typeOf, ← map_snd_placedMembers, List.filter_map, List.map_map]
    rfl
  rw [h]
  refine Enumerates.of_map (fun e => p ++ e.1) _ ?_ (fun q => ?_) (fun e he => ?_)
  · refine ((placedMembers_increasing n).imp fun hab => ?_).filter _
    rw [append_lt_append_iff]
    simpa using hab [] []
  · rw [MethodAt, memberAt_iff hn]
    constructor
    · rintro ⟨e, he, rfl⟩
      obtain ⟨he, hk⟩ := List.mem_filter.mp he
      exact ⟨⟨e, he, rfl⟩, e.2, at?_of_mem_placedMembers hn he, by simpa using hk⟩
    · rintro ⟨⟨e, he, rfl⟩, m, hm, hk⟩
      obtain rfl : e.2 = m := Option.some.inj ((at?_of_mem_placedMembers hn he).symm.trans hm)
      exact ⟨e, List.mem_filter.mpr ⟨he, by simpa using hk⟩, rfl⟩
  · exact ⟨e.2, at?_of_mem_placedMembers hn (List.mem_filter.mp he).1, declaresMethod e.2⟩

theorem fields_enumerate : Enumerates (· < ·) (DeclaratorAt root p)
    (fun q f => ∃ o d, root.at? q.dropLast = some o ∧ root.at? q = some d ∧ DeclaresField o d f)
    (typeOf n).fields := by
  rw [fields_eq_map]
  refine Enumerates.of_map (fun e => p ++ e.1) _ ?_ (fun q => ?_) (fun e he => ?_)
  · exact (placedDeclarators_increasing n).imp fun h => (append_lt_append_iff p).mpr h
  · constructor
    · rintro ⟨e, he, rfl⟩
      obtain ⟨m, i, hm, hk, hd, hf, hi⟩ := mem_placedDeclarators_iff.mp he
      exact ⟨p ++ m, e.2.1, i, e.2.2, (memberAt_iff hn).mpr ⟨_, hm, rfl⟩,
        at?_of_mem_placedMembers hn hm, hk, hd, hf, by rw [hi, List.append_assoc]⟩
    · rintro ⟨r, o, i, d, hr, ho, hk, hd, hf, rfl⟩
      obtain ⟨e, he, rfl⟩ := (memberAt_iff hn).mp hr
      obtain rfl : e.2 = o := Option.some.inj ((at?_of_mem_placedMembers hn he).symm.trans ho)
      exact ⟨(e.1 ++ [i], e.2, d),
        mem_placedDeclarators_iff.mpr ⟨e.1, i, he, hk, hd, hf, rfl⟩, (List.append_assoc ..).symm⟩
  · obtain ⟨m, i, hm, _, hd, _, hi⟩ := mem_placedDeclarators_iff.mp he
    have ho := at?_of_mem_placedMembers hn hm
    refine ⟨e.2.1, e.2.2, ?_, ?_, declaresField e.2.1 e.2.2⟩
    · rw [hi, ← List.append_assoc, List.dropLast_concat]
      exact ho
    · rw [hi, ← List.append_assoc, at?_append, ho]
      simp [hd]

end Owner

/-- A type says what the declaration at a place says, and its members are those that the body of
this declaration declares, each of which says what its own node says. -/
structure Records (root : Node) (p : Place) (t : TypeDeclaration String) : Prop where
  declaration : ∃ n, root.at? p = some n ∧ t.name = n.childText "name" ∧
    (t.kind = .interfaceType ↔ n.kind = Kind.interfaceDeclaration)
  name_ne_empty : t.name ≠ ""
  implemented : t.kind = .interfaceType → t.implemented = []
  methods : Enumerates (· < ·) (MethodAt root p)
    (fun q m => ∃ d, root.at? q = some d ∧ DeclaresMethod d m) t.methods
  fields : Enumerates (· < ·) (DeclaratorAt root p)
    (fun q f => ∃ o d, root.at? q.dropLast = some o ∧ root.at? q = some d ∧ DeclaresField o d f)
    t.fields

theorem records_typeOf {root n : Node} {p : Place} (hn : root.at? p = some n)
    (hname : n.childText "name" ≠ "") : Records root p (typeOf n) where
  declaration := by
    refine ⟨n, hn, rfl, ?_⟩
    by_cases h : n.kind = Kind.interfaceDeclaration <;> simp [typeOf, h]
  name_ne_empty := hname
  implemented h := by
    have hk : n.kind = Kind.interfaceDeclaration := by
      by_contra hk
      simp [typeOf, hk] at h
    simp [typeOf, supertypes, hk]
  methods := methods_enumerate hn
  fields := fields_enumerate hn

theorem declaresType_iff {n : Node} : declaresType n = true ↔
    (n.kind = Kind.classDeclaration ∨ n.kind = Kind.interfaceDeclaration) ∧
      n.childText "name" ≠ "" := by
  simp [declaresType, Kind.typeDeclarations]

theorem types_enumerate (root : Node) :
    Enumerates (· < ·) (TypeAt root) (Records root) (types root) := by
  have h : types root = (root.placed.filter (declaresType ·.2)).map fun e => typeOf e.2 := by
    simp only [types, visited_eq_map_placed, List.filter_map, List.map_map]
    rfl
  rw [h]
  refine Enumerates.of_map (fun e => e.1) _ ((placed_increasing root).filter _) (fun p => ?_) ?_
  · constructor
    · rintro ⟨e, he, rfl⟩
      obtain ⟨he, hd⟩ := List.mem_filter.mp he
      obtain ⟨hne, hn⟩ := mem_placed_iff.mp he
      exact ⟨hne, e.2, hn, declaresType_iff.mp hd⟩
    · rintro ⟨hne, n, hn, hd⟩
      have hplaced : (p, n) ∈ root.placed := mem_placed_iff.mpr ⟨hne, hn⟩
      exact ⟨(p, n), List.mem_filter.mpr ⟨hplaced, declaresType_iff.mpr hd⟩, rfl⟩
  · intro e he
    obtain ⟨he, hd⟩ := List.mem_filter.mp he
    exact records_typeOf (mem_placed_iff.mp he).2 (declaresType_iff.mp hd).2

/-- The types of a program are its named type declarations, one for one and in document order, each
with the members of its own body. No method and no field belongs to two types, and a method without
a body has neither calls nor variables. -/
theorem structureOf_records (path : String) {root : Node} (h : root.kind = Kind.program) :
    ∃ source types, structureOf path (some root) = .ok (source, types) ∧
      Enumerates (· < ·) (TypeAt root) (Records root) types ∧
      (∀ p p' q, MethodAt root p q → MethodAt root p' q → p = p') ∧
      (∀ p p' q, DeclaratorAt root p q → DeclaratorAt root p' q → p = p') ∧
      ∀ n : Node, n.child? "body" = none →
        (method n).body = none ∧ (method n).calls = [] ∧ (method n).locals = [] := by
  refine ⟨sourceFile path root, types root, by simp [structureOf, h], types_enumerate root,
    fun p p' q hq hq' => hq.1.owner_unique hq'.1, fun p p' q hq hq' => hq.owner_unique hq', ?_⟩
  intro n hn
  simp [method, hn]

def sampleNode (kind : String) (field : Option String) (text : String) (children : List Node) :
    Node :=
  .mk ⟨kind, true, field, text, 0, 0, false, false⟩ children

/-- A class whose body holds a method without a body, a field, and an interface with another
method. -/
def sampleProgram : Node :=
  let named (text : String) : Node := sampleNode Kind.identifier (some "name") text []
  let typed (text : String) : Node := sampleNode Kind.typeIdentifier (some "type") text []
  let signature (type name : String) : Node :=
    sampleNode Kind.methodDeclaration none "" [typed type, named name]
  let rows := sampleNode "field_declaration" none "" [typed "int",
    sampleNode Kind.variableDeclarator (some "declarator") ""
      [named "rows", sampleNode "dimensions" (some "dimensions") "[ ]" []]]
  let inner := sampleNode Kind.interfaceDeclaration none ""
    [named "Inner", sampleNode "interface_body" (some "body") "" [signature "Row" "g"]]
  sampleNode Kind.program none "" [sampleNode Kind.classDeclaration none ""
    [named "Outer", sampleNode "class_body" (some "body") "" [signature "void" "f", inner, rows]]]

/-- The method of the inner type is not one of the outer type. -/
theorem sampleProgram_records : sampleProgram.kind = Kind.program ∧
    TypeAt sampleProgram [0] ∧ TypeAt sampleProgram [0, 1, 1] ∧
    MethodAt sampleProgram [0, 1, 1] [0, 1, 1, 1, 0] ∧
    ¬ MethodAt sampleProgram [0] [0, 1, 1, 1, 0] ∧
    DeclaratorAt sampleProgram [0] [0, 1, 2, 1] ∧
    ∃ source types, structureOf "/A.java" (some sampleProgram) = .ok (source, types) ∧
      Enumerates (· < ·) (TypeAt sampleProgram) (Records sampleProgram) types ∧
      types.map (fun t => t.methods.map fun m => (m.returnType, m.name)) =
        [[("void", "f")], [("Row", "g")]] ∧
      types.map (fun t => t.fields.map fun f => (f.type, f.name)) = [[("int[]", "rows")], []] := by
  have hk : sampleProgram.kind = Kind.program := rfl
  obtain ⟨source, types, h, ht, hm, -⟩ := structureOf_records "/A.java" hk
  have hg : MethodAt sampleProgram [0, 1, 1] [0, 1, 1, 1, 0] :=
    ⟨⟨_, 1, _, 0, _, rfl, rfl, rfl, rfl, rfl, rfl⟩, _, rfl, rfl⟩
  have hrows : DeclaratorAt sampleProgram [0] [0, 1, 2, 1] :=
    ⟨[0, 1, 2], _, 1, _, ⟨_, 1, _, 2, _, rfl, rfl, rfl, rfl, rfl, rfl⟩, rfl, by decide, rfl, rfl,
      rfl⟩
  have htypes : types = (sampleProgram.descendants.filter declaresType).map typeOf := by
    have hstructure : structureOf "/A.java" (some sampleProgram) =
        .ok (sourceFile "/A.java" sampleProgram, Extract.types sampleProgram) := rfl
    rw [← visited_eq_descendants]
    exact (Prod.ext_iff.mp (Except.ok.inj (h.symm.trans hstructure))).2
  refine ⟨hk, ⟨by simp, _, rfl, Or.inl rfl, by decide⟩, ⟨by simp, _, rfl, Or.inr rfl, by decide⟩,
    hg, fun hf => ?_, hrows, source, types, h, ht, ?_, ?_⟩
  · exact absurd (hm _ _ _ hf hg) (by simp)
  · rw [htypes]
    decide +kernel
  · rw [htypes]
    decide +kernel

end Extract

end CodeAtlas

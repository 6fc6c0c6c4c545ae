import Mathlib.Data.List.Find
import CodeAtlas.Proofs.Extract.Membership

/-! # Names of supertypes

A declaration names its supertypes in clauses, as types of the Java grammar. The simple name of a
type is its last identifier, apart from annotations and type arguments. The names that are recorded
are the simple names, but for a supertype that begins with annotations: it is recorded as it is
written.
-/

namespace CodeAtlas

namespace Kind

def superclass : String := "superclass"
def annotatedType : String := "annotated_type"
def typeArguments : String := "type_arguments"

end Kind

namespace Extract

open Node

mutual

/-- The type identifiers of a node in order, without those of annotations and type arguments. -/
def identifiers : Node → List Node
  | mk l cs =>
    if l.kind = Kind.typeArguments ∨ l.kind ∈ Kind.annotations then []
    else if l.kind = Kind.typeIdentifier then [mk l cs]
    else identifiersAmong cs

/-- The type identifiers of the named nodes among some. -/
def identifiersAmong : List Node → List Node
  | [] => []
  | c :: cs => (if c.label.named then identifiers c else []) ++ identifiersAmong cs

end

/-- The simple name of a type: the text of its last identifier. -/
def simpleName? (t : Node) : Option String := (identifiers t).getLast?.map text

theorem identifiersAmong_eq (cs : List Node) :
    identifiersAmong cs = (cs.filter (·.label.named)).flatMap identifiers := by
  induction cs with
  | nil => rfl
  | cons c cs ih => cases hc : c.label.named <;> simp [identifiersAmong, hc, ih]

theorem identifiers_eq (n : Node) : identifiers n =
    if n.kind = Kind.typeArguments ∨ n.kind ∈ Kind.annotations then []
    else if n.kind = Kind.typeIdentifier then [n]
    else n.namedChildren.flatMap identifiers := by
  cases n with
  | mk l cs =>
    rw [identifiers, identifiersAmong_eq]
    rfl

section Identifiers

variable {n : Node}

theorem identifiers_of_identifier (hk : n.kind = Kind.typeIdentifier) : identifiers n = [n] := by
  rw [identifiers_eq, if_neg (by rw [hk]; decide), if_pos hk]

theorem identifiers_of_mem_annotations (hk : n.kind ∈ Kind.annotations) : identifiers n = [] := by
  rw [identifiers_eq, if_pos (Or.inr hk)]

theorem identifiers_of_typeArguments (hk : n.kind = Kind.typeArguments) : identifiers n = [] := by
  rw [identifiers_eq, if_pos (Or.inl hk)]

theorem identifiers_of_other (ha : n.kind ≠ Kind.typeArguments) (hn : n.kind ∉ Kind.annotations)
    (hi : n.kind ≠ Kind.typeIdentifier) :
    identifiers n = n.namedChildren.flatMap identifiers := by
  rw [identifiers_eq, if_neg (not_or.mpr ⟨ha, hn⟩), if_neg hi]

theorem flatMap_identifiers_annotations {as : List Node} (h : ∀ a ∈ as, a.kind ∈ Kind.annotations) :
    as.flatMap identifiers = [] :=
  List.flatMap_eq_nil_iff.mpr fun a ha => identifiers_of_mem_annotations (h a ha)

end Identifiers

/-- A type without annotations before it. A qualifier may have type arguments, and annotations may
stand between it and the name. -/
inductive IsPlainType : Node → Prop
  | identifier {n : Node} (hk : n.kind = Kind.typeIdentifier) : IsPlainType n
  | qualified {n q c : Node} {as : List Node} (hk : n.kind = Kind.scopedType)
      (hq : IsPlainType q) (has : ∀ a ∈ as, a.kind ∈ Kind.annotations)
      (hc : c.kind = Kind.typeIdentifier) (hn : n.namedChildren = q :: (as ++ [c])) :
      IsPlainType n
  | generic {n b a : Node} (hk : n.kind = Kind.genericType) (hb : IsPlainType b)
      (hbase : b.kind ≠ Kind.genericType) (ha : a.kind = Kind.typeArguments)
      (hn : n.namedChildren = [b, a]) : IsPlainType n

structure IsAnnotatedType (n : Node) : Prop where
  kind_eq : n.kind = Kind.annotatedType
  parts : ∃ as b, as ≠ [] ∧ (∀ a ∈ as, a.kind ∈ Kind.annotations) ∧ IsPlainType b ∧
    n.namedChildren = as ++ [b]

def IsType (n : Node) : Prop := IsPlainType n ∨ IsAnnotatedType n

def recordedName? (t : Node) : Option String :=
  if t.kind = Kind.annotatedType then some t.text else simpleName? t

section Types

variable {n : Node}

theorem IsPlainType.kind_eq (h : IsPlainType n) :
    n.kind = Kind.typeIdentifier ∨ n.kind = Kind.scopedType ∨ n.kind = Kind.genericType := by
  cases h with
  | identifier hk => exact Or.inl hk
  | qualified hk => exact Or.inr (Or.inl hk)
  | generic hk => exact Or.inr (Or.inr hk)

theorem unqualifiedName_of_ne (hk : n.kind ≠ Kind.scopedType) : unqualifiedName n = n.text := by
  simp [unqualifiedName, hk]

theorem simpleTypeName_of_ne (hk : n.kind ≠ Kind.genericType) :
    simpleTypeName n = unqualifiedName n := by
  simp [simpleTypeName, hk]

theorem IsPlainType.simpleName?_eq (h : IsPlainType n) :
    simpleName? n = some (simpleTypeName n) := by
  induction h with
  | @identifier n hk =>
    have hg : n.kind ≠ Kind.genericType := by rw [hk]; decide
    have hs : n.kind ≠ Kind.scopedType := by rw [hk]; decide
    rw [simpleName?, identifiers_of_identifier hk, simpleTypeName_of_ne hg,
      unqualifiedName_of_ne hs]
    rfl
  | @qualified n q c as hk hq has hc hn ih =>
    have hg : n.kind ≠ Kind.genericType := by rw [hk]; decide
    have hids : identifiers n = identifiers q ++ [c] := by
      rw [identifiers_of_other (by rw [hk]; decide) (by rw [hk]; decide) (by rw [hk]; decide), hn,
        List.flatMap_cons, List.flatMap_append, flatMap_identifiers_annotations has,
        List.nil_append, List.flatMap_singleton, identifiers_of_identifier hc]
    -- The last identifier is the node's own, behind those of the qualifier.
    have hlast : (n.namedChildren.filter (·.kind == Kind.typeIdentifier)).getLast? = some c := by
      rw [hn, ← List.cons_append, List.filter_append, List.filter_singleton,
        beq_iff_eq.mpr hc, cond_true, List.getLast?_concat]
    rw [simpleName?, hids, List.getLast?_concat, simpleTypeName_of_ne hg, unqualifiedName,
      if_pos (beq_iff_eq.mpr hk), hlast]
    rfl
  | @generic n b a hk hb hbase ha hn ih =>
    have hids : identifiers n = identifiers b := by
      rw [identifiers_of_other (by rw [hk]; decide) (by rw [hk]; decide) (by rw [hk]; decide), hn,
        List.flatMap_cons, List.flatMap_singleton, identifiers_of_typeArguments ha,
        List.append_nil]
    have hfind : n.namedChildren.find? (fun c =>
        c.kind == Kind.typeIdentifier || c.kind == Kind.scopedType) = some b := by
      rw [hn, List.find?_cons_of_pos]
      rcases hb.kind_eq with h | h | h
      · simp [h]
      · simp [h]
      · exact absurd h hbase
    rw [simpleName?, hids, simpleTypeName, if_pos (beq_iff_eq.mpr hk), hfind]
    rw [simpleName?, simpleTypeName_of_ne hbase] at ih
    exact ih

theorem IsAnnotatedType.simpleTypeName_eq (h : IsAnnotatedType n) : simpleTypeName n = n.text := by
  rw [simpleTypeName_of_ne (by rw [h.kind_eq]; decide),
    unqualifiedName_of_ne (by rw [h.kind_eq]; decide)]

theorem IsType.recordedName?_eq (h : IsType n) : recordedName? n = some (simpleTypeName n) := by
  rcases h with h | h
  · have hk : n.kind ≠ Kind.annotatedType := by
      rcases h.kind_eq with hk | hk | hk <;> rw [hk] <;> decide
    rw [recordedName?, if_neg hk, h.simpleName?_eq]
  · rw [recordedName?, if_pos h.kind_eq, h.simpleTypeName_eq]

theorem IsAnnotatedType.exists_simpleName? (h : IsAnnotatedType n) : ∃ name,
    simpleName? n = some name := by
  obtain ⟨as, b, -, has, hb, hn⟩ := h.parts
  have hids : identifiers n = identifiers b := by
    rw [identifiers_of_other (by rw [h.kind_eq]; decide) (by rw [h.kind_eq]; decide)
      (by rw [h.kind_eq]; decide), hn, List.flatMap_append, flatMap_identifiers_annotations has,
      List.nil_append, List.flatMap_singleton]
  rw [simpleName?, hids]
  exact ⟨_, hb.simpleName?_eq⟩

theorem IsType.exists_simpleName? (h : IsType n) : ∃ name, simpleName? n = some name := by
  rcases h with h | h
  · exact ⟨_, h.simpleName?_eq⟩
  · exact h.exists_simpleName?

theorem IsType.kind_notMem_annotations (h : IsType n) : n.kind ∉ Kind.annotations := by
  rcases h with h | h
  · rcases h.kind_eq with hk | hk | hk <;> rw [hk] <;> decide
  · rw [h.kind_eq]
    decide

theorem IsType.ne_typeList (h : IsType n) : n.kind ≠ Kind.typeList := by
  rcases h with h | h
  · rcases h.kind_eq with hk | hk | hk <;> rw [hk] <;> decide
  · rw [h.kind_eq]
    decide

end Types

/-- The clause names types: one, or those of a list. -/
inductive Lists (clause : Node) : List Node → Prop
  | single {t : Node} (ht : IsType t) (hc : clause.namedChildren = [t]) : Lists clause [t]
  | several {l : Node} (hk : l.kind = Kind.typeList) (ht : ∀ t ∈ l.namedChildren, IsType t)
      (hc : clause.namedChildren = [l]) : Lists clause l.namedChildren

/-- The types that a node names in its clause of a kind; none without such a clause. -/
inductive NamesIn (n : Node) (kind : String) : List Node → Prop
  | absent (h : n.children.filter (·.kind == kind) = []) : NamesIn n kind []
  | present {c : Node} {ts : List Node} (h : n.children.filter (·.kind == kind) = [c])
      (hc : Lists c ts) : NamesIn n kind ts

/-- The types that a declaration extends and those that it implements. The clauses of a class fill
fields. -/
inductive Declares (n : Node) : List Node → List Node → Prop
  | interfaceType {ts : List Node} (hk : n.kind = Kind.interfaceDeclaration)
      (ht : NamesIn n Kind.extendsInterfaces ts) : Declares n ts []
  | classType {ss ts : List Node} (hk : n.kind = Kind.classDeclaration)
      (hs : NamesIn n Kind.superclass ss) (ht : NamesIn n Kind.superInterfaces ts)
      (hsuper : ∀ c ∈ n.children, c.fills "superclass" = (c.kind == Kind.superclass))
      (hinterfaces : ∀ c ∈ n.children, c.fills "interfaces" = (c.kind == Kind.superInterfaces)) :
      Declares n ss ts

section Clauses

variable {n : Node} {ts : List Node}

theorem Lists.isType {c : Node} (h : Lists c ts) : ∀ t ∈ ts, IsType t := by
  cases h with
  | single ht => simpa using ht
  | several _ ht => exact ht

theorem Lists.listedTypes_eq {c : Node} (h : Lists c ts) : listedTypes c = ts := by
  cases h with
  | single ht hc => simp [listedTypes, hc, ht.ne_typeList]
  | several hk _ hc => simp [listedTypes, hc, hk]

theorem NamesIn.isType {kind : String} (h : NamesIn n kind ts) : ∀ t ∈ ts, IsType t := by
  cases h with
  | absent => simp
  | present _ hc => exact hc.isType

/-- Each type of a clause has its name recorded, in order. -/
theorem NamesIn.map_recordedName? {kind : String} (h : NamesIn n kind ts) :
    ts.map recordedName? = (supertypeNames (n.childOfKind? kind)).map some := by
  have hfirst : n.childOfKind? kind = (n.children.filter (·.kind == kind)).head? := by
    rw [childOfKind?, List.head?_filter]
  rw [hfirst]
  cases h with
  | absent h => rw [h]; rfl
  | @present c ts h hc =>
    have hfilter : (listedTypes c).filter (fun t => !Kind.annotations.contains t.kind) = ts := by
      rw [hc.listedTypes_eq, List.filter_eq_self]
      intro t ht
      simpa using (hc.isType t ht).kind_notMem_annotations
    rw [h, List.head?_cons, supertypeNames, hfilter, List.map_map]
    exact List.map_congr_left fun t ht => (hc.isType t ht).recordedName?_eq

theorem Declares.isType {ss : List Node} (h : Declares n ss ts) : ∀ t ∈ ss ++ ts, IsType t := by
  cases h with
  | interfaceType _ ht => simpa using ht.isType
  | classType _ hs ht => exact List.forall_mem_append.mpr ⟨hs.isType, ht.isType⟩

theorem child?_eq_childOfKind? {field kind : String}
    (h : ∀ c ∈ n.children, c.fills field = (c.kind == kind)) :
    n.child? field = n.childOfKind? kind :=
  List.find?_congr h

theorem Declares.map_recordedName? {ss : List Node} (h : Declares n ss ts) :
    ss.map recordedName? = (supertypes n).1.map some ∧
      ts.map recordedName? = (supertypes n).2.map some := by
  cases h with
  | interfaceType hk ht =>
    rw [supertypes, if_pos (beq_iff_eq.mpr hk)]
    exact ⟨ht.map_recordedName?, rfl⟩
  | classType hk hs ht hsuper hinterfaces =>
    have hne : (n.kind == Kind.interfaceDeclaration) = false := by
      rw [hk]
      decide
    rw [supertypes, hne, child?_eq_childOfKind? hsuper, child?_eq_childOfKind? hinterfaces]
    refine ⟨hs.map_recordedName?, ?_⟩
    rw [ht.map_recordedName?]
    cases n.childOfKind? Kind.superInterfaces <;> rfl

theorem map_simpleName?_iff (ts : List Node) : ts.map simpleName? = ts.map recordedName? ↔
    ∀ t ∈ ts, t.kind = Kind.annotatedType → simpleName? t = some t.text := by
  rw [List.map_inj_left]
  refine forall₂_congr fun t _ => ?_
  by_cases hk : t.kind = Kind.annotatedType
  · simp [recordedName?, hk]
  · simp [recordedName?, hk]

end Clauses

/-- One name is recorded for each declared supertype, in order and in the list of its clause: its
simple name, or its text if it begins with annotations. So the recorded names are the simple names
exactly if no such text is other than the simple name. -/
theorem supertypes_of_declares {n : Node} {ss ts : List Node} (h : Declares n ss ts) :
    (∀ t ∈ ss ++ ts, ∃ name, simpleName? t = some name) ∧
    ss.map recordedName? = (supertypes n).1.map some ∧
    ts.map recordedName? = (supertypes n).2.map some ∧
    (ss.map simpleName? = (supertypes n).1.map some ∧
        ts.map simpleName? = (supertypes n).2.map some ↔
      ∀ t ∈ ss ++ ts, t.kind = Kind.annotatedType → simpleName? t = some t.text) := by
  obtain ⟨hs, ht⟩ := h.map_recordedName?
  refine ⟨fun t ht => (h.isType t ht).exists_simpleName?, hs, ht, ?_⟩
  rw [← hs, ← ht, map_simpleName?_iff, map_simpleName?_iff, List.forall_mem_append]

section Sample

def sampleIdentifier (text : String) : Node := sampleNode Kind.typeIdentifier none text []

def sampleArguments : Node := sampleNode Kind.typeArguments none "" [sampleIdentifier "X"]

/-- The type `Map<X>.@A Entry<X>`. -/
def sampleEntry : Node :=
  sampleNode Kind.genericType none ""
    [sampleNode Kind.scopedType none ""
      [sampleNode Kind.genericType none "" [sampleIdentifier "Map", sampleArguments],
        sampleNode "marker_annotation" none "@A" [], sampleIdentifier "Entry"], sampleArguments]

def sampleAnnotated : Node :=
  sampleNode Kind.annotatedType none "@A B"
    [sampleNode "marker_annotation" none "@A" [], sampleIdentifier "B"]

def sampleSubclass (extended implemented : Node) : Node :=
  sampleNode Kind.classDeclaration none ""
    [sampleNode Kind.superclass (some "superclass") "" [extended],
      sampleNode Kind.superInterfaces (some "interfaces") ""
        [sampleNode Kind.typeList none "" [implemented]]]

theorem isPlainType_sampleIdentifier (text : String) : IsPlainType (sampleIdentifier text) :=
  .identifier rfl

theorem isPlainType_sampleEntry : IsPlainType sampleEntry := by
  have hmarker : ∀ a ∈ [sampleNode "marker_annotation" none "@A" []],
      a.kind ∈ Kind.annotations := by decide
  exact .generic rfl
    (.qualified rfl (.generic rfl (isPlainType_sampleIdentifier "Map") (by decide) rfl rfl) hmarker
      rfl rfl)
    (by decide) rfl rfl

theorem namedChildren_sampleNode (kind : String) (field : Option String) {t : Node}
    (h : t.label.named = true) : (sampleNode kind field "" [t]).namedChildren = [t] := by
  simp [namedChildren, sampleNode, children, h]

theorem declares_sampleSubclass {s t : Node} (hs : IsType s) (hsNamed : s.label.named = true)
    (ht : IsType t) (htNamed : t.label.named = true) :
    Declares (sampleSubclass s t) [s] [t] := by
  let l := sampleNode Kind.typeList none "" [t]
  have hl : l.namedChildren = [t] := namedChildren_sampleNode _ _ htNamed
  have hlists : Lists (sampleNode Kind.superInterfaces (some "interfaces") "" [l]) [t] := by
    rw [← hl]
    exact .several rfl (by simpa [hl] using ht) rfl
  exact .classType rfl (.present rfl (.single hs (namedChildren_sampleNode _ _ hsNamed)))
    (.present rfl hlists) (List.forall_mem_cons.mpr ⟨rfl, List.forall_mem_singleton.mpr rfl⟩)
    (List.forall_mem_cons.mpr ⟨rfl, List.forall_mem_singleton.mpr rfl⟩)

/-- Qualifiers, type arguments and annotations before the last name are left out. -/
theorem sampleSubclass_supertypes :
    Declares (sampleSubclass sampleEntry (sampleIdentifier "C")) [sampleEntry]
      [sampleIdentifier "C"] ∧
    simpleName? sampleEntry = some "Entry" ∧
    (supertypes (sampleSubclass sampleEntry (sampleIdentifier "C"))).1 = ["Entry"] := by
  have hdeclares := declares_sampleSubclass (Or.inl isPlainType_sampleEntry) rfl
    (Or.inl (isPlainType_sampleIdentifier "C")) rfl
  have hnames := (supertypes_of_declares hdeclares).2.2.2.mpr (by decide)
  have hentry : simpleName? sampleEntry = some "Entry" := by decide
  refine ⟨hdeclares, hentry, ?_⟩
  have hfirst : ["Entry"].map some =
      (supertypes (sampleSubclass sampleEntry (sampleIdentifier "C"))).1.map some :=
    (congrArg (fun name => [name]) hentry).symm.trans hnames.1
  exact (List.map_injective_iff.mpr (fun _ _ => Option.some.inj) hfirst).symm

/-- Annotations before a type are recorded with it. -/
theorem sampleSubclass_annotated :
    Declares (sampleSubclass sampleAnnotated (sampleIdentifier "C")) [sampleAnnotated]
      [sampleIdentifier "C"] ∧
    simpleName? sampleAnnotated = some "B" ∧
    (supertypes (sampleSubclass sampleAnnotated (sampleIdentifier "C"))).1 = ["@A B"] := by
  have hannotated : IsAnnotatedType sampleAnnotated :=
    ⟨rfl, [_], _, by simp, by decide, isPlainType_sampleIdentifier "B", rfl⟩
  exact ⟨declares_sampleSubclass (Or.inr hannotated) rfl
    (Or.inl (isPlainType_sampleIdentifier "C")) rfl, by decide, by decide⟩

end Sample

end Extract

end CodeAtlas

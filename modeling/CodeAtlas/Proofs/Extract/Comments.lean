import CodeAtlas.Extract.Types
import CodeAtlas.Pipeline.Classifier
import CodeAtlas.Proofs.Extract.Membership
import CodeAtlas.Proofs.Tree.WithoutComments

/-! # Comments and extraction

Leaving out the comments of a program changes neither its header nor its stages. It changes its
types exactly where a comment is read as a supertype, or as the type of a parameter of a variable
number of arguments.
-/

namespace CodeAtlas

open Node

namespace Extract

variable {n : Node}

@[simp] theorem unqualifiedName_withoutComments (n : Node) :
    unqualifiedName n.withoutComments = unqualifiedName n := by
  unfold unqualifiedName
  rw [kind_withoutComments, text_withoutComments, namedChildren_withoutComments,
    filter_map_withoutComments (by simp) ?_, List.getLast?_map]
  · cases ((n.namedChildren.filter (·.kind == Kind.typeIdentifier)).getLast?) <;> simp
  · intro c _ hc
    exact isComment_eq_false (beq_iff_eq.mp hc) (by decide)

@[simp] theorem simpleTypeName_withoutComments (n : Node) :
    simpleTypeName n.withoutComments = simpleTypeName n := by
  unfold simpleTypeName
  rw [kind_withoutComments, text_withoutComments, unqualifiedName_withoutComments,
    namedChildren_withoutComments, find?_map_withoutComments (by simp) ?_]
  · cases n.namedChildren.find? fun c =>
      c.kind == Kind.typeIdentifier || c.kind == Kind.scopedType <;> simp
  · intro c _ hc
    rcases (Bool.or_eq_true ..).mp hc with hc | hc
    · exact isComment_eq_false (beq_iff_eq.mp hc) (by decide)
    · exact isComment_eq_false (beq_iff_eq.mp hc) (by decide)

theorem declaredType_withoutComments {m : Node} (hn : n.CommentsApart) (hm : m.CommentsApart) :
    declaredType n.withoutComments m.withoutComments = declaredType n m := by
  simp only [declaredType, dimensionsText, childText_withoutComments hn,
    childText_withoutComments hm]

theorem listedTypes_withoutComments (clause : Node) :
    listedTypes clause.withoutComments =
      ((listedTypes clause).filter (!·.isComment)).map withoutComments := by
  unfold listedTypes
  rw [namedChildren_withoutComments]
  induction clause.namedChildren with
  | nil => rfl
  | cons c cs ih =>
    rw [List.flatMap_cons, List.filter_append, List.map_append, ← ih]
    cases hc : c.isComment with
    | true =>
      simp [hc, kind_ne_of_isComment hc Kind.typeList (by decide)]
    | false =>
      by_cases hk : c.kind = Kind.typeList <;> simp [hc, hk, namedChildren_withoutComments]

/-- An entry of a clause that is a comment has no like in the tree without comments. -/
theorem supertypeNames_withoutComments_iff (clause : Option Node) :
    supertypeNames (clause.map withoutComments) = supertypeNames clause ↔
      ∀ c ∈ clause, ∀ t ∈ listedTypes c, t.isComment = false := by
  cases clause with
  | none => simp [supertypeNames]
  | some c =>
    have hnames : supertypeNames (some c.withoutComments) =
        (((listedTypes c).filter fun t => !Kind.annotations.contains t.kind).filter
          (!·.isComment)).map simpleTypeName := by
      simp only [supertypeNames, listedTypes_withoutComments, List.filter_map, List.map_map,
        Function.comp_def, kind_withoutComments, simpleTypeName_withoutComments,
        List.filter_filter, Bool.and_comm]
    rw [Option.map_some, hnames, supertypeNames]
    simp only [Option.mem_some_iff, forall_eq']
    constructor
    · intro h t ht
      have hlength := congrArg List.length h
      rw [List.length_map, List.length_map, List.length_filter_eq_length_iff] at hlength
      by_contra hc
      have hk : Kind.annotations.contains t.kind = false := by
        simp only [isComment, Bool.not_eq_false, Bool.or_eq_true, beq_iff_eq] at hc
        rcases hc with hc | hc <;> simp [hc, Kind.annotations]
      exact hc (by simpa using hlength t (List.mem_filter.mpr ⟨ht, by simpa using hk⟩))
    · intro h
      rw [List.filter_eq_self.mpr]
      intro t ht
      simp [h t (List.mem_of_mem_filter ht)]

def superClauses (n : Node) : List Node :=
  if n.kind == Kind.interfaceDeclaration then (n.childOfKind? Kind.extendsInterfaces).toList
  else (n.child? "superclass").toList ++
    (n.child? "interfaces" <|> n.childOfKind? Kind.superInterfaces).toList

theorem supertypes_withoutComments_iff (h : n.CommentsApart) :
    supertypes n.withoutComments = supertypes n ↔
      ∀ c ∈ superClauses n, ∀ t ∈ listedTypes c, t.isComment = false := by
  unfold supertypes superClauses
  rw [kind_withoutComments]
  split
  · rw [childOfKind?_withoutComments (by decide), Prod.mk.injEq, supertypeNames_withoutComments_iff]
    simp
  · have horElse : (n.withoutComments.child? "interfaces" <|>
          n.withoutComments.childOfKind? Kind.superInterfaces) =
        (n.child? "interfaces" <|> n.childOfKind? Kind.superInterfaces).map withoutComments := by
      rw [child?_withoutComments h, childOfKind?_withoutComments (by decide)]
      cases n.child? "interfaces" <;> rfl
    rw [horElse, child?_withoutComments h, Prod.mk.injEq, supertypeNames_withoutComments_iff,
      supertypeNames_withoutComments_iff]
    simp [or_imp, forall_and]

theorem hasModifier_withoutComments (n : Node) (modifier : String)
    (hm : modifier ≠ "line_comment" ∧ modifier ≠ "block_comment") :
    hasModifier n.withoutComments modifier = hasModifier n modifier := by
  have hbelow (c : Node) : c.withoutComments.children.any (·.kind == modifier) =
      c.children.any (·.kind == modifier) := by
    rw [children_withoutComments, any_map_withoutComments (by simp)]
    exact fun d _ hd => isComment_eq_false (beq_iff_eq.mp hd) hm
  unfold hasModifier
  rw [children_withoutComments, any_map_withoutComments (by simp [hbelow])]
  intro c _ hc
  exact isComment_eq_false (beq_iff_eq.mp ((Bool.and_eq_true ..).mp hc).1) (by decide)

/-- The text read as the type of a parameter of a variable number of arguments with such parts. -/
def spreadTypeText (parts : List Node) : String :=
  ((parts.find? fun c => c.kind != Kind.variableDeclarator && c.kind != Kind.modifiers).map
    Node.text).getD ""

theorem spreadTypeText_map_withoutComments (parts : List Node) :
    spreadTypeText (parts.map withoutComments) = spreadTypeText parts := by
  simp [spreadTypeText, List.find?_map, Function.comp_def]

theorem spreadParameter_eq (n : Node) : spreadParameter n =
    ⟨(((n.namedChildren.filter (·.kind == Kind.variableDeclarator)).getLast?).getD n).childText
      "name", spreadTypeText n.namedChildren ++ "..."⟩ := rfl

theorem spreadParameter_withoutComments (h : n.CommentsApart) :
    spreadParameter n.withoutComments = { spreadParameter n with
      type := spreadTypeText (n.namedChildren.filter (!·.isComment)) ++ "..." } := by
  rw [spreadParameter_eq, spreadParameter_eq, namedChildren_withoutComments,
    spreadTypeText_map_withoutComments, filter_map_withoutComments (by simp)
    fun c _ hc => isComment_eq_false (beq_iff_eq.mp hc) (by decide), List.getLast?_map]
  cases hd : (n.namedChildren.filter (·.kind == Kind.variableDeclarator)).getLast? with
  | none => simp [childText_withoutComments h]
  | some d =>
    have hm : d ∈ n.children :=
      List.mem_of_mem_filter (List.mem_of_mem_filter (List.mem_of_getLast? hd))
    simp [childText_withoutComments (h.of_mem_children hm)]

theorem parameter?_withoutComments_iff (h : n.CommentsApart) :
    parameter? n.withoutComments = parameter? n ↔ (n.kind = Kind.spreadParameter →
      spreadTypeText (n.namedChildren.filter (!·.isComment)) = spreadTypeText n.namedChildren) := by
  simp only [parameter?, kind_withoutComments, beq_iff_eq]
  by_cases hf : n.kind = Kind.formalParameter
  · have hs : n.kind ≠ Kind.spreadParameter := by rw [hf]; decide
    simp only [if_pos hf, childText_withoutComments h, declaredType_withoutComments h h, hs,
      false_implies]
  · rw [if_neg hf, if_neg hf]
    by_cases hs : n.kind = Kind.spreadParameter
    · rw [if_pos hs, if_pos hs, spreadParameter_withoutComments h, spreadParameter_eq]
      simp [hs]
    · rw [if_neg hs, if_neg hs]
      simp [hs]

theorem isSome_parameter?_withoutComments (n : Node) :
    (parameter? n.withoutComments).isSome = (parameter? n).isSome := by
  unfold parameter?
  rw [kind_withoutComments]
  split
  · rfl
  · split <;> rfl

theorem isComment_of_isSome_parameter? (h : (parameter? n).isSome = true) :
    n.isComment = false := by
  unfold parameter? at h
  split at h
  · next hk => exact isComment_eq_false (beq_iff_eq.mp hk) (by decide)
  · split at h
    · next hk => exact isComment_eq_false (beq_iff_eq.mp hk) (by decide)
    · simp at h

theorem filterMap_eq_filterMap_iff {α β : Type} {f g : α → Option β} {xs : List α}
    (h : ∀ x ∈ xs, (f x).isSome = (g x).isSome) :
    xs.filterMap f = xs.filterMap g ↔ ∀ x ∈ xs, f x = g x := by
  induction xs with
  | nil => simp
  | cons x xs ih =>
    have ih := ih fun y hy => h y (List.mem_cons_of_mem x hy)
    have hx := h x List.mem_cons_self
    cases hf : f x <;> cases hg : g x <;> simp_all

theorem parameters_withoutComments_iff (h : n.CommentsApart) :
    parameters n.withoutComments = parameters n ↔ ∀ ps ∈ n.child? "parameters",
      ∀ p ∈ ps.namedChildren, p.kind = Kind.spreadParameter →
        spreadTypeText (p.namedChildren.filter (!·.isComment)) =
          spreadTypeText p.namedChildren := by
  unfold parameters
  rw [child?_withoutComments h]
  cases hps : n.child? "parameters" with
  | none => simp
  | some ps =>
    have hlist : (ps.withoutComments.namedChildren).filterMap parameter? =
        ps.namedChildren.filterMap fun p => parameter? p.withoutComments := by
      rw [namedChildren_withoutComments, List.filterMap_map, List.filterMap_filter]
      refine List.filterMap_congr fun p _ => ?_
      cases hp : p.isComment with
      | false => simp
      | true =>
        have hnone : parameter? p = none := by
          by_contra hsome
          simp [isComment_of_isSome_parameter? (Option.isSome_iff_ne_none.mpr hsome)] at hp
        have := isSome_parameter?_withoutComments p
        simp_all
    simp only [Option.map_some, hlist, Option.mem_some_iff, forall_eq']
    rw [filterMap_eq_filterMap_iff fun p _ => isSome_parameter?_withoutComments p]
    refine forall₂_congr fun p hp => ?_
    exact parameter?_withoutComments_iff
      ((h.of_child? hps).of_mem_children (List.mem_of_mem_filter hp))

theorem calls_withoutComments (h : n.CommentsApart) : calls n.withoutComments = calls n := by
  unfold calls
  rw [visited_withoutComments h, List.filterMap_map, List.filterMap_filter, visited_eq_descendants]
  refine List.filterMap_congr fun m hm => ?_
  have hm := h.of_mem_descendants hm
  cases hc : m.isComment with
  | true =>
    simp [callName?, kind_ne_of_isComment hc Kind.methodInvocation (by decide)]
  | false => simp [callName?, child?_withoutComments hm, Function.comp_def]

theorem declared?_withoutComments {p : Node} (hp : p.CommentsApart) (h : n.CommentsApart) :
    declared? p.withoutComments n.withoutComments = declared? p n := by
  simp [declared?, child?_withoutComments h, childText_withoutComments h,
    declaredType_withoutComments hp h, declaredType_withoutComments h h, Function.comp_def]

theorem locals_withoutComments (h : n.CommentsApart) : locals n.withoutComments = locals n := by
  have hd : HandsDownAlike withoutComments (fun p _ _ => p) (fun p _ _ => p) :=
    fun _ _ _ _ _ _ _ _ => rfl
  unfold locals withParents
  rw [visitedWith_withoutComments hd h, visitWithoutComments, List.filterMap_map,
    List.filterMap_filter, visitedWith_eq_map_placed]
  refine List.filterMap_congr fun e he => ?_
  obtain ⟨⟨p, m⟩, hm, rfl⟩ := List.mem_map.mp he
  obtain ⟨hne, hm⟩ := mem_placed_iff.mp hm
  cases hc : m.isComment with
  | true =>
    simp [declared?, kind_ne_of_isComment hc Kind.variableDeclarator (by decide),
      kind_ne_of_isComment hc Kind.enhancedFor (by decide),
      kind_ne_of_isComment hc Kind.resource (by decide)]
  | false =>
    simp [declared?_withoutComments (h.of_at? (at?_dropLast n hne hm)) (h.of_at? hm)]

theorem method_withoutComments_iff (h : n.CommentsApart) :
    method n.withoutComments = method n ↔ parameters n.withoutComments = parameters n := by
  have hbody {β : Type} (f : Node → β) (hf : ∀ b : Node, b.CommentsApart →
      f b.withoutComments = f b) :
      (n.withoutComments.child? "body").map f = (n.child? "body").map f := by
    rw [child?_withoutComments h]
    cases hb : n.child? "body" with
    | none => rfl
    | some b => simp [hf b (h.of_child? hb)]
  simp only [method, hbody _ fun _ => calls_withoutComments,
    hbody _ fun _ => locals_withoutComments,
    hbody _ fun b _ => text_withoutComments b, childText_withoutComments h,
    declaredType_withoutComments h h, hasModifier_withoutComments n "public" (by decide),
    hasModifier_withoutComments n "static" (by decide), Method.mk.injEq, true_and,
    and_true]

theorem fields_withoutComments (h : n.CommentsApart) : fields n.withoutComments = fields n := by
  unfold fields
  rw [childrenAt_withoutComments h, List.map_map]
  refine List.map_congr_left fun d hd => ?_
  have hd := h.of_mem_children (List.mem_of_mem_filter hd)
  simp [field, childText_withoutComments hd, declaredType_withoutComments h hd,
    hasModifier_withoutComments n "public" (by decide),
    hasModifier_withoutComments n "static" (by decide), child?_withoutComments hd,
    Function.comp_def]

/-- No comment is read as a supertype of a declaration, and none in the place of the type of a
parameter of one of its methods. -/
structure ReadsNoComment (n : Node) : Prop where
  supertypes : ∀ c ∈ superClauses n, ∀ t ∈ listedTypes c, t.isComment = false
  parameters : ∀ m ∈ members n, m.kind = Kind.methodDeclaration → ∀ ps ∈ m.child? "parameters",
    ∀ p ∈ ps.namedChildren, p.kind = Kind.spreadParameter →
      spreadTypeText (p.namedChildren.filter (!·.isComment)) = spreadTypeText p.namedChildren

instance (n : Node) : Decidable (ReadsNoComment n) :=
  decidable_of_iff ((∀ c ∈ superClauses n, ∀ t ∈ listedTypes c, t.isComment = false) ∧
    ∀ m ∈ members n, m.kind = Kind.methodDeclaration → ∀ ps ∈ m.child? "parameters",
      ∀ p ∈ ps.namedChildren, p.kind = Kind.spreadParameter →
        spreadTypeText (p.namedChildren.filter (!·.isComment)) = spreadTypeText p.namedChildren)
    ⟨fun h => ⟨h.1, h.2⟩, fun h => ⟨h.supertypes, h.parameters⟩⟩

theorem members_withoutComments (h : n.CommentsApart) :
    members n.withoutComments = ((members n).filter (!·.isComment)).map withoutComments := by
  unfold members
  rw [child?_withoutComments h]
  cases n.child? "body" with
  | none => rfl
  | some b => exact namedChildren_withoutComments b

theorem commentsApart_of_mem_members {m : Node} (h : n.CommentsApart) (hm : m ∈ members n) :
    m.CommentsApart := by
  unfold members at hm
  cases hb : n.child? "body" with
  | none => simp [hb] at hm
  | some b =>
    rw [hb] at hm
    exact (h.of_child? hb).of_mem_children (List.mem_of_mem_filter hm)

theorem fieldsOf_withoutComments (h : n.CommentsApart) :
    (typeOf n.withoutComments).fields = (typeOf n).fields := by
  simp only [typeOf]
  rw [members_withoutComments h, filter_map_withoutComments (by simp) ?_, List.flatMap_map]
  · refine List.flatMap_congr fun m hm => ?_
    exact fields_withoutComments (commentsApart_of_mem_members h (List.mem_of_mem_filter hm))
  · intro m _ hk
    rcases List.mem_cons.mp (List.contains_iff_mem.mp hk) with hk | hk
    · exact isComment_eq_false hk (by decide)
    · exact isComment_eq_false (List.mem_singleton.mp hk) (by decide)

theorem methodsOf_withoutComments_iff (h : n.CommentsApart) :
    (typeOf n.withoutComments).methods = (typeOf n).methods ↔
      ∀ m ∈ members n, m.kind = Kind.methodDeclaration →
        parameters m.withoutComments = parameters m := by
  simp only [typeOf]
  rw [members_withoutComments h, filter_map_withoutComments (by simp)
    fun m _ hk => isComment_eq_false (beq_iff_eq.mp hk) (by decide), List.map_map,
    List.map_inj_left]
  simp only [List.mem_filter, beq_iff_eq, and_imp, Function.comp_apply]
  exact forall₂_congr fun m hm => forall_congr' fun _ =>
    method_withoutComments_iff (commentsApart_of_mem_members h hm)

theorem typeOf_withoutComments_iff (h : n.CommentsApart) :
    typeOf n.withoutComments = typeOf n ↔ ReadsNoComment n := by
  have hext : typeOf n.withoutComments = typeOf n ↔
      supertypes n.withoutComments = supertypes n ∧
        (typeOf n.withoutComments).methods = (typeOf n).methods := by
    constructor
    · intro he
      exact ⟨Prod.ext (congrArg (·.extended) he) (congrArg (·.implemented) he),
        congrArg (·.methods) he⟩
    · rintro ⟨hs, hm⟩
      have hf := fieldsOf_withoutComments h
      simp only [typeOf] at hm hf ⊢
      simp only [childText_withoutComments h, kind_withoutComments, hs, hm, hf]
  rw [hext, supertypes_withoutComments_iff h, methodsOf_withoutComments_iff h]
  constructor
  · rintro ⟨hs, hm⟩
    exact ⟨hs, fun m hmem hk => (parameters_withoutComments_iff
      (commentsApart_of_mem_members h hmem)).mp (hm m hmem hk)⟩
  · rintro ⟨hs, hm⟩
    exact ⟨hs, fun m hmem hk => (parameters_withoutComments_iff
      (commentsApart_of_mem_members h hmem)).mpr (hm m hmem hk)⟩

theorem declaresType_withoutComments (h : n.CommentsApart) :
    declaresType n.withoutComments = declaresType n := by
  simp [declaresType, childText_withoutComments h]

theorem types_withoutComments_iff {root : Node} (h : root.CommentsApart) :
    types root.withoutComments = types root ↔
      ∀ n ∈ root.descendants, declaresType n = true → ReadsNoComment n := by
  have htypes : types root.withoutComments =
      (root.descendants.filter declaresType).map fun n => typeOf n.withoutComments := by
    rw [types, visited_withoutComments h, List.filter_map, List.map_map, List.filter_filter,
      visited_eq_descendants]
    refine congrArg (List.map _) (List.filter_congr fun n hn => ?_)
    rw [Function.comp_apply, declaresType_withoutComments (h.of_mem_descendants hn)]
    cases hc : n.isComment with
    | false => simp
    | true =>
      simp [declaresType, Kind.typeDeclarations,
        kind_ne_of_isComment hc Kind.classDeclaration (by decide),
        kind_ne_of_isComment hc Kind.interfaceDeclaration (by decide)]
  rw [htypes, types, visited_eq_descendants, List.map_inj_left]
  simp only [List.mem_filter, and_imp]
  exact forall₂_congr fun n hn => forall_congr' fun _ =>
    typeOf_withoutComments_iff (h.of_mem_descendants hn)

theorem qualifiedName?_withoutComments (n : Node) :
    qualifiedName? n.withoutComments = qualifiedName? n := by
  unfold qualifiedName?
  rw [namedChildren_withoutComments, find?_map_withoutComments (by simp) ?_]
  · simp [Function.comp_def]
  · intro c _ hk
    rcases List.mem_cons.mp (List.contains_iff_mem.mp hk) with hk | hk
    · exact isComment_eq_false hk (by decide)
    · exact isComment_eq_false (List.mem_singleton.mp hk) (by decide)

theorem headerNames_withoutComments (root : Node) (kind : String)
    (hc : kind ≠ "line_comment" ∧ kind ≠ "block_comment") :
    headerNames root.withoutComments kind = headerNames root kind := by
  unfold headerNames
  rw [namedChildren_withoutComments, filter_map_withoutComments (by simp)
    fun c _ hk => isComment_eq_false (beq_iff_eq.mp hk) hc, List.filterMap_map]
  simp [qualifiedName?_withoutComments]

theorem sourceFile_withoutComments (path : String) (root : Node) :
    sourceFile path root.withoutComments = sourceFile path root := by
  simp [sourceFile, headerNames_withoutComments root Kind.packageDeclaration (by decide),
    headerNames_withoutComments root Kind.importDeclaration (by decide)]

end Extract

namespace Classifier

variable {n : Node}

theorem isFirstAt_withoutComments {field : String} {before after : List Node} {c : Node}
    (h : n.CommentsApart) (hn : n.children = before ++ c :: after) (hc : c.isComment = false) :
    isFirstAt n.withoutComments field (before.filter (!·.isComment)).length =
      isFirstAt n field before.length := by
  have hchildren : n.withoutComments.children =
      (before.filter (!·.isComment)).map withoutComments ++ c.withoutComments ::
        (after.filter (!·.isComment)).map withoutComments := by
    simp [children_withoutComments, hn, hc]
  have hlength : (before.filter (!·.isComment)).length =
      ((before.filter (!·.isComment)).map withoutComments).length := (List.length_map _).symm
  rw [isFirstAt, isFirstAt, hchildren, hn, hlength, Bool.eq_iff_iff, beq_iff_eq, beq_iff_eq,
    findIdx?_eq_some_length_iff, findIdx?_eq_some_length_iff, List.forall_mem_map]
  simp only [List.mem_filter, Bool.not_eq_true', and_imp, fills_withoutComments]
  constructor
  · rintro ⟨hb, hf⟩
    refine ⟨fun b hm => ?_, hf⟩
    cases hbc : b.isComment with
    | false => exact hb b hm hbc
    | true =>
      by_contra hfills
      have := h.isComment_of_fills (by simp [hn, hm]) ((Bool.not_eq_false _).mp hfills)
      simp [this] at hbc
  · rintro ⟨hb, hf⟩
    exact ⟨fun b hm _ => hb b hm, hf⟩

theorem storedIn_handsDownAlike : HandsDownAlike id storedIn storedIn := by
  intro p outer before after c h hp hc
  have hleft : p.withoutComments.child? "left" = (p.child? "left").map withoutComments :=
    child?_withoutComments h
  simp only [storedIn, kind_withoutComments, childText_withoutComments h, hleft,
    isFirstAt_withoutComments h hp hc, id]
  cases p.child? "left" <;> simp

theorem arguments_withoutComments (h : n.CommentsApart) :
    arguments n.withoutComments = arguments n := by
  unfold arguments
  rw [child?_withoutComments h]
  cases n.child? "arguments" with
  | none => rfl
  | some list =>
    simp only [Option.map_some]
    rw [namedChildren_withoutComments, filter_map_withoutComments (by simp) ?_, List.map_map]
    · simp [Function.comp_def]
    · intro c _ hk
      by_contra hc
      simp only [isComment, Bool.not_eq_false, Bool.or_eq_true, beq_iff_eq] at hc
      rcases hc with hc | hc <;> simp [hc, Kind.comments] at hk

theorem receiver?_withoutComments (h : n.CommentsApart) :
    receiver? n.withoutComments = receiver? n := by
  unfold receiver?
  rw [child?_withoutComments h]
  cases n.child? "object" <;> simp

theorem addStages_withoutComments (v : Vocabulary) (found : Array (Stage String))
    (stored : Option String) (h : n.CommentsApart) :
    addStages v found stored n.withoutComments = addStages v found stored n := by
  simp [addStages, binding, childText_withoutComments h, arguments_withoutComments h,
    receiver?_withoutComments h]

theorem addStages_of_isComment (v : Vocabulary) (found : Array (Stage String))
    (stored : Option String) (h : n.isComment = true) : addStages v found stored n = found := by
  simp [addStages, kind_ne_of_isComment h Kind.methodInvocation (by decide)]

theorem stages_withoutComments (v : Vocabulary) {root : Node} (h : root.CommentsApart) :
    stages v root.withoutComments = stages v root := by
  unfold stages
  dsimp only
  have hvisit := visitedWith_withoutComments storedIn_handsDownAlike h none
  rw [id] at hvisit
  rw [hvisit, visitWithoutComments, List.foldl_map, List.foldl_filter]
  congr 1
  refine List.foldl_ext _ _ _ fun found e he => ?_
  rw [visitedWith_eq_map_placed] at he
  obtain ⟨⟨p, n⟩, hm, rfl⟩ := List.mem_map.mp he
  have hn := h.of_at? (mem_placed_iff.mp hm).2
  cases hc : n.isComment with
  | false => simp [addStages_withoutComments v found _ hn]
  | true => simp [addStages_of_isComment v found _ hc]

end Classifier

namespace Extract

/-- Leaving out the comments of a program changes neither its header nor its stages. It changes its
types exactly where a comment is read as a supertype or in the place of the type of a parameter. -/
theorem structureOf_withoutComments_iff (path : String) {root : Node}
    (hp : root.kind = Kind.program) (h : root.CommentsApart) :
    (structureOf path (some root.withoutComments) = structureOf path (some root) ↔
      ∀ n ∈ root.descendants, declaresType n = true → ReadsNoComment n) ∧
      sourceFile path root.withoutComments = sourceFile path root ∧
      ∀ v, Classifier.stages v root.withoutComments = Classifier.stages v root := by
  refine ⟨?_, sourceFile_withoutComments path root, fun v => Classifier.stages_withoutComments v h⟩
  rw [← types_withoutComments_iff h]
  simp [structureOf, hp, sourceFile_withoutComments]

def sampleComment : Node := sampleNode "block_comment" none "/* c */" []

/-- A class with a superclass and a method that takes any number of arguments. The clause of the
superclass and the parameter open with further nodes. -/
def sampleHeader (inClause inParameter : List Node) : Node :=
  let named (text : String) : Node := sampleNode Kind.identifier (some "name") text []
  let type (text : String) : Node := sampleNode Kind.typeIdentifier none text []
  let spread := sampleNode Kind.spreadParameter none ""
    (inParameter ++ [type "String", sampleNode Kind.variableDeclarator none "" [named "xs"]])
  let method := sampleNode Kind.methodDeclaration none "" [sampleComment, named "f",
    sampleNode "formal_parameters" (some "parameters") "" [sampleComment, spread],
    sampleNode "block" (some "body") "" [sampleComment]]
  sampleNode Kind.program none "" [sampleComment, sampleNode Kind.classDeclaration none ""
    [named "A", sampleNode "superclass" (some "superclass") "" (inClause ++ [type "B"]),
      sampleNode "class_body" (some "body") "" [sampleComment, method]]]

/-- Comments elsewhere are not read. -/
theorem sampleHeader_withoutComments : (sampleHeader [] []).kind = Kind.program ∧
    (sampleHeader [] []).CommentsApart ∧
    structureOf "/A.java" (some (sampleHeader [] []).withoutComments) =
      structureOf "/A.java" (some (sampleHeader [] [])) := by
  have hp : (sampleHeader [] []).kind = Kind.program := rfl
  have h : (sampleHeader [] []).CommentsApart := ⟨by decide, by decide⟩
  refine ⟨hp, h, ((structureOf_withoutComments_iff "/A.java" hp h).1).mpr ?_⟩
  decide

/-- A comment after `extends` is read as a supertype, and one before the type of the parameter in
its place. -/
theorem sampleHeader_comment_read :
    (sampleHeader [sampleComment] []).CommentsApart ∧
    structureOf "/A.java" (some (sampleHeader [sampleComment] []).withoutComments) ≠
      structureOf "/A.java" (some (sampleHeader [sampleComment] [])) ∧
    (sampleHeader [] [sampleComment]).CommentsApart ∧
    structureOf "/A.java" (some (sampleHeader [] [sampleComment]).withoutComments) ≠
      structureOf "/A.java" (some (sampleHeader [] [sampleComment])) := by
  have hread (inClause inParameter : List Node)
      (h : (sampleHeader inClause inParameter).CommentsApart)
      (hn : ¬ ∀ n ∈ (sampleHeader inClause inParameter).descendants,
        declaresType n = true → ReadsNoComment n) :
      structureOf "/A.java" (some (sampleHeader inClause inParameter).withoutComments) ≠
        structureOf "/A.java" (some (sampleHeader inClause inParameter)) := by
    intro he
    have hk : (sampleHeader inClause inParameter).kind = Kind.program := rfl
    simp only [structureOf, kind_withoutComments, hk, BEq.rfl, if_true, Except.ok.injEq,
      Prod.mk.injEq] at he
    exact hn ((types_withoutComments_iff h).mp he.2)
  have hc : (sampleHeader [sampleComment] []).CommentsApart := ⟨by decide, by decide⟩
  have hp : (sampleHeader [] [sampleComment]).CommentsApart := ⟨by decide, by decide⟩
  exact ⟨hc, hread _ _ hc (by decide), hp, hread _ _ hp (by decide)⟩

end Extract

end CodeAtlas

import CodeAtlas.Extract.Types
import CodeAtlas.Proofs.Tree.DocumentOrder

/-! # What a member says of its node

The record of a method or a field says what is written at its node: its name and type, its
modifiers, its parameters, and what stands in its body or after its name.
-/

namespace CodeAtlas.Extract

open Node

def HasModifier (n : Node) (modifier : String) : Prop :=
  ∃ c ∈ n.children, c.kind = Kind.modifiers ∧ ∃ k ∈ c.children, k.kind = modifier

/-- The type written at one node, followed by the dimensions written at another without spaces. -/
def IsTypeAt (owner declarator : Node) (type : String) : Prop :=
  type.toList = (owner.childText "type").toList ++
    (declarator.childText "dimensions").toList.filter (· ≠ ' ')

def parameterNodes (n : Node) : List Node :=
  match n.child? "parameters" with
  | none => []
  | some list => list.namedChildren.filter fun c =>
      c.kind = Kind.formalParameter ∨ c.kind = Kind.spreadParameter

structure DeclaresParameter (n : Node) (x : Parameter String) : Prop where
  formal : n.kind = Kind.formalParameter → x.name = n.childText "name" ∧ IsTypeAt n n x.type
  /-- The name is that of the last declarator, or of the parameter itself if there is none. -/
  spread : n.kind = Kind.spreadParameter →
    (∃ d, ((n.namedChildren.filter (·.kind = Kind.variableDeclarator)).getLast?).getD n = d ∧
      x.name = d.childText "name") ∧
    x.type = ((n.namedChildren.find? fun c =>
      c.kind ≠ Kind.variableDeclarator ∧ c.kind ≠ Kind.modifiers).map text).getD "" ++ "..."

/-- The place below a body holds a call by a name. -/
def CallAt (body : Node) (p : Place) : Prop :=
  p ≠ [] ∧ ∃ c, body.at? p = some c ∧ c.kind = Kind.methodInvocation ∧ (c.child? "name").isSome

/-- The place below a body holds a node that declares a variable. -/
def LocalAt (body : Node) (p : Place) : Prop :=
  p ≠ [] ∧ ∃ parent n, body.at? p.dropLast = some parent ∧ body.at? p = some n ∧
    (n.kind = Kind.variableDeclarator ∧ parent.kind ≠ Kind.spreadParameter ∨
      (n.kind = Kind.enhancedFor ∨ n.kind = Kind.resource) ∧ (n.child? "name").isSome)

structure DeclaresLocal (parent n : Node) (v : LocalVariable String) : Prop where
  name : v.name = n.childText "name"
  declarator : n.kind = Kind.variableDeclarator →
    IsTypeAt parent n v.type ∧ v.initialValue = (n.child? "value").map text
  loop : n.kind = Kind.enhancedFor → IsTypeAt n n v.type ∧ v.initialValue = none
  resource : n.kind = Kind.resource →
    v.type = n.childText "type" ∧ v.initialValue = (n.child? "value").map text

/-- A method says what the node that declares it says. -/
structure DeclaresMethod (n : Node) (m : Method String) : Prop where
  name : m.name = n.childText "name"
  returnType : IsTypeAt n n m.returnType
  isPublic : m.isPublic = true ↔ HasModifier n "public"
  isStatic : m.isStatic = true ↔ HasModifier n "static"
  parameters : List.Forall₂ DeclaresParameter (parameterNodes n) m.parameters
  body : m.body = (n.child? "body").map text
  calls : ∀ body, n.child? "body" = some body → Enumerates (· < ·) (CallAt body)
    (fun p name => ∃ c f, body.at? p = some c ∧ c.child? "name" = some f ∧ name = f.text) m.calls
  locals : ∀ body, n.child? "body" = some body → Enumerates (· < ·) (LocalAt body)
    (fun p v => ∃ parent d, body.at? p.dropLast = some parent ∧ body.at? p = some d ∧
      DeclaresLocal parent d v) m.locals
  bodyless : n.child? "body" = none → m.calls = [] ∧ m.locals = []

/-- A field says what the declarator with its name and the declaration around it say. -/
structure DeclaresField (owner declarator : Node) (f : Field String) : Prop where
  name : f.name = declarator.childText "name"
  type : IsTypeAt owner declarator f.type
  isPublic : f.isPublic = true ↔ HasModifier owner "public"
  isStatic : f.isStatic = true ↔ HasModifier owner "static"
  initialValue : f.initialValue = (declarator.child? "value").map text

theorem hasModifier_iff {n : Node} {modifier : String} :
    hasModifier n modifier = true ↔ HasModifier n modifier := by
  simp [hasModifier, HasModifier]

theorem isTypeAt_declaredType (owner declarator : Node) :
    IsTypeAt owner declarator (declaredType owner declarator) := by
  rw [IsTypeAt, declaredType, dimensionsText, String.toList_append, String.toList_ofList]
  congr 2
  funext c
  simp [bne, beq_eq_decide]

theorem declaresField (owner declarator : Node) :
    DeclaresField owner declarator (field owner declarator) :=
  ⟨rfl, isTypeAt_declaredType owner declarator, hasModifier_iff, hasModifier_iff, rfl⟩

theorem declaresParameter_of_parameter? {n : Node} {x : Parameter String}
    (h : parameter? n = some x) : DeclaresParameter n x := by
  unfold parameter? at h
  split at h
  · next hformal =>
    obtain rfl := Option.some.inj h
    refine ⟨fun _ => ⟨rfl, isTypeAt_declaredType n n⟩, fun hspread => ?_⟩
    rw [hspread] at hformal
    exact absurd hformal (by decide)
  · next hformal =>
    split at h
    · obtain rfl := Option.some.inj h
      refine ⟨fun hkind => absurd (beq_iff_eq.mpr hkind) hformal, fun _ => ⟨⟨_, rfl, ?_⟩, ?_⟩⟩
      · simp [spreadParameter, beq_eq_decide]
      · simp [spreadParameter, bne, beq_eq_decide]
    · cases h

theorem parameter?_isSome {n : Node} : (parameter? n).isSome = true ↔
    n.kind = Kind.formalParameter ∨ n.kind = Kind.spreadParameter := by
  unfold parameter?
  split
  · next h => simp_all
  · split <;> simp_all

theorem forall₂_parameters (n : Node) :
    List.Forall₂ DeclaresParameter (parameterNodes n) (parameters n) := by
  unfold parameterNodes parameters
  cases n.child? "parameters" with
  | none => exact .nil
  | some list =>
    simp only
    induction list.namedChildren with
    | nil => exact .nil
    | cons c cs ih =>
      cases hx : parameter? c with
      | none =>
        have hkind : ¬ (c.kind = Kind.formalParameter ∨ c.kind = Kind.spreadParameter) := by
          rw [← parameter?_isSome, hx]
          exact Bool.false_ne_true
        rw [List.filterMap_cons_none hx, List.filter_cons_of_neg (by simpa using hkind)]
        exact ih
      | some x =>
        have hkind := parameter?_isSome.mp (Option.isSome_of_eq_some hx)
        rw [List.filterMap_cons_some hx, List.filter_cons_of_pos (by simpa using hkind)]
        exact .cons (declaresParameter_of_parameter? hx) ih

theorem callName?_eq_some_iff {n : Node} {name : String} : callName? n = some name ↔
    n.kind = Kind.methodInvocation ∧ ∃ f, n.child? "name" = some f ∧ f.text = name := by
  unfold callName?
  split <;> simp_all

theorem calls_enumerate (body : Node) : Enumerates (· < ·) (CallAt body)
    (fun p name => ∃ c f, body.at? p = some c ∧ c.child? "name" = some f ∧ name = f.text)
    (calls body) := by
  have h : calls body = body.placed.filterMap fun e => callName? e.2 := by
    rw [calls, visited_eq_map_placed, List.filterMap_map]
    rfl
  rw [h]
  refine Enumerates.of_filterMap (·.1) _ (placed_increasing body) (fun p => ?_) ?_
  · constructor
    · rintro ⟨⟨p, c⟩, he, rfl, hname⟩
      obtain ⟨hne, hc⟩ := mem_placed_iff.mp he
      obtain ⟨name, hname⟩ := Option.isSome_iff_exists.mp hname
      obtain ⟨hkind, f, hf, -⟩ := callName?_eq_some_iff.mp hname
      exact ⟨hne, c, hc, hkind, Option.isSome_of_eq_some hf⟩
    · rintro ⟨hne, c, hc, hkind, hname⟩
      obtain ⟨f, hf⟩ := Option.isSome_iff_exists.mp hname
      exact ⟨(p, c), mem_placed_iff.mpr ⟨hne, hc⟩, rfl,
        Option.isSome_of_eq_some (callName?_eq_some_iff.mpr ⟨hkind, f, hf, rfl⟩)⟩
  · intro e he name hname
    obtain ⟨-, f, hf, rfl⟩ := callName?_eq_some_iff.mp hname
    exact ⟨e.2, f, (mem_placed_iff.mp he).2, hf, rfl⟩

theorem declared?_isSome {parent n : Node} : (declared? parent n).isSome = true ↔
    n.kind = Kind.variableDeclarator ∧ parent.kind ≠ Kind.spreadParameter ∨
      (n.kind = Kind.enhancedFor ∨ n.kind = Kind.resource) ∧ (n.child? "name").isSome = true := by
  have hfor : Kind.enhancedFor ≠ Kind.variableDeclarator := by decide
  have hresource : Kind.resource ≠ Kind.variableDeclarator := by decide
  unfold declared?
  split
  · next hkind =>
    have hkind := beq_iff_eq.mp hkind
    split
    · next hparent => simp [hkind, beq_iff_eq.mp hparent, hfor.symm, hresource.symm]
    · next hparent => exact iff_of_true rfl (.inl ⟨hkind, by simpa using hparent⟩)
  · split
    · simp_all
    · split <;> simp_all

theorem declaresLocal_of_declared? {parent n : Node} {v : LocalVariable String}
    (h : declared? parent n = some v) : DeclaresLocal parent n v := by
  have hfor : Kind.enhancedFor ≠ Kind.variableDeclarator := by decide
  have hresource : Kind.resource ≠ Kind.variableDeclarator := by decide
  have hresource' : Kind.resource ≠ Kind.enhancedFor := by decide
  unfold declared? at h
  split at h
  · next hkind =>
    have hkind := beq_iff_eq.mp hkind
    split at h
    · cases h
    · obtain rfl := Option.some.inj h
      exact ⟨rfl, fun _ => ⟨isTypeAt_declaredType parent n, rfl⟩,
        fun hn => absurd (hn.symm.trans hkind) hfor,
        fun hn => absurd (hn.symm.trans hkind) hresource⟩
  · next hkind =>
    have hkind : n.kind ≠ Kind.variableDeclarator := by simpa using hkind
    split at h
    · next hloop =>
      have hloop := beq_iff_eq.mp hloop
      obtain ⟨name, hname, rfl⟩ := Option.map_eq_some_iff.mp h
      exact ⟨by simp [childText, hname], fun hn => absurd hn hkind,
        fun _ => ⟨isTypeAt_declaredType n n, rfl⟩,
        fun hn => absurd (hn.symm.trans hloop) hresource'⟩
    · next hloop =>
      have hloop : n.kind ≠ Kind.enhancedFor := by simpa using hloop
      split at h
      · obtain ⟨name, hname, rfl⟩ := Option.map_eq_some_iff.mp h
        exact ⟨by simp [childText, hname], fun hn => absurd hn hkind, fun hn => absurd hn hloop,
          fun _ => ⟨rfl, rfl⟩⟩
      · cases h

theorem locals_enumerate (body : Node) : Enumerates (· < ·) (LocalAt body)
    (fun p v => ∃ parent d, body.at? p.dropLast = some parent ∧ body.at? p = some d ∧
      DeclaresLocal parent d v) (locals body) := by
  let parentAt (p : Place) : Node := handedDown (fun parent _ _ => parent) body body p
  have h : locals body = body.placed.filterMap fun e => declared? (parentAt e.1) e.2 := by
    rw [locals, withParents, visitedWith_eq_map_placed, List.filterMap_map]
    rfl
  rw [h]
  refine Enumerates.of_filterMap (·.1) _ (placed_increasing body) (fun p => ?_) ?_
  · constructor
    · rintro ⟨⟨p, n⟩, he, rfl, hsome⟩
      obtain ⟨hne, hn⟩ := mem_placed_iff.mp he
      exact ⟨hne, _, n, at?_dropLast body hne hn, hn, declared?_isSome.mp hsome⟩
    · rintro ⟨hne, parent, n, hparent, hn, hdeclares⟩
      obtain rfl : parentAt p = parent :=
        Option.some.inj ((at?_dropLast body hne hn).symm.trans hparent)
      exact ⟨(p, n), mem_placed_iff.mpr ⟨hne, hn⟩, rfl, declared?_isSome.mpr hdeclares⟩
  · intro e he v hv
    obtain ⟨hne, hn⟩ := mem_placed_iff.mp he
    exact ⟨_, e.2, at?_dropLast body hne hn, hn, declaresLocal_of_declared? hv⟩

theorem declaresMethod (n : Node) : DeclaresMethod n (method n) where
  name := rfl
  returnType := isTypeAt_declaredType n n
  isPublic := hasModifier_iff
  isStatic := hasModifier_iff
  parameters := forall₂_parameters n
  body := rfl
  calls body hbody := by
    have h : (method n).calls = calls body := by simp [method, hbody]
    rw [h]
    exact calls_enumerate body
  locals body hbody := by
    have h : (method n).locals = locals body := by simp [method, hbody]
    rw [h]
    exact locals_enumerate body
  bodyless hbody := by simp [method, hbody]

end CodeAtlas.Extract

import CodeAtlas.Java.Token
import CodeAtlas.Proofs.Entity.Signature
import CodeAtlas.Proofs.Graph.Rows
import CodeAtlas.Proofs.Index.MethodLookup

/-! # What the identifiers of methods tell apart

The identifier of a method has the name of its type, its own name and its signature in it, but not
the place of its type in the file. So it tells the methods of differently named types apart, and
the overloads of a method, but not the methods that two types of one name have in common.
-/

namespace CodeAtlas

namespace Text

def Ranges.areApart (r s : Ranges) : Bool :=
  r.all fun a => s.all fun b => decide (a.2 < b.1) || decide (b.2 < a.1)

theorem Ranges.contains_eq_false_of_areApart {r s : Ranges} (h : r.areApart s = true) {c : Char}
    (hc : r.contains c = true) : s.contains c = false := by
  obtain ⟨a, ha, hac⟩ := List.any_eq_true.mp hc
  rw [Ranges.contains, List.any_eq_false]
  intro b hb
  have hab := List.all_eq_true.mp (List.all_eq_true.mp h a ha) b hb
  simp only [Bool.or_eq_true, decide_eq_true_eq, Bool.and_eq_true] at hab hac ⊢
  omega

theorem identifierStarts_areApart : identifierStarts.areApart blanks = true := by decide +kernel

theorem identifierMarks_areApart : identifierMarks.areApart blanks = true := by decide +kernel

end Text

namespace Java.Lexer

def IsIdentifier (s : String) : Prop :=
  ∃ c cs, s.toList = c :: cs ∧ isWordStart c = true ∧ ∀ d ∈ cs, isWordPart d = true

theorem isWordPart_of_isWordStart {c : Char} (h : isWordStart c = true) : isWordPart c = true := by
  simp only [isWordStart, Bool.or_eq_true, beq_iff_eq] at h
  rcases h with (h | rfl) | rfl
  · have hpart : Text.isIdentifierPart c = true := by
      unfold Text.isIdentifierStart at h
      unfold Text.isIdentifierPart
      split at h <;> simp_all [Char.isAlphanum]
    simp [isWordPart, hpart]
  · decide
  · decide

/-- What stands in an identifier is no white space, no colon and no dot. -/
theorem ne_of_isWordPart {c : Char} (h : isWordPart c = true) :
    Text.isBlank c = false ∧ c ≠ ':' ∧ c ≠ '.' := by
  have hascii : ∀ n < 0x80, isWordPart (.ofNat n) = true →
      Text.isBlank (.ofNat n) = false ∧ Char.ofNat n ≠ ':' ∧ Char.ofNat n ≠ '.' := by
    decide +kernel
  by_cases hc : c.toNat < 0x80
  · have := hascii c.toNat hc
    rw [Char.ofNat_toNat] at this
    exact this h
  · refine ⟨?_, fun he => hc (he ▸ by decide), fun he => hc (he ▸ by decide)⟩
    simp only [isWordPart, Text.isIdentifierPart, if_neg hc, Bool.or_eq_true, beq_iff_eq] at h
    rcases h with ((h | h) | rfl) | rfl
    · exact Text.Ranges.contains_eq_false_of_areApart Text.identifierStarts_areApart h
    · exact Text.Ranges.contains_eq_false_of_areApart Text.identifierMarks_areApart h
    · decide
    · decide

theorem IsIdentifier.isSimpleName {s : String} (h : IsIdentifier s) : Uri.IsSimpleName s := by
  obtain ⟨c, cs, hs, hc, hcs⟩ := h
  have hpart : ∀ d ∈ s.toList, isWordPart d = true := by
    rw [hs, List.forall_mem_cons]
    exact ⟨isWordPart_of_isWordStart hc, hcs⟩
  refine ⟨?_, fun d hd => (ne_of_isWordPart (hpart d hd)).1,
    fun hm => (ne_of_isWordPart (hpart _ hm)).2.1 rfl,
    fun hm => (ne_of_isWordPart (hpart _ hm)).2.2 rfl⟩
  rintro rfl
  simp at hs

end Java.Lexer

section Methods

variable {typeName typeName' : String} {m n : Method String}

theorem Method.identifier_eq_iff (path : String) (ht : Uri.IsSimpleName typeName)
    (ht' : Uri.IsSimpleName typeName') (hm : Uri.IsSimpleName m.name)
    (hn : Uri.IsSimpleName n.name) : m.identifier path typeName = n.identifier path typeName' ↔
      typeName = typeName' ∧ m.name = n.name ∧ m.signature = n.signature := by
  have hseparate := (ht.isComponent_qualified hm).noSeparator_toList
  have hseparate' := (ht'.isComponent_qualified hn).noSeparator_toList
  have hiff := Uri.create_eq_create_iff path "Method" hseparate hseparate'
    m.signature_ne_empty n.signature_ne_empty
  rw [ht.normalizeName_qualified hm, ht'.normalizeName_qualified hn] at hiff
  refine hiff.trans ?_
  rw [← and_assoc]
  refine and_congr_left fun _ => ⟨fun h => ?_, fun ⟨ht, hm⟩ => by rw [ht, hm]⟩
  have hnames := congrArg Index.splitQualified h
  rw [Index.splitQualified_append hm.dot_notMem,
    Index.splitQualified_append hn.dot_notMem] at hnames
  simpa using hnames

end Methods

namespace Graph

def HasIdentifiers (e : FileExtraction String) : Prop :=
  ∀ t ∈ e.types, Java.Lexer.IsIdentifier t.name ∧
    ∀ m ∈ t.methods, Java.Lexer.IsIdentifier m.name

/-- No two texts that signatures are made of have the same signature. -/
def HasFaithfulSignatures (e : FileExtraction String) : Prop :=
  ∀ t ∈ e.types, ∀ m ∈ t.methods, ∀ u ∈ e.types, ∀ n ∈ u.methods, m.signature = n.signature →
    Uri.signatureText m.typeTexts = Uri.signatureText n.typeTexts

/-- Rows with different identifiers for methods of different types, of different names or with
parameters of different types. -/
def TellsMethodsApart (p : Payload String) : Prop :=
  ∀ a ∈ p.methods, ∀ b ∈ p.methods,
    a.typeIndex ≠ b.typeIndex ∨ a.name ≠ b.name ∨
      a.parameterTypes.map Uri.normalizeName ≠ b.parameterTypes.map Uri.normalizeName →
    a.uri ≠ b.uri

/-- Two types of a file with one name have a method in common. -/
def HasCommonMethods (e : FileExtraction String) : Prop :=
  ∃ (i j : ℕ) (t u : TypeDeclaration String), i ≠ j ∧ e.types[i]? = some t ∧
    e.types[j]? = some u ∧ t.name = u.name ∧ ∃ m ∈ t.methods, ∃ n ∈ u.methods, m.name = n.name ∧
      Uri.signatureText m.typeTexts = Uri.signatureText n.typeTexts

/-- Two overloads of a method have different parameters, but what their signatures are made of is
the same text. -/
def HasBlurredOverloads (e : FileExtraction String) : Prop :=
  ∃ t ∈ e.types, ∃ m ∈ t.methods, ∃ n ∈ t.methods, m.name = n.name ∧
    m.typeTexts.map Uri.normalizeName ≠ n.typeTexts.map Uri.normalizeName ∧
      Uri.signatureText m.typeTexts = Uri.signatureText n.typeTexts

theorem not_hasCommonMethods {e : FileExtraction String} (h : (e.types.map (·.name)).Nodup) :
    ¬ HasCommonMethods e := by
  rintro ⟨i, j, t, u, hij, ht, hu, hname, -⟩
  have hi : i < (e.types.map (·.name)).length := by
    simpa using (List.getElem?_eq_some_iff.mp ht).1
  exact hij ((List.getElem?_inj hi h).mp (by simp [ht, hu, hname]))

/-- Overloads whose parameters have types as they are written are not blurred. -/
theorem not_hasBlurredOverloads {e : FileExtraction String}
    (h : ∀ t ∈ e.types, ∀ m ∈ t.methods, ∀ s ∈ m.typeTexts, Uri.IsTypeText (Uri.normalizeName s)) :
    ¬ HasBlurredOverloads e := by
  rintro ⟨t, ht, m, hm, n, hn, -, hne, htext⟩
  exact hne ((Uri.signatureText_eq_iff (h t ht m hm) (h t ht n hn)).mp htext)

theorem identifier_eq_iff_of_faithful {e : FileExtraction String} (hnames : HasIdentifiers e)
    (hfaithful : HasFaithfulSignatures e) {t u : TypeDeclaration String} {m n : Method String}
    (ht : t ∈ e.types) (hu : u ∈ e.types) (hm : m ∈ t.methods) (hn : n ∈ u.methods) :
    m.identifier e.path t.name = n.identifier e.path u.name ↔
      t.name = u.name ∧ m.name = n.name ∧
        Uri.signatureText m.typeTexts = Uri.signatureText n.typeTexts := by
  have hsignature : m.signature = n.signature ↔
      Uri.signatureText m.typeTexts = Uri.signatureText n.typeTexts :=
    ⟨hfaithful t ht m hm u hu n hn, fun h => by
      rw [Method.signature, Uri.signature, h, ← Uri.signature, ← Method.signature]⟩
  rw [← hsignature]
  exact Method.identifier_eq_iff e.path (hnames t ht).1.isSimpleName (hnames u hu).1.isSimpleName
    ((hnames t ht).2 m hm).isSimpleName ((hnames u hu).2 n hn).isSimpleName

/-- The rows of a file tell its methods apart exactly if no two types of one name have a method in
common and no overloads are blurred. The outline of the file shows the identifiers of the rows. -/
theorem tellsMethodsApart_iff {e : FileExtraction String} (hnames : HasIdentifiers e)
    (hfaithful : HasFaithfulSignatures e) :
    Payload.ofExtraction e = .ok (rowsOf e) ∧
      (TellsMethodsApart (rowsOf e) ↔ ¬ HasCommonMethods e ∧ ¬ HasBlurredOverloads e) ∧
      ∀ ix : Index, ix.extraction? (.text e.path) = .ok (some (e.map .text)) →
        ∀ bound : Int, ∃ answer, ix.fileOutline (.text e.path) bound = .ok answer ∧
          ∀ (i j : ℕ) t m, e.types[i]? = some t → t.methods[j]? = some m → i < bound →
            methodRow e.path i t.name m ∈ (rowsOf e).methods ∧
              answer.toValue.at? (Index.identifierPlace i j) =
                some (.text (methodRow e.path i t.name m).uri) := by
  refine ⟨Payload.ofExtraction_text e, ⟨fun h => ⟨?common, ?blurred⟩, ?apart⟩, ?outline⟩
  case common =>
    rintro ⟨i, j, t, u, hij, ht, hu, hname, m, hm, n, hn, hmethod, htext⟩
    refine h _ (mem_methods_rowsOf_iff.mpr ⟨i, t, m, ht, hm, rfl⟩) _
      (mem_methods_rowsOf_iff.mpr ⟨j, u, n, hu, hn, rfl⟩) (Or.inl hij) ?_
    exact (identifier_eq_iff_of_faithful hnames hfaithful (List.mem_of_getElem? ht)
      (List.mem_of_getElem? hu) hm hn).mpr ⟨hname, hmethod, htext⟩
  case blurred =>
    rintro ⟨t, ht, m, hm, n, hn, hmethod, hne, htext⟩
    obtain ⟨i, hi⟩ := List.mem_iff_getElem?.mp ht
    refine h _ (mem_methods_rowsOf_iff.mpr ⟨i, t, m, hi, hm, rfl⟩) _
      (mem_methods_rowsOf_iff.mpr ⟨i, t, n, hi, hn, rfl⟩) (Or.inr (Or.inr hne)) ?_
    exact (identifier_eq_iff_of_faithful hnames hfaithful ht ht hm hn).mpr ⟨rfl, hmethod, htext⟩
  case apart =>
    rintro ⟨hcommon, hblurred⟩ a ha b hb hdiffer huri
    obtain ⟨i, t, m, ht, hm, rfl⟩ := mem_methods_rowsOf_iff.mp ha
    obtain ⟨j, u, n, hu, hn, rfl⟩ := mem_methods_rowsOf_iff.mp hb
    obtain ⟨hname, hmethod, htext⟩ := (identifier_eq_iff_of_faithful hnames hfaithful
      (List.mem_of_getElem? ht) (List.mem_of_getElem? hu) hm hn).mp huri
    by_cases hij : i = j
    · subst hij
      obtain rfl : t = u := Option.some.inj (ht.symm.trans hu)
      refine hblurred ⟨t, List.mem_of_getElem? ht, m, hm, n, hn, hmethod, ?_, htext⟩
      rcases hdiffer with h | h | h
      · exact absurd rfl h
      · exact absurd hmethod h
      · exact h
    · exact hcommon ⟨i, j, t, u, hij, ht, hu, hname, m, hm, n, hn, hmethod, htext⟩
  case outline =>
    intro ix hfile bound
    obtain ⟨answer, ha, hplace⟩ := Index.fileOutline_eq hfile bound
    refine ⟨answer, ha, fun i j t m ht hm hi => ⟨?_, hplace i j t m ht hm hi⟩⟩
    exact mem_methods_rowsOf_iff.mpr ⟨i, t, m, ht, List.mem_of_getElem? hm, rfl⟩

def sampleType (name : String) : TypeDeclaration String where
  name := name
  kind := .classType
  extended := []
  implemented := []
  methods := [⟨"f", "void", true, false, [], none, [], []⟩]
  fields := []

def sampleTypes (name name' : String) : FileExtraction String :=
  ⟨⟨"/A.java", none, []⟩, [sampleType name, sampleType name'], [], 0⟩

theorem sampleTypes_hasIdentifiers (name name' : String) (h : Java.Lexer.IsIdentifier name)
    (h' : Java.Lexer.IsIdentifier name') : HasIdentifiers (sampleTypes name name') := by
  have hf : Java.Lexer.IsIdentifier "f" := ⟨'f', [], rfl, by decide, by simp⟩
  simp [HasIdentifiers, sampleTypes, sampleType, h, h', hf]

theorem sampleTypes_hasFaithfulSignatures (name name' : String) :
    HasFaithfulSignatures (sampleTypes name name') := by
  simp [HasFaithfulSignatures, sampleTypes, sampleType]

theorem isIdentifier_a : Java.Lexer.IsIdentifier "A" := ⟨'A', [], rfl, by decide, by simp⟩

/-- The methods of types of different names are told apart. -/
theorem sampleTypes_tellsMethodsApart : HasIdentifiers (sampleTypes "A" "B") ∧
    HasFaithfulSignatures (sampleTypes "A" "B") ∧
    TellsMethodsApart (rowsOf (sampleTypes "A" "B")) := by
  have hb : Java.Lexer.IsIdentifier "B" := ⟨'B', [], rfl, by decide, by simp⟩
  have hnames := sampleTypes_hasIdentifiers "A" "B" isIdentifier_a hb
  have hfaithful := sampleTypes_hasFaithfulSignatures "A" "B"
  have hcommon : ¬ HasCommonMethods (sampleTypes "A" "B") :=
    not_hasCommonMethods (by simp [sampleTypes, sampleType])
  have hblurred : ¬ HasBlurredOverloads (sampleTypes "A" "B") :=
    not_hasBlurredOverloads (by simp [sampleTypes, sampleType, Method.typeTexts])
  exact ⟨hnames, hfaithful, (tellsMethodsApart_iff hnames hfaithful).2.1.mpr ⟨hcommon, hblurred⟩⟩

/-- Two types of one name have a method in common, and one identifier stands for both. -/
theorem sampleTypes_same_identifier : HasIdentifiers (sampleTypes "A" "A") ∧
    HasFaithfulSignatures (sampleTypes "A" "A") ∧
    Payload.ofExtraction (sampleTypes "A" "A") = .ok (rowsOf (sampleTypes "A" "A")) ∧
    ¬ TellsMethodsApart (rowsOf (sampleTypes "A" "A")) := by
  refine ⟨sampleTypes_hasIdentifiers "A" "A" isIdentifier_a isIdentifier_a,
    sampleTypes_hasFaithfulSignatures "A" "A", Payload.ofExtraction_text _, fun h => ?_⟩
  have ht : sampleType "A" ∈ (sampleTypes "A" "A").types := by simp [sampleTypes]
  let f : Method String := ⟨"f", "void", true, false, [], none, [], []⟩
  refine h (methodRow "/A.java" 0 "A" f) ?_ (methodRow "/A.java" 1 "A" f) ?_ (Or.inl ?_) rfl
  · exact mem_methods_rowsOf_iff.mpr ⟨0, sampleType "A", f, rfl, by simp [sampleType, f], rfl⟩
  · exact mem_methods_rowsOf_iff.mpr ⟨1, sampleType "A", f, rfl, by simp [sampleType, f], rfl⟩
  · decide

end Graph

end CodeAtlas

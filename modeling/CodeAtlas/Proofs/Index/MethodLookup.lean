import Mathlib.Data.List.Nodup
import CodeAtlas.Index.Question
import CodeAtlas.Proofs.Entity.Declared

/-! # Methods by their identifiers

An outline of a file and the matches of a search give the identifiers of methods. From such an
identifier the code of the method is found, if the types of the file have different names and the
method is the first of its overloads with its signature.
-/

namespace CodeAtlas

inductive Value.Step where
  | field (key : String)
  | item (i : ℕ)
  deriving DecidableEq, Repr

def Value.at? (v : Value) : List Step → Option Value
  | [] => some v
  | .field key :: rest =>
    match v with
    | .map entries => (lookup entries (.text key)).bind (·.at? rest)
    | _ => none
  | .item i :: rest =>
    match v with
    | .list items => items[i]?.bind (·.at? rest)
    | _ => none

@[simp] theorem Value.at?_nil (v : Value) : v.at? [] = some v := rfl

@[simp] theorem Value.at?_field (fields : List (String × Value)) (key : String)
    (rest : List Step) :
    (Value.ofFields fields).at? (.field key :: rest) = (fields.lookup key).bind (·.at? rest) := by
  rw [Value.ofFields, Value.at?, lookup_map_text]

@[simp] theorem Value.at?_item (items : List Value) (i : ℕ) (rest : List Step) :
    (Value.list items).at? (.item i :: rest) = items[i]?.bind (·.at? rest) := rfl

theorem getElem?_upTo_of_lt {β : Type} {bound : Int} {i : ℕ} (h : (i : Int) < bound)
    (xs : List β) : (upTo bound xs)[i]? = xs[i]? := by
  rw [upTo, if_pos (by omega), List.getElem?_take, if_pos (by omega)]

theorem mem_of_getElem?_upTo {β : Type} {bound : Int} {i : ℕ} {xs : List β} {x : β}
    (h : (upTo bound xs)[i]? = some x) : x ∈ xs := by
  have hm := List.mem_of_getElem? h
  unfold upTo at hm
  split at hm
  · exact List.mem_of_mem_take hm
  · exact List.mem_of_mem_take hm

theorem Parameter.toValue_injective :
    Function.Injective (Parameter.toValue : Parameter Value → Value) := by
  rintro ⟨name, type⟩ ⟨name', type'⟩ h
  simpa [Parameter.toValue, Value.ofFields, Cell.toValue] using h

namespace Index

def summaryFields (path typeName : String) (m : Method String) : List (String × Value) :=
  [("id", .text (m.identifier path typeName)), ("name", .text m.name),
    ("returnType", .text m.returnType), ("isPublic", .bool m.isPublic),
    ("isStatic", .bool m.isStatic), ("parameters", .list (m.parameters.map Parameter.toValue))]

theorem parametersValue_map (m : Method String) :
    (m.map Value.text).parameters.map Parameter.toValue = m.parameters.map Parameter.toValue := by
  rw [Method.map, List.map_map]
  rfl

theorem methodSummary_map (path typeName : String) (m : Method String) :
    methodSummary (.text path) (.text typeName) (m.map .text) =
      .ok (summaryFields path typeName m) := by
  rw [methodSummary, m.uri_map, parametersValue_map]
  rfl

def outlineOf (path : String) (t : TypeDeclaration String) (i : ℕ) : Value :=
  .ofFields [("id", .text (Uri.ofType path t.isInterface t.name i)), ("name", .text t.name),
    ("isInterface", .bool t.isInterface), ("extends", cells (t.map Value.text).extended),
    ("implements", cells (t.map Value.text).implemented),
    ("methods", .list (t.methods.map fun m => .ofFields (summaryFields path t.name m))),
    ("fields", .list ((t.map Value.text).fields.map Field.toValue))]

theorem typeOutline_map (path : String) (t : TypeDeclaration String) (i : ℕ) :
    typeOutline (.text path) (t.map .text) i = .ok (outlineOf path t i) := by
  have hmethods : (t.map Value.text).methods.mapM (fun m => do
      return Value.ofFields (← methodSummary (.text path) (t.map Value.text).name m)) =
        .ok (t.methods.map fun m => .ofFields (summaryFields path t.name m)) := by
    rw [TypeDeclaration.map, List.mapM_map]
    exact mapM_comp_ok fun m _ => by rw [methodSummary_map]; rfl
  rw [typeOutline, TypeDeclaration.uri_map, ok_bind, hmethods]
  rfl

theorem at?_outlineOf {path : String} {t : TypeDeclaration String} {i j : ℕ} {m : Method String}
    (hm : t.methods[j]? = some m) :
    (outlineOf path t i).at? [.field "methods", .item j, .field "id"] =
      some (.text (m.identifier path t.name)) := by
  simp [outlineOf, hm, List.lookup_cons, summaryFields]

theorem mapM_typeOutline (path : String) (e : FileExtraction String) :
    (e.map Value.text).types.zipIdx.mapM (fun (t, i) => typeOutline (.text path) t i) =
      .ok (e.types.zipIdx.map fun (t, i) => outlineOf path t i) := by
  rw [FileExtraction.map, List.zipIdx_map, List.mapM_map]
  exact mapM_comp_ok fun (t, i) _ => typeOutline_map path t i

def identifierPlace (i j : ℕ) : List Value.Step :=
  [.field "classes", .item i, .field "methods", .item j, .field "id"]

section File

variable {ix : Index} {path : String} {e : FileExtraction String}
  (hfile : ix.extraction? (.text path) = .ok (some (e.map .text)))

include hfile

/-- The outline of a file gives the identifiers of the methods of its types, as far as the bound
goes. -/
theorem fileOutline_eq (bound : Int) : ∃ answer, ix.fileOutline (.text path) bound = .ok answer ∧
    ∀ i j : ℕ, ∀ t m, e.types[i]? = some t → t.methods[j]? = some m → i < bound →
      answer.toValue.at? (identifierPlace i j) = some (.text (m.identifier path t.name)) := by
  have hshown (xs : List Value) (i : ℕ) (v : Value) (hi : i < bound) (hv : xs[i]? = some v) :
      (bounded bound xs).1[i]? = some v := by
    unfold bounded
    split
    · simp_all
    · split
      · rw [getElem?_upTo_of_lt hi, hv]
      · exact hv
  rw [fileOutline, hfile, ok_bind]
  simp only [mapM_typeOutline, ok_bind]
  refine ⟨_, rfl, fun i j t m ht hm hi => ?_⟩
  have hv : (e.types.zipIdx.map fun x => outlineOf path x.1 x.2)[i]? =
      some (outlineOf path t i) := by
    simp [List.getElem?_zipIdx, ht]
  simp [Answer.toValue, identifierPlace, List.lookup_cons, hshown _ i _ hi hv, at?_outlineOf hm]

end File

/-- A match of a search that is given for a method of a type of a file, by all that is said of it
beside the identifier. -/
structure IsHitOf (path typeName : String) (m : Method String) (hit : Value) : Prop where
  filePath : hit.at? [.field "filePath"] = some (.text path)
  className : hit.at? [.field "className"] = some (.text typeName)
  name : hit.at? [.field "name"] = some (.text m.name)
  parameters : hit.at? [.field "parameters"] =
    some (.list (m.parameters.map Parameter.toValue))

theorem IsHitOf.id_eq {path typeName : String} {m : Method String} {found : MethodMatch}
    {hit : Value} (hfound : methodHit found = .ok hit) (h : IsHitOf path typeName m hit) :
    hit.at? [.field "id"] = some (.text (m.identifier path typeName)) := by
  obtain ⟨foundPath, foundType, foundMethod, place⟩ := found
  simp only [methodHit, methodSummary, bind_eq_ok_iff, pure_eq_ok, Except.ok.injEq] at hfound
  obtain ⟨fields, ⟨id, hid, rfl⟩, rfl⟩ := hfound
  have hpath : foundPath = .text path := by simpa [List.lookup_cons] using h.filePath
  have htype : foundType = .text typeName := by simpa [List.lookup_cons] using h.className
  have hname : foundMethod.name = .text m.name := by simpa [List.lookup_cons] using h.name
  have hparameters : foundMethod.parameters = (m.map Value.text).parameters := by
    rw [← List.map_inj_right Parameter.toValue_injective, parametersValue_map]
    simpa [List.lookup_cons] using h.parameters
  subst hpath htype
  rw [Method.uri, hname, Method.parameterTypes, hparameters] at hid
  have hsame := Except.ok.inj (hid.symm.trans (m.uri_map path typeName))
  simp [hsame]

theorem exists_methodHit_of_searchCode {ix : Index} {query : Value} {bound : Int}
    {answer : Answer} {k : ℕ} {hit : Value} (h : ix.searchCode query bound = .ok answer)
    (hk : answer.toValue.at? [.field "methods", .item k] = some hit) :
    ∃ found, methodHit found = .ok hit := by
  rw [searchCode, bind_eq_ok_iff] at h
  obtain ⟨blank, -, h⟩ := h
  cases blank with
  | true =>
    obtain rfl := Except.ok.inj h
    simp [Answer.toValue, searchFields, List.lookup_cons] at hk
  | false =>
    simp only [Bool.false_eq_true, if_false, bind_eq_ok_iff] at h
    obtain ⟨matches', -, hits, hhits, types, -, typeHits, -, paths, -, h⟩ := h
    obtain rfl := Except.ok.inj h
    have hmem : hit ∈ hits := by
      have hplace : (upTo bound hits)[k]? = some hit := by
        simpa [Answer.toValue, searchFields, List.lookup_cons] using hk
      exact mem_of_getElem?_upTo hplace
    obtain ⟨found, -, hfound⟩ := exists_of_mem_mapM hhits hmem
    exact ⟨found, hfound⟩

theorem splitQualified_append {name : String} (h : '.' ∉ name.toList) (typeName : String) :
    splitQualified (typeName ++ "." ++ name) = some (typeName, name) := by
  have hreverse : (typeName ++ "." ++ name).toList.reverse =
      name.toList.reverse ++ '.' :: typeName.toList.reverse := by simp
  have hlast : (name.toList.reverse ++ '.' :: typeName.toList.reverse).takeWhile (· != '.') =
      name.toList.reverse := by
    rw [List.takeWhile_append_of_pos]
    · simp
    · intro c hc
      simpa using fun hd : c = '.' => h (hd ▸ List.mem_reverse.mp hc)
  rw [splitQualified, hreverse]
  simp only [hlast]
  simp

theorem overload?_map {signature : String} (hs : signature ≠ "") (ms : List (Method String)) :
    overload? (some signature) (ms.map (·.map .text)) =
      .ok ((ms.find? (·.signature = signature)).map (·.map .text)) := by
  induction ms with
  | nil => rfl
  | cons m ms ih =>
    have hsome : (some signature).filter (· ≠ "") = some signature := by
      simp [Option.filter, hs]
    rw [List.map_cons, overload?, hsome]
    simp only [m.parameterTypes_map, ok_bind, ih, List.find?_cons,
      show Uri.signature m.typeTexts Uri.signatureLength = m.signature from rfl]
    by_cases hm : m.signature = signature <;> simp [hm]

section File

variable {ix : Index} {path : String} {e : FileExtraction String}
  (hfile : ix.extraction? (.text path) = .ok (some (e.map .text)))

include hfile

theorem types_eq : ix.types (.text path) = .ok (e.types.map (·.map .text)) := by
  rw [types, hfile]
  rfl

theorem type?_eq (name : String) : ix.type? (.text path) (.text name) =
    .ok ((e.types.find? (·.name == name)).map (·.map .text)) := by
  have hname : (fun t : TypeDeclaration Value => t.name.same (.text name)) ∘
      (fun t : TypeDeclaration String => t.map Value.text) = fun t => t.name == name := by
    funext t
    simp [TypeDeclaration.map]
  rw [type?, types_eq hfile, ok_bind, List.find?_map, hname]
  rfl

theorem overloads_eq {t : TypeDeclaration String}
    (ht : e.types.find? (·.name == t.name) = some t) (name : String) :
    ix.overloads (.text path) (.text t.name) (.text name) =
      .ok ((t.methods.filter (·.name == name)).map (·.map .text)) := by
  rw [overloads, methods, type?_eq hfile, ht]
  simp [TypeDeclaration.map, List.filter_map, Function.comp_def, Method.map]

end File

/-- With different names every type is the first one with its name. -/
theorem find?_name_of_nodup {ts : List (TypeDeclaration String)} (h : (ts.map (·.name)).Nodup)
    {t : TypeDeclaration String} (ht : t ∈ ts) : ts.find? (·.name == t.name) = some t := by
  induction ts with
  | nil => simp at ht
  | cons t' ts ih =>
    rw [List.map_cons, List.nodup_cons] at h
    rcases List.mem_cons.mp ht with rfl | ht
    · simp
    · have hne : t'.name ≠ t.name := fun he => h.1 (he ▸ List.mem_map_of_mem ht)
      rw [List.find?_cons_of_neg (by simpa using hne), ih h.2 ht]

theorem find?_overload {before after : List (Method String)} {m : Method String}
    (h : ∀ m' ∈ before, m'.name = m.name → m'.signature ≠ m.signature) :
    ((before ++ m :: after).filter (·.name == m.name)).find? (·.signature = m.signature) =
      some m := by
  have hbefore : (before.filter (·.name == m.name)).find? (·.signature = m.signature) = none := by
    simpa using h
  simp [List.find?_append, hbefore]

def shownBody (bound : ℕ) (m : Method String) : Value :=
  cell? (m.body.map fun s => String.ofList (s.toList.take bound))

def bodyReport (bound : ℕ) (m : Method String) : AnswerReport :=
  if m.body.any fun s => bound < s.length then
    ⟨.truncated, s!"body truncated to {(bound : Int)} characters", 1, 1⟩
  else ⟨.ok, "", 1, 1⟩

theorem boundedBody_eq (bound : ℕ) (m : Method String) :
    boundedBody bound (cell? (m.map Value.text).body) =
      .ok (shownBody bound m, bodyReport bound m) := by
  obtain ⟨name, returnType, isPublic, isStatic, parameters, body, calls, locals⟩ := m
  cases body with
  | none => rfl
  | some s =>
    by_cases h : bound < s.length
    · have hcut : ((bound : Int) < s.length) := by omega
      simp [Method.map, cell?, Cell.toValue, boundedBody, shownBody, bodyReport, h, hcut, upTo]
    · have hwhole : ¬ ((bound : Int) < s.length) := by omega
      have hall : s.toList.take bound = s.toList :=
        List.take_of_length_le (by simpa [String.length_toList] using h)
      simp [Method.map, cell?, Cell.toValue, boundedBody, shownBody, bodyReport, h, hwhole, hall]

/-- The identifier that an outline or a search gives for a method leads to the code of the
method. The types of the file have different names, and the method is the first of its overloads
with its signature. -/
theorem methodCode_of_identifier {ix : Index} {path : String} {e : FileExtraction String}
    (hpath : Uri.IsComponent path)
    (hfile : ix.extraction? (.text path) = .ok (some (e.map .text)))
    (hdistinct : (e.types.map (·.name)).Nodup)
    (hnames : ∀ t ∈ e.types, Uri.IsSimpleName t.name ∧ ∀ m ∈ t.methods, Uri.IsSimpleName m.name)
    {i : ℕ} {t : TypeDeclaration String} (ht : e.types[i]? = some t)
    {before after : List (Method String)} {m : Method String}
    (hm : t.methods = before ++ m :: after)
    (hfirst : ∀ m' ∈ before, m'.name = m.name → m'.signature ≠ m.signature) :
    (∀ bound : Int, i < bound → ∃ answer, ix.fileOutline (.text path) bound = .ok answer ∧
      answer.toValue.at? (identifierPlace i before.length) =
        some (.text (m.identifier path t.name))) ∧
    (∀ query bound answer k hit, ix.searchCode query bound = .ok answer →
      answer.toValue.at? [.field "methods", .item k] = some hit → IsHitOf path t.name m hit →
        hit.at? [.field "id"] = some (.text (m.identifier path t.name))) ∧
    ∀ bound : ℕ, ix.methodCode (.text (m.identifier path t.name)) bound =
      .ok ⟨[("id", .text (m.identifier path t.name)), ("filePath", .text path),
        ("className", .text t.name), ("methodName", .text m.name),
        ("returnType", .text m.returnType),
        ("parameters", .list (m.parameters.map Parameter.toValue)),
        ("isPublic", .bool m.isPublic), ("isStatic", .bool m.isStatic),
        ("body", shownBody bound m), ("methodCalls", cells m.calls)], bodyReport bound m⟩ := by
  have hmt : t ∈ e.types := List.mem_of_getElem? ht
  have hmm : m ∈ t.methods := by simp [hm]
  obtain ⟨htn, hmn⟩ := hnames t hmt
  refine ⟨fun bound hi => ?_, fun query bound answer k hit hs hk hhit => ?_, fun bound => ?_⟩
  · obtain ⟨answer, ha, hplace⟩ := fileOutline_eq hfile bound
    exact ⟨answer, ha, hplace i before.length t m ht (by simp [hm]) hi⟩
  · obtain ⟨found, hfound⟩ := exists_methodHit_of_searchCode hs hk
    exact hhit.id_eq hfound
  · have hparse := Uri.parse_ofMethod hpath htn (hmn m hmm) m.typeTexts
    have hoverload : overload? (some m.signature)
        ((t.methods.filter (·.name == m.name)).map (·.map .text)) = .ok (some (m.map .text)) := by
      rw [overload?_map m.signature_ne_empty, hm, find?_overload hfirst]
      rfl
    simp only [methodCode, Value.asText, ok_bind, Method.identifier, hparse,
      splitQualified_append (hmn m hmm).dot_notMem, ne_eq, not_true, if_false, hfile,
      Option.isNone_some, Bool.false_eq_true, ← Method.signature.eq_1, hoverload, boundedBody_eq,
      overloads_eq hfile (find?_name_of_nodup hdistinct hmt)]
    rw [parametersValue_map]
    simp [Method.map, cells, Cell.toValue]

def sampleOverload (type body : String) : Method String where
  name := "f"
  returnType := "void"
  isPublic := true
  isStatic := false
  parameters := [⟨"x", type⟩]
  body := some body
  calls := []
  locals := []

def sampleOverloads : TypeDeclaration String where
  name := "A"
  kind := .classType
  extended := []
  implemented := []
  methods := [sampleOverload "int" "\x7b return; \x7d", sampleOverload "String" "\x7b \x7d"]
  fields := []

def sampleIndex : Index :=
  ⟨[⟨.text "/A.java", .extracted ((⟨⟨"/A.java", none, []⟩, [sampleOverloads], [], 0⟩ :
    FileExtraction String).map .text)⟩]⟩

/-- The second of two overloads is found, and its body is cut under a small bound. -/
theorem sampleIndex_methodCode :
    sampleIndex.methodCode
        (.text ((sampleOverload "String" "\x7b \x7d").identifier "/A.java" "A")) 2 =
      .ok ⟨[("id", .text ((sampleOverload "String" "\x7b \x7d").identifier "/A.java" "A")),
        ("filePath", .text "/A.java"), ("className", .text "A"), ("methodName", .text "f"),
        ("returnType", .text "void"),
        ("parameters", .list [.ofFields [("name", .text "x"), ("type", .text "String")]]),
        ("isPublic", .bool true), ("isStatic", .bool false), ("body", .text "\x7b "),
        ("methodCalls", .list [])],
        ⟨.truncated, "body truncated to 2 characters", 1, 1⟩⟩ := by
  have hpath : Uri.IsComponent "/A.java" := ⟨by decide, by decide, by decide⟩
  have hf : Uri.IsSimpleName "f" :=
    ⟨by decide, by simpa using (by decide : Text.isBlank 'f' = false), by decide, by decide⟩
  have ht : Uri.IsSimpleName "A" :=
    ⟨by decide, by simpa using (by decide : Text.isBlank 'A' = false), by decide, by decide⟩
  have hfirst : (sampleOverload "int" "\x7b return; \x7d").signature ≠
      (sampleOverload "String" "\x7b \x7d").signature := by decide +kernel
  have hmethods : sampleOverloads.methods = [sampleOverload "int" "\x7b return; \x7d"] ++
      sampleOverload "String" "\x7b \x7d" :: [] := rfl
  exact (methodCode_of_identifier (e := ⟨⟨"/A.java", none, []⟩, [sampleOverloads], [], 0⟩)
    (i := 0) hpath rfl (by decide) (by simp [sampleOverloads, sampleOverload, hf, ht]) rfl hmethods
    (by simpa using fun _ => hfirst)).2.2 2

end Index

end CodeAtlas

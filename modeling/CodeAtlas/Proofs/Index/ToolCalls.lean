import CodeAtlas.Extract.Batch
import CodeAtlas.Index.Tool
import CodeAtlas.Proofs.Index.Surfaces

/-! # Every call of a tool is answered or refused

A tool that is called by its name with the text that it takes has an answer, whatever is indexed and
whatever the files are. There are two exceptions: the code of a method is refused where the text
does not identify a method, and the text of a file is refused where its path holds a NUL.
-/

namespace CodeAtlas

namespace Files

theorem follow_ne_embeddedNul (above : List FileTree) (here : FileTree) (names : List String) :
    here.follow above names ≠ .error .embeddedNul := by
  fun_induction FileTree.follow above here names <;> simp_all

theorem find_eq_embeddedNul_iff {fs : Files} {path : String} :
    fs.find path = .error .embeddedNul ↔ '\x00' ∈ path.toList := by
  simp only [find, List.contains_iff_mem]
  constructor
  · intro hfind
    split at hfind
    · assumption
    · split at hfind
      · cases hfind
      · exact absurd hfind (follow_ne_embeddedNul _ _ _)
  · intro hnul
    rw [if_pos hnul]

theorem read_eq_embeddedNul_iff {fs : Files} {path : String} :
    fs.read path = .error .embeddedNul ↔ '\x00' ∈ path.toList := by
  rw [← @find_eq_embeddedNul_iff fs, read]
  cases fs.find path with
  | error fault =>
    change Except.error fault = _ ↔ _
    simp
  | ok t =>
    cases t with
    | file content =>
      change Except.ok content = _ ↔ _
      simp
    | directory entries =>
      change Except.error PathFault.isDirectory = _ ↔ _
      simp

end Files

theorem Extract.processFile_of_embeddedNul (parser : Parser) {fs : Files} {v : Vocabulary}
    {tolerant : Bool} {path : String} (hnul : '\x00' ∈ (fs.absolute path).toList) :
    processFile parser fs v tolerant path = .failed (fs.absolute path)
      "Parse error: Cannot read file: embedded null byte" := by
  simp only [processFile, parseFile, Files.read_eq_embeddedNul_iff.mpr hnul]
  rfl

def statusNames : List String :=
  ["ok", "missing_file", "missing_entity", "empty_result", "truncated"]

def IsAnswered (outcome : Result Answer) : Prop :=
  ∃ answer, outcome = .ok answer ∧ ∃ status ∈ statusNames,
    answer.toValue.at? [.field "metadata", .field "status"] = some (.text status)

theorem isAnswered_ok {a : Answer} (h : a.fields.lookup "metadata" = none) :
    IsAnswered (.ok a) := by
  refine ⟨a, rfl, a.report.status.name, ?_, ?_⟩
  · cases a.report.status <;> decide
  · simp [Answer.toValue, AnswerReport.toValue, List.lookup_append, h]

theorem isAnswered_bind {β : Type} {x : Result β} {f : β → Result Answer}
    (hx : ∃ y, x = .ok y) (hf : ∀ y, IsAnswered (f y)) : IsAnswered (x >>= f) := by
  obtain ⟨y, rfl⟩ := hx
  exact hf y

namespace Index

section Questions

variable {ix : Index} {rs : List (FileResult String)} (h : ix.Describes rs) (path : String)
  (bound : ℤ)

include h

theorem Describes.reason? :
    ix.reason? (.text path) = .ok ((latest? rs path).bind (·.reason?)) := by
  rw [Index.reason?, h.result?, ok_bind]
  cases latest? rs path with
  | none => rfl
  | some r => cases r <;> rfl

theorem Describes.exists_missingFile :
    ∃ report, ix.missingFile (.text path) = .ok report := by
  rw [missingFile, h.reason?]
  exact ⟨_, rfl⟩

theorem Describes.isAnswered_listFiles : IsAnswered (ix.listFiles bound) := by
  obtain ⟨ps, hps, -⟩ := h.exists_paths
  rw [listFiles, hps, ok_bind]
  refine isAnswered_bind (exists_mapM_of_forall fun v hv => ?_) fun entries => isAnswered_ok rfl
  obtain ⟨p, -, rfl⟩ := List.mem_map.mp hv
  rw [h.extraction?, ok_bind]
  cases (latest? rs p).bind (·.extraction?) with
  | none =>
    simp only [Option.map_none, h.reason?]
    exact ⟨_, rfl⟩
  | some e => exact ⟨_, rfl⟩

theorem Describes.isAnswered_fileOutline : IsAnswered (ix.fileOutline (.text path) bound) := by
  obtain ⟨report, hreport⟩ := h.exists_missingFile path
  rw [fileOutline, h.extraction?, ok_bind]
  cases (latest? rs path).bind (·.extraction?) with
  | none =>
    simp only [Option.map_none, hreport]
    exact isAnswered_ok rfl
  | some e =>
    simp only [Option.map_some, mapM_typeOutline]
    exact isAnswered_ok rfl

theorem Describes.isAnswered_flowSummary : IsAnswered (ix.flowSummary (.text path) bound) := by
  obtain ⟨report, hreport⟩ := h.exists_missingFile path
  rw [flowSummary, h.extraction?, ok_bind]
  cases hfile : (latest? rs path).bind (·.extraction?) with
  | none =>
    simp only [Option.map_none, hreport]
    exact isAnswered_ok rfl
  | some e =>
    have hlinks : ix.links (.text path) =
        .ok ((Flow.linksOf e.stages).map (·.map Value.text)) := by
      rw [links, h.extraction?, hfile, Option.map_some, ok_bind]
      exact Flow.edges_map e
    simp only [Option.map_some]
    split
    · exact isAnswered_ok rfl
    · rw [hlinks]
      exact isAnswered_ok rfl

theorem Describes.isAnswered_searchCode (query : String) :
    IsAnswered (ix.searchCode (.text query) bound) := by
  obtain ⟨ps, hps, -⟩ := h.exists_paths
  obtain ⟨answer, hanswer, -⟩ := h.exists_searchCode hps query bound
  rw [hanswer]
  refine isAnswered_ok ?_
  rw [searchCode, isBlankQuery_text, ok_bind] at hanswer
  split at hanswer
  · cases hanswer
    rfl
  · simp only [bind_eq_ok_iff] at hanswer
    obtain ⟨_, -, _, -, _, -, _, -, _, -, heq⟩ := hanswer
    cases heq
    rfl

omit h

theorem isSome_splitQualified (name : String) :
    (splitQualified name).isSome ↔ '.' ∈ name.toList := by
  have hdrop (cs : List Char) :
      cs.drop (cs.takeWhile (· != '.')).length = cs.dropWhile (· != '.') :=
    calc cs.drop (cs.takeWhile (· != '.')).length
        = (cs.takeWhile (· != '.') ++ cs.dropWhile (· != '.')).drop
            (cs.takeWhile (· != '.')).length := by rw [List.takeWhile_append_dropWhile]
      _ = cs.dropWhile (· != '.') := List.drop_left
  unfold splitQualified
  simp only [hdrop]
  cases hrest : name.toList.reverse.dropWhile (· != '.') with
  | nil =>
    have hnone : ∀ c ∈ name.toList, c ≠ '.' := by simpa using List.dropWhile_eq_nil_iff.mp hrest
    simpa using fun hdot => hnone '.' hdot rfl
  | cons c rest =>
    have hsome : name.toList.reverse.dropWhile (· != '.') ≠ [] := by simp [hrest]
    rw [ne_eq, List.dropWhile_eq_nil_iff] at hsome
    simpa using hsome

theorem exists_overload? (signature : Option String) (ms : List (Method String)) :
    ∃ m : Option (Method String), overload? signature (ms.map (·.map .text)) =
      .ok (m.map (·.map .text)) := by
  cases hs : signature.filter (· ≠ "") with
  | none =>
    cases ms with
    | nil => exact ⟨none, rfl⟩
    | cons m ms =>
      refine ⟨some m, ?_⟩
      rw [List.map_cons, overload?, hs]
      rfl
  | some s =>
    obtain ⟨rfl, hne⟩ := Option.filter_eq_some_iff.mp hs
    exact ⟨_, overload?_map (by simpa using hne) ms⟩

include h

theorem Describes.exists_overloads (typeName name : String) : ∃ ms : List (Method String),
    ix.overloads (.text path) (.text typeName) (.text name) = .ok (ms.map (·.map .text)) := by
  cases hfile : (latest? rs path).bind (·.extraction?) with
  | none =>
    have hnone : ix.extraction? (.text path) = .ok none := by rw [h.extraction?, hfile]; rfl
    refine ⟨[], ?_⟩
    rw [overloads, methods, type?, types, hnone]
    rfl
  | some e =>
    have hsome : ix.extraction? (.text path) = .ok (some (e.map .text)) := by
      rw [h.extraction?, hfile]
      rfl
    rw [overloads, methods, type?_eq hsome]
    cases e.types.find? (·.name == typeName) with
    | none => exact ⟨[], rfl⟩
    | some t =>
      refine ⟨t.methods.filter (·.name == name), ?_⟩
      simp [TypeDeclaration.map, List.filter_map, Function.comp_def, Method.map]

theorem Describes.isAnswered_methodCode {uri typeName name : String} {parts : Uri.Parts}
    (bound : ℕ) (hparse : Uri.parse uri = .ok parts) (hkind : parts.kind = "Method")
    (hname : splitQualified parts.name = some (typeName, name)) :
    IsAnswered (ix.methodCode (.text uri) bound) := by
  obtain ⟨ms, hms⟩ := h.exists_overloads parts.path typeName name
  obtain ⟨m, hm⟩ := exists_overload? parts.discriminator ms
  simp only [methodCode, Value.asText, ok_bind, hparse, hname, hkind, ne_eq, not_true, if_false,
    h.extraction?, hms, hm]
  split
  · exact isAnswered_ok rfl
  · cases m with
    | none => exact isAnswered_ok rfl
    | some m =>
      simp only [Option.map_some, boundedBody_eq]
      exact isAnswered_ok rfl

omit h

theorem isSome_latest?_iff : (latest? rs path).isSome ↔ ∃ r ∈ rs, r.path = path := by
  simp [latest?]

include h

theorem Describes.readFile_of_notMem (fs : Files) (hpath : ¬ ∃ r ∈ rs, r.path = path) :
    ix.readFile fs (.text path) bound =
      .ok ⟨[("file", .text path)], .bare .missingFile "file_not_indexed"⟩ := by
  have hnone : latest? rs path = none := by
    rw [← Option.not_isSome_iff_eq_none, isSome_latest?_iff]
    exact hpath
  rw [readFile, h.result?, ok_bind, hnone]
  rfl

theorem Describes.readFile_of_mem (fs : Files) (hpath : ∃ r ∈ rs, r.path = path) :
    ix.readFile fs (.text path) bound = match fs.read path with
      | .error .embeddedNul => .error (.path path .embeddedNul)
      | .error fault => .ok ⟨[("file", .text path)],
          .bare .missingFile ("Cannot read file: " ++ fault.message path)⟩
      | .ok content =>
        let text := Text.unifyBreaks (Text.Utf8.decodeLossyChars content.toList)
        if bound < text.length then
          .ok ⟨[("file", .text path), ("content", .text (.ofList (upTo bound text)))],
            ⟨.truncated, s!"content truncated to {bound} characters", 1, 1⟩⟩
        else .ok ⟨[("file", .text path), ("content", .text (.ofList text))], ⟨.ok, "", 1, 1⟩⟩ := by
  obtain ⟨r, hr⟩ := Option.isSome_iff_exists.mp ((isSome_latest?_iff path).mpr hpath)
  rw [readFile, h.result?, ok_bind, hr]
  rfl

theorem Describes.isAnswered_readFile (fs : Files)
    (hopen : (∃ r ∈ rs, r.path = path) → '\x00' ∉ path.toList) :
    IsAnswered (ix.readFile fs (.text path) bound) := by
  by_cases hpath : ∃ r ∈ rs, r.path = path
  · rw [h.readFile_of_mem path bound fs hpath]
    have hfault : fs.read path ≠ .error .embeddedNul :=
      Files.read_eq_embeddedNul_iff.not.mpr (hopen hpath)
    split
    · next hnul => exact absurd hnul hfault
    · exact isAnswered_ok rfl
    · dsimp only
      split
      · exact isAnswered_ok rfl
      · exact isAnswered_ok rfl
  · rw [h.readFile_of_notMem path bound fs hpath]
    exact isAnswered_ok rfl

end Questions

section Refusals

variable {ix : Index} {uri : String} (bound : ℤ)

theorem methodCode_of_malformed (hparse : Uri.parse uri = .error (.malformedUri uri)) :
    ix.methodCode (.text uri) bound = .error (.malformedUri uri) := by
  rw [methodCode, Value.asText, ok_bind, hparse]
  rfl

theorem methodCode_of_not_method {parts : Uri.Parts} (hparse : Uri.parse uri = .ok parts)
    (hmethod : ¬ (parts.kind = "Method" ∧ '.' ∈ parts.name.toList)) :
    ix.methodCode (.text uri) bound = .error (.notMethodUri uri) := by
  rw [methodCode, Value.asText, ok_bind, hparse, ok_bind]
  rw [← isSome_splitQualified] at hmethod
  cases hname : splitQualified parts.name with
  | none => rfl
  | some names =>
    have hkind : parts.kind ≠ "Method" := fun hkind => hmethod ⟨hkind, by rw [hname]; rfl⟩
    dsimp only
    rw [if_pos hkind]
    rfl

end Refusals

end Index

namespace Tool

def given (tool : Tool) (s : String) : Value :=
  .ofFields (tool.parameter?.toList.map (·, .text s))

theorem call_given (fs : Files) (ix : Index) (tool : Tool) (s : String) :
    Tool.call fs ix tool.name (tool.given s) =
      tool.answer fs ix ((tool.parameter?.map fun _ => Value.text s).getD .null)
        tool.defaultBound := by
  cases tool <;> rfl

/-- The reasons for which a call with a text is refused. -/
inductive Refuses (rs : List (FileResult String)) : Tool → String → Failure → Prop
  | malformed {uri : String} (hparse : Uri.parse uri = .error (.malformedUri uri)) :
    Refuses rs .methodCode uri (.malformedUri uri)
  | notMethod {uri : String} {parts : Uri.Parts} (hparse : Uri.parse uri = .ok parts)
    (hmethod : ¬ (parts.kind = "Method" ∧ '.' ∈ parts.name.toList)) :
    Refuses rs .methodCode uri (.notMethodUri uri)
  | embeddedNul {path : String} (hpath : ∃ r ∈ rs, r.path = path) (hnul : '\x00' ∈ path.toList) :
    Refuses rs .readFile path (.path path .embeddedNul)

theorem malformedUri_of_parse {uri : String} {f : Failure} (h : Uri.parse uri = .error f) :
    f = .malformedUri uri := by
  unfold Uri.parse at h
  split at h
  · split at h
    · exact (Except.error.inj h).symm
    · cases h
  · exact (Except.error.inj h).symm

section Calls

variable {ix : Index} {rs : List (FileResult String)} (h : ix.Describes rs) (fs : Files)

include h

theorem call_of_refuses {tool : Tool} {s : String} {f : Failure} (hf : Refuses rs tool s f) :
    Tool.call fs ix tool.name (tool.given s) = .error f := by
  rw [call_given]
  cases hf with
  | malformed hparse => exact Index.methodCode_of_malformed _ hparse
  | notMethod hparse hmethod => exact Index.methodCode_of_not_method _ hparse hmethod
  | embeddedNul hpath hnul =>
    have hread : fs.read s = .error .embeddedNul := Files.read_eq_embeddedNul_iff.mpr hnul
    change ix.readFile fs (.text s) _ = _
    rw [h.readFile_of_mem s _ fs hpath, hread]

theorem isAnswered_methodCode {uri : String} (hf : ∀ f, ¬ Refuses rs .methodCode uri f)
    (bound : ℕ) : IsAnswered (ix.methodCode (.text uri) bound) := by
  cases hparse : Uri.parse uri with
  | error f =>
    obtain rfl := malformedUri_of_parse hparse
    exact absurd (.malformed hparse) (hf _)
  | ok parts =>
    by_cases hmethod : parts.kind = "Method" ∧ '.' ∈ parts.name.toList
    · obtain ⟨⟨typeName, name⟩, hname⟩ := Option.isSome_iff_exists.mp
        ((Index.isSome_splitQualified parts.name).mpr hmethod.2)
      exact h.isAnswered_methodCode bound hparse hmethod.1 hname
    · exact absurd (.notMethod hparse hmethod) (hf _)

theorem isAnswered_call {tool : Tool} {s : String} (hf : ∀ f, ¬ Refuses rs tool s f) :
    IsAnswered (Tool.call fs ix tool.name (tool.given s)) := by
  rw [call_given]
  cases tool with
  | listFiles => exact h.isAnswered_listFiles _
  | fileOutline => exact h.isAnswered_fileOutline s _
  | methodCode => exact isAnswered_methodCode h hf 8000
  | searchCode => exact h.isAnswered_searchCode _ s
  | flowSummary => exact h.isAnswered_flowSummary s _
  | readFile =>
    refine h.isAnswered_readFile s _ fs fun hpath hnul => ?_
    exact hf _ (.embeddedNul hpath hnul)

end Calls

/-- A call of any tool with a text is answered, unless the text does not identify a method whose
code is asked for, or is the path of an indexed file and holds a NUL. An indexed file that cannot be
read for any other reason is answered as missing. -/
theorem call_answered_or_refused (rs : List (FileResult String)) :
    ∃ ix, Index.ofResults (rs.map (·.map .text)) = .ok ix ∧
      ∀ (fs : Files) (tool : Tool) (s : String),
        (∀ f, Refuses rs tool s f → Tool.call fs ix tool.name (tool.given s) = .error f) ∧
        ((∀ f, ¬ Refuses rs tool s f) → IsAnswered (Tool.call fs ix tool.name (tool.given s))) ∧
        ∀ fault, tool = .readFile → (∃ r ∈ rs, r.path = s) → fs.read s = .error fault →
          fault ≠ .embeddedNul → Tool.call fs ix tool.name (tool.given s) =
            .ok ⟨[("file", .text s)],
              .bare .missingFile ("Cannot read file: " ++ fault.message s)⟩ := by
  obtain ⟨ix, hix, h⟩ := Index.exists_ofResults rs
  refine ⟨ix, hix, fun fs tool s => ⟨?_, ?_, ?_⟩⟩
  · intro f hf
    exact call_of_refuses h fs hf
  · intro hf
    exact isAnswered_call h fs hf
  · rintro fault rfl hpath hread hfault
    rw [call_given]
    change ix.readFile fs (.text s) _ = _
    rw [h.readFile_of_mem s _ fs hpath, hread]
    cases fault <;> first | rfl | exact absurd rfl hfault

section Sample

def sampleFiles : Files := ⟨"/r", .directory []⟩

theorem sampleFiles_calls :
    ∃ ix, Index.ofResults ([FileResult.failed "/r/A.java" "gone"].map (·.map .text)) = .ok ix ∧
      Tool.call sampleFiles ix "method_code" (.ofFields [("method_id", .text "f")]) =
        .error (.malformedUri "f") ∧
      IsAnswered (Tool.call sampleFiles ix "search_code" (.ofFields [("query", .text "f")])) ∧
      Tool.call sampleFiles ix "read_file_content" (.ofFields [("file_path", .text "/r/A.java")]) =
        .ok ⟨[("file", .text "/r/A.java")], .bare .missingFile
          "Cannot read file: [Errno 2] No such file or directory: '/r/A.java'"⟩ := by
  obtain ⟨ix, hix, hcalls⟩ := call_answered_or_refused [.failed "/r/A.java" "gone"]
  refine ⟨ix, hix, ?_, ?_, ?_⟩
  · exact (hcalls sampleFiles .methodCode "f").1 _ (.malformed rfl)
  · exact (hcalls sampleFiles .searchCode "f").2.1 fun f hf => by cases hf
  · have hparts : sampleFiles.parts "/r/A.java" = ["", "r", "A.java"] := by decide +kernel
    have hread : sampleFiles.read "/r/A.java" = .error .missing := by
      rw [Files.read, Files.find, if_neg (by decide), if_neg (by decide), hparts]
      rfl
    exact (hcalls sampleFiles .readFile "/r/A.java").2.2 .missing rfl
      ⟨_, List.mem_singleton_self _, rfl⟩ hread (by decide)

/-- A path with a NUL that is recorded as unreadable, and that a tool does not answer for. -/
theorem sampleFiles_embeddedNul :
    (∀ parser, Extract.processFile parser sampleFiles ⟨[], [], []⟩ false "/r/a\x00b.java" =
      .failed "/r/a\x00b.java" "Parse error: Cannot read file: embedded null byte") ∧
    ∃ ix, Index.ofResults [.failed (.text "/r/a\x00b.java")
        "Parse error: Cannot read file: embedded null byte"] = .ok ix ∧
      Tool.call sampleFiles ix "read_file_content"
        (.ofFields [("file_path", .text "/r/a\x00b.java")]) =
          .error (.path "/r/a\x00b.java" .embeddedNul) := by
  have habsolute : sampleFiles.absolute "/r/a\x00b.java" = "/r/a\x00b.java" := by decide +kernel
  refine ⟨fun parser => ?_, _, rfl, rfl⟩
  rw [Extract.processFile_of_embeddedNul parser (by rw [habsolute]; decide), habsolute]

end Sample

end Tool

end CodeAtlas

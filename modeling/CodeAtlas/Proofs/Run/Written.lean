import CodeAtlas.Proofs.Data.Json
import CodeAtlas.Proofs.Extract.Scheduling
import CodeAtlas.Proofs.Text.Loose
import CodeAtlas.Run.Extraction

/-! # Which results can be written

A result whose path is a text has the line that it is read back from. Any other has a line with an
octet in it that belongs to no character, so it cannot be written.
-/

namespace CodeAtlas.Run

open Text (LooseText LooseChar)

theorem map_intercalate {α β : Type} (f : α → β) (separator : List α) (parts : List (List α)) :
    (separator.intercalate parts).map f =
      (separator.map f).intercalate (parts.map (·.map f)) := by
  induction parts with
  | nil => rfl
  | cons part parts ih =>
    cases parts with
    | nil => simp
    | cons part' parts =>
      simp only [List.intercalate_cons_cons, List.map_append, List.map_cons] at ih ⊢
      rw [ih]

theorem quoted_ofString (s : String) : quoted (.ofString s) = .ofString (Json.string false s) := by
  simp [quoted, LooseText.ofString, Json.string, List.flatMap_map, List.map_flatMap]

namespace Yielded

variable {x : Yielded}

def IsText (x : Yielded) : Prop := x.path = .ofString x.result.path

instance (x : Yielded) : Decidable x.IsText := inferInstanceAs (Decidable (_ = _))

theorem exists_toFields_eq (r : FileResult String) :
    ∃ rest, r.toFields = ("file", .text r.path) :: rest ∧ ∀ f ∈ rest, f.1 ≠ "file" := by
  cases r with
  | extracted e => exact ⟨_, rfl, by simp⟩
  | failed path reason => exact ⟨_, rfl, by simp⟩

theorem entry_of_ne {f : String × Value} (hf : f.1 ≠ "file") :
    x.entry f = (Json.entryText 1 f).map .char := by
  rw [entry, if_neg hf]
  simp [LooseText.ofString, Json.toList_string, Json.entryText, Json.lineText]

theorem IsText.entry_file (h : x.IsText) :
    x.entry ("file", .text x.result.path) =
      (Json.entryText 1 ("file", .text x.result.path)).map .char := by
  rw [entry, if_pos rfl, h, quoted_ofString]
  simp [LooseText.ofString, Json.toList_string, Json.entryText, Json.lineText_text]

theorem IsText.line_eq (h : x.IsText) : x.line = .ofString (Progress.line x.result) := by
  obtain ⟨rest, hfields, hrest⟩ := exists_toFields_eq x.result
  have hentries : x.result.toFields.map x.entry =
      (x.result.toFields.map (Json.entryText 1)).map (·.map LooseChar.char) := by
    rw [hfields, List.map_cons, List.map_cons, List.map_cons, h.entry_file, List.map_map]
    exact congrArg _ (List.map_congr_left fun f hf => entry_of_ne (hrest f hf))
  have hline : (Progress.line x.result).toList =
      '\x7b' :: (Json.joined (x.result.toFields.map (Json.entryText 1)) ++ ['\x7d']) :=
    Json.lineText_ofFields 0 x.result.toFields
  rw [line, hentries]
  simp [LooseText.ofString, hline, Json.joined, map_intercalate]

theorem octet_mem_line {b : UInt8} (h : .octet b ∈ x.path) : .octet b ∈ x.line := by
  obtain ⟨rest, hfields, -⟩ := exists_toFields_eq x.result
  have hquoted : LooseChar.octet b ∈ quoted x.path :=
    List.mem_cons_of_mem _ (List.mem_append_left _ (List.mem_flatMap.mpr ⟨_, h, by simp⟩))
  have hentry : LooseChar.octet b ∈ x.entry ("file", .text x.result.path) := by
    rw [entry, if_pos rfl]
    exact List.mem_append_right _ hquoted
  rw [line, hfields, List.map_cons]
  refine List.mem_append_right _ (List.mem_append_left _ ?_)
  cases rest with
  | nil => simpa using hentry
  | cons f rest =>
    rw [List.map_cons, List.intercalate_cons_cons, List.append_assoc]
    exact List.mem_append_left _ hentry

theorem IsText.written_eq (h : x.IsText) : x.written = .ok (Progress.line x.result) := by
  rw [written, h.line_eq, LooseText.encode_ofString]
  rfl

/-- A result whose path is no text is refused when it is written. -/
theorem exists_written_eq_error (h : ¬ x.IsText) :
    ∃ fault, x.written = .error (.notEncodable fault) := by
  cases hencode : x.line.encode with
  | error fault => exact ⟨fault, by rw [written, hencode]; rfl⟩
  | ok l =>
    have hline := LooseText.encode_eq_ok.mp hencode
    refine absurd ?_ h
    rw [IsText, x.path_eq]
    refine LooseText.eq_ofString_shown fun b hb => ?_
    exact LooseText.octet_notMem_ofString b l (hline ▸ octet_mem_line hb)

theorem path_ofResult (r : FileResult String) : (ofResult r).path = .ofString r.path := rfl

theorem result_ofResult (r : FileResult String) : (ofResult r).result = r := rfl

theorem isText_ofResult (r : FileResult String) : (ofResult r).IsText := rfl

end Yielded

namespace Target

def recorded (home : String) : Target → LooseText
  | .file path => .ofString (Path.absolute home path)
  | .stray s => .ofOctets s.octets

def IsFile : Target → Prop
  | .file _ => True
  | .stray _ => False

variable (parser : Extract.Parser) (fs : Files) (v : Vocabulary) (tolerant : Bool)

theorem path_yielded (t : Target) :
    (t.yielded parser fs v tolerant).path = t.recorded fs.home := by
  cases t with
  | file path =>
    have hrecords := Batch.recordsPath_processFile parser fs v tolerant
    rw [yielded, recorded, Yielded.path_ofResult, hrecords.path_resultOf, Files.absolute]
  | stray s => rw [yielded, recorded]

theorem isText_yielded {t : Target} : (t.yielded parser fs v tolerant).IsText ↔ t.IsFile := by
  cases t with
  | file path => exact iff_of_true (Yielded.isText_ofResult _) trivial
  | stray s =>
    refine iff_of_false ?_ id
    rw [yielded, Yielded.IsText]
    exact LooseText.ofOctets_ne_ofString s.illegible _

variable {parser fs v tolerant}

/-- Sources that are recorded under one path have the same result. -/
theorem yielded_congr {t t' : Target} (ht : t.IsFile) (ht' : t'.IsFile)
    (h : t.recorded fs.home = t'.recorded fs.home) :
    t.yielded parser fs v tolerant = t'.yielded parser fs v tolerant := by
  cases t with
  | stray s => cases ht
  | file path =>
    cases t' with
    | stray s => cases ht'
    | file path' =>
      have hrecords := Batch.recordsPath_processFile parser fs v tolerant
      rw [yielded, yielded, hrecords.resultOf_congr (LooseText.ofString_injective h)]

end Target

end CodeAtlas.Run

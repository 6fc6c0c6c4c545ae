import CodeAtlas.Proofs.Exchange.Contents
import CodeAtlas.Text.Blank

/-! # The line of a file result

The exchange form of a file result is printed on one line, and nothing can be trimmed off the line.
If it stands for texts, and its numerals can be written, the line is read as the exchange form.
-/

namespace CodeAtlas

open Json (IsPlain)

theorem FileResult.isPlain_toValue (r : FileResult String) : IsPlain none r.toValue :=
  FileResult.isPlain_toValue_of (arePlain_texts _)

theorem Text.trimWhere_enclosed {p : Char → Bool} {a b : Char} (ha : p a = false)
    (hb : p b = false) (cs : List Char) :
    Text.trimWhere p (a :: (cs ++ [b])) = a :: (cs ++ [b]) := by
  simp [Text.trimWhere, Text.dropWhileEnd, ha, hb]

section Line

variable {α : Type} [Cell α] (r : FileResult α)

def FileResult.line : String := Json.print .line r.toValue

theorem FileResult.toList_line : ∃ cs : List Char,
    r.line.toList = '\x7b' :: (cs ++ ['\x7d']) :=
  ⟨_, Json.lineText_ofFields 0 r.toFields⟩

theorem FileResult.trim_line : Text.trim r.line = r.line := by
  obtain ⟨cs, hcs⟩ := r.toList_line
  have htrim : Text.trimWhere Text.isBlank ('\x7b' :: (cs ++ ['\x7d'])) =
      '\x7b' :: (cs ++ ['\x7d']) :=
    Text.trimWhere_enclosed (by decide) (by decide) cs
  rw [Text.trim, hcs, htrim, ← hcs, String.ofList_toList]

theorem FileResult.allBlank_line : Text.allBlank r.line = false := by
  obtain ⟨cs, hcs⟩ := r.toList_line
  have hbrace : Text.isBlank '\x7b' = false := by decide
  rw [Text.allBlank, hcs, List.all_cons, hbrace, Bool.false_and]

def FileResult.IsPrintable : Prop := IsPlain (some Text.digitLimit) r.toValue

end Line

namespace FileResult

/-- The result without the count of faulty nodes, which is not written. -/
def withoutFaults {α : Type} : FileResult α → FileResult α
  | .extracted e => .extracted { e with parseErrorCount := 0 }
  | .failed path reason => .failed path reason

/-- Types have names, stages are in the order of their ordinals, and numerals can be written. -/
structure IsRegular (r : FileResult String) : Prop where
  named : ∀ e ∈ r.extraction?, ∀ t ∈ e.types, t.name ≠ ""
  ordered : ∀ e ∈ r.extraction?, e.stages.Pairwise fun a b => a.ordinal < b.ordinal
  writable : r.toValue.isWritable = true

theorem IsRegular.isPrintable {r : FileResult String} (h : r.IsRegular) : r.IsPrintable :=
  r.isPlain_toValue.of_isWritable h.writable

theorem IsRegular.ofValue_toValue {r : FileResult String} (h : r.IsRegular) :
    FileResult.ofValue r.toValue = .ok (r.withoutFaults.map .text) := by
  cases r with
  | failed path reason => exact ofValue_failed path reason
  | extracted e =>
    rw [ofValue_extracted,
      FileExtraction.ofValue_toFields (FileExtraction.isLegible_of_named (h.named e rfl)),
      FileExtraction.readBack_of_increasing (h.ordered e rfl)]
    rfl

end FileResult

end CodeAtlas

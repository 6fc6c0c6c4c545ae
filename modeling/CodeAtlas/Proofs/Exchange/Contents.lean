import CodeAtlas.Proofs.Data.Reading
import CodeAtlas.Proofs.Exchange.RoundTrip

/-! # Exchange forms that can be printed

The exchange form of a file result is plain if what stands in its text positions is, and what is
read from a plain value has only plain parts in its text positions.
-/

namespace CodeAtlas

open Json (IsPlain)

section Contents

variable {α : Type}

def Parameter.contents (p : Parameter α) : List α := [p.name, p.type]

def LocalVariable.contents (v : LocalVariable α) : List α :=
  v.name :: v.type :: v.initialValue.toList

def Method.contents (m : Method α) : List α :=
  m.name :: m.returnType :: (m.parameters.flatMap Parameter.contents ++ m.body.toList ++ m.calls ++
    m.locals.flatMap LocalVariable.contents)

def Field.contents (f : Field α) : List α := f.name :: f.type :: f.initialValue.toList

def TypeDeclaration.contents (t : TypeDeclaration α) : List α :=
  t.name :: (t.extended ++ t.implemented ++ t.methods.flatMap Method.contents ++
    t.fields.flatMap Field.contents)

def Stage.contents (s : Stage α) : List α := s.operation :: (s.arguments ++ s.binding.toList)

def FileExtraction.contents (e : FileExtraction α) : List α :=
  e.path :: (e.source.package.toList ++ e.source.imports ++
    e.types.flatMap TypeDeclaration.contents ++ e.stages.flatMap Stage.contents)

def FileResult.contents : FileResult α → List α
  | .extracted e => e.contents
  | .failed path _ => [path]

end Contents

section Writing

variable {α β : Type} [Cell α]

/-- All of the parts can be printed, whatever the number of digits. -/
def ArePlain (xs : List α) : Prop := ∀ x ∈ xs, IsPlain none (Cell.toValue x)

@[simp] theorem arePlain_nil : ArePlain ([] : List α) := List.forall_mem_nil _

@[simp] theorem arePlain_cons {x : α} {xs : List α} :
    ArePlain (x :: xs) ↔ IsPlain none (Cell.toValue x) ∧ ArePlain xs := List.forall_mem_cons

@[simp] theorem arePlain_append {xs ys : List α} :
    ArePlain (xs ++ ys) ↔ ArePlain xs ∧ ArePlain ys := List.forall_mem_append

@[simp] theorem arePlain_flatMap {bs : List β} {f : β → List α} :
    ArePlain (bs.flatMap f) ↔ ∀ b ∈ bs, ArePlain (f b) := by
  simp only [ArePlain, List.forall_mem_flatMap]

theorem arePlain_texts (xs : List String) : ArePlain xs := fun x _ => .text x

theorem isPlain_int (n : ℤ) : IsPlain none (.int n) := .int nofun

theorem isPlain_list {toValue : β → Value} {bs : List β}
    (h : ∀ b ∈ bs, IsPlain none (toValue b)) : IsPlain none (.list (bs.map toValue)) :=
  .list (List.forall_mem_map.mpr h)

theorem isPlain_cells {xs : List α} (h : ArePlain xs) : IsPlain none (cells xs) := isPlain_list h

theorem isPlain_cell? {x : Option α} (h : ArePlain x.toList) : IsPlain none (cell? x) := by
  cases x with
  | none => exact .null
  | some a => exact h a (List.mem_singleton_self a)

theorem isPlain_of_mem_optionalField {key : String} {x : Option α} (h : ArePlain x.toList)
    {f : String × Value} (hf : f ∈ optionalField key x) : IsPlain none f.2 := by
  cases x with
  | none => exact absurd hf List.not_mem_nil
  | some a =>
    obtain rfl := List.mem_singleton.mp hf
    exact h a (List.mem_singleton_self a)

theorem Parameter.isPlain_toValue {p : Parameter α} (h : ArePlain p.contents) :
    IsPlain none p.toValue := by
  simp only [contents, arePlain_cons] at h
  obtain ⟨hname, htype, -⟩ := h
  refine .record (by simp) fun f hf => ?_
  simp only [List.mem_cons, List.not_mem_nil, or_false] at hf
  rcases hf with rfl | rfl
  · exact hname
  · exact htype

theorem LocalVariable.isPlain_toValue {v : LocalVariable α} (h : ArePlain v.contents) :
    IsPlain none v.toValue := by
  simp only [contents, arePlain_cons] at h
  obtain ⟨hname, htype, hinitial⟩ := h
  refine .record (by cases v.initialValue <;> simp [optionalField]) fun f hf => ?_
  simp only [List.mem_append, List.mem_cons, List.not_mem_nil, or_false] at hf
  rcases hf with (rfl | rfl) | hf
  · exact hname
  · exact htype
  · exact isPlain_of_mem_optionalField hinitial hf

theorem Method.isPlain_toValue {m : Method α} (h : ArePlain m.contents) :
    IsPlain none m.toValue := by
  simp only [contents, arePlain_cons, arePlain_append, arePlain_flatMap] at h
  obtain ⟨hname, hreturn, ⟨⟨hparameters, hbody⟩, hcalls⟩, hlocals⟩ := h
  refine .record (by cases m.body <;> simp [optionalField]) fun f hf => ?_
  simp only [List.mem_append, List.mem_cons, List.not_mem_nil, or_false] at hf
  rcases hf with ((rfl | rfl | rfl | rfl | rfl) | hf) | (rfl | rfl)
  · exact hname
  · exact hreturn
  · exact .bool _
  · exact .bool _
  · exact isPlain_list fun p hp => Parameter.isPlain_toValue (hparameters p hp)
  · exact isPlain_of_mem_optionalField hbody hf
  · exact isPlain_cells hcalls
  · exact isPlain_list fun v hv => LocalVariable.isPlain_toValue (hlocals v hv)

theorem Field.isPlain_toValue {x : Field α} (h : ArePlain x.contents) : IsPlain none x.toValue := by
  simp only [contents, arePlain_cons] at h
  obtain ⟨hname, htype, hinitial⟩ := h
  refine .record (by cases x.initialValue <;> simp [optionalField]) fun f hf => ?_
  simp only [List.mem_append, List.mem_cons, List.not_mem_nil, or_false] at hf
  rcases hf with (rfl | rfl | rfl | rfl) | hf
  · exact hname
  · exact htype
  · exact .bool _
  · exact .bool _
  · exact isPlain_of_mem_optionalField hinitial hf

theorem TypeDeclaration.isPlain_toValue {t : TypeDeclaration α} (h : ArePlain t.contents) :
    IsPlain none t.toValue := by
  simp only [contents, arePlain_cons, arePlain_append, arePlain_flatMap] at h
  obtain ⟨hname, ⟨⟨hextended, himplemented⟩, hmethods⟩, hfields⟩ := h
  refine .record (by simp) fun f hf => ?_
  simp only [List.mem_cons, List.not_mem_nil, or_false] at hf
  rcases hf with rfl | rfl | rfl | rfl | rfl | rfl
  · exact hname
  · exact .bool _
  · exact isPlain_cells hextended
  · exact isPlain_cells himplemented
  · exact isPlain_list fun m hm => Method.isPlain_toValue (hmethods m hm)
  · exact isPlain_list fun x hx => Field.isPlain_toValue (hfields x hx)

theorem Stage.isPlain_toValue {s : Stage α} (h : ArePlain s.contents) : IsPlain none s.toValue := by
  simp only [contents, arePlain_cons, arePlain_append] at h
  obtain ⟨hoperation, harguments, hbinding⟩ := h
  refine .record (by simp [Stage.toFields]) fun f hf => ?_
  simp only [Stage.toFields, List.mem_cons, List.not_mem_nil, or_false] at hf
  rcases hf with rfl | rfl | rfl | rfl | rfl
  · exact hoperation
  · exact isPlain_cells harguments
  · exact isPlain_cell? hbinding
  · exact isPlain_int _
  · exact isPlain_int _

theorem FileExtraction.isPlain_sections {e : FileExtraction α}
    (h : ∀ s ∈ e.stages, ArePlain s.contents) : IsPlain none (.ofFields e.sections) := by
  refine .record (by simp [sections, StageTag.all, StageTag.plural]) fun f hf => ?_
  obtain ⟨tag, -, rfl⟩ := List.mem_map.mp hf
  exact isPlain_list fun s hs => Stage.isPlain_toValue (h s (List.mem_filter.mp hs).1)

/-- The exchange form of a file result is plain if its text positions are. -/
theorem FileResult.isPlain_toValue_of {r : FileResult α} (h : ArePlain r.contents) :
    IsPlain none r.toValue := by
  cases r with
  | failed path reason =>
    refine .record (by simp [FileResult.toFields]) fun f hf => ?_
    simp only [FileResult.toFields, List.mem_cons, List.not_mem_nil, or_false] at hf
    rcases hf with rfl | rfl
    · exact h path (List.mem_singleton_self path)
    · exact .text _
  | extracted e =>
    simp only [contents, FileExtraction.contents, arePlain_cons, arePlain_append,
      arePlain_flatMap] at h
    obtain ⟨hpath, ⟨⟨hpackage, himports⟩, htypes⟩, hstages⟩ := h
    refine .record (by simp [FileResult.toFields, FileExtraction.toFields_eq]) fun f hf => ?_
    simp only [FileResult.toFields, FileExtraction.toFields_eq, List.mem_cons, List.not_mem_nil,
      or_false] at hf
    rcases hf with rfl | rfl | rfl | rfl | rfl
    · exact hpath
    · exact isPlain_cell? hpackage
    · exact isPlain_cells himports
    · exact isPlain_list fun t ht => TypeDeclaration.isPlain_toValue (htypes t ht)
    · exact FileExtraction.isPlain_sections hstages

end Writing

section Access

variable {v w : Value} {key : String} (h : IsPlain none v)

include h

theorem isPlain_of_entry? (hw : v.entry? key = .ok (some w)) : IsPlain none w := by
  unfold Value.entry? at hw
  split at hw
  · obtain ⟨fields, rfl, -, hfields⟩ := Json.isPlain_map_iff.mp h
    rw [lookup_map_text] at hw
    obtain ⟨before, after, heq, -⟩ := List.lookup_eq_some_iff.mp (Except.ok.inj hw)
    exact hfields (key, w) (by simp [heq])
  · cases hw

theorem isPlain_of_entryD {d : Value} (hd : IsPlain none d) (hw : v.entryD key d = .ok w) :
    IsPlain none w := by
  obtain ⟨given, hgiven, heq⟩ := bind_eq_ok_iff.mp hw
  cases heq
  cases given with
  | none => exact hd
  | some given => exact isPlain_of_entry? h hgiven

theorem isPlain_of_entry (hw : v.entry key = .ok w) : IsPlain none w := by
  unfold Value.entry at hw
  split at hw
  · split at hw
    · next hlookup =>
      cases hw
      exact isPlain_of_entry? h (congrArg Except.ok hlookup)
    · cases hw
  all_goals cases hw

theorem arePlain_of_elements {ws : List Value} (hws : v.elements = .ok ws) : ArePlain ws := by
  cases h with
  | list hitems =>
    cases hws
    exact hitems
  | record =>
    cases hws
    refine List.forall_mem_map.mpr (List.forall_mem_map.mpr fun f _ => ?_)
    exact .text f.1
  | text s =>
    cases hws
    exact List.forall_mem_map.mpr fun c _ => .text _
  | _ => cases hws

theorem arePlain_of_elementsAt {ws : List Value} (hws : elementsAt v key = .ok ws) :
    ArePlain ws := by
  obtain ⟨w, hw, hws⟩ := bind_eq_ok_iff.mp hws
  exact arePlain_of_elements (isPlain_of_entryD h (.list (List.forall_mem_nil _)) hw) hws

theorem arePlain_of_cellAt? {x : Option Value} (hx : cellAt? v key = .ok x) :
    ArePlain x.toList := by
  obtain ⟨given, hgiven, heq⟩ := bind_eq_ok_iff.mp hx
  cases heq
  cases given with
  | none => exact arePlain_nil
  | some w =>
    intro a ha
    have hpresent : w.present? = some a := by simpa using ha
    have hw := isPlain_of_entry? h hgiven
    unfold Value.present? at hpresent
    split at hpresent
    · cases hpresent
    · cases hpresent
      exact hw

end Access

theorem arePlain_flatMap_of_mapM {β : Type} {ws : List Value} {bs : List β}
    {ofValue : Value → Result β} {contents : β → List Value} (hws : ArePlain ws)
    (hbs : ws.mapM ofValue = .ok bs)
    (hone : ∀ {w}, IsPlain none w → ∀ {b}, ofValue w = .ok b → ArePlain (contents b)) :
    ArePlain (bs.flatMap contents) := by
  refine arePlain_flatMap.mpr fun b hb => ?_
  obtain ⟨w, hw, hread⟩ := exists_of_mem_mapM hbs hb
  exact hone (hws w hw) hread

section Records

variable {v : Value} (h : IsPlain none v)

include h

theorem Parameter.arePlain_of_ofValue {p : Parameter Value} (hp : Parameter.ofValue v = .ok p) :
    ArePlain p.contents := by
  simp only [ofValue, bind_eq_ok_iff] at hp
  obtain ⟨name, hname, type, htype, heq⟩ := hp
  cases heq
  simp only [contents, arePlain_cons, arePlain_nil, and_true]
  exact ⟨isPlain_of_entry h hname, isPlain_of_entry h htype⟩

theorem LocalVariable.arePlain_of_ofValue {x : LocalVariable Value}
    (hx : LocalVariable.ofValue v = .ok x) : ArePlain x.contents := by
  simp only [ofValue, bind_eq_ok_iff] at hx
  obtain ⟨name, hname, type, htype, initial, hinitial, heq⟩ := hx
  cases heq
  simp only [contents, arePlain_cons]
  exact ⟨isPlain_of_entry h hname, isPlain_of_entry h htype, arePlain_of_cellAt? h hinitial⟩

theorem Field.arePlain_of_ofValue {x : Field Value} (hx : Field.ofValue v = .ok x) :
    ArePlain x.contents := by
  simp only [ofValue, bind_eq_ok_iff] at hx
  obtain ⟨name, hname, type, htype, _, -, _, -, initial, hinitial, heq⟩ := hx
  cases heq
  simp only [contents, arePlain_cons]
  exact ⟨isPlain_of_entry h hname, isPlain_of_entry h htype, arePlain_of_cellAt? h hinitial⟩

theorem Method.arePlain_of_ofValue {m : Method Value} (hm : Method.ofValue v = .ok m) :
    ArePlain m.contents := by
  simp only [ofValue, bind_eq_ok_iff] at hm
  obtain ⟨name, hname, returnType, hreturn, _, -, _, -, ps, hps, parameters, hparameters, body,
    hbody, calls, hcalls, ls, hls, locals, hlocals, heq⟩ := hm
  cases heq
  simp only [contents, arePlain_cons, arePlain_append]
  refine ⟨isPlain_of_entry h hname, isPlain_of_entryD h (.text "") hreturn,
    ⟨⟨?_, arePlain_of_cellAt? h hbody⟩, arePlain_of_elementsAt h hcalls⟩, ?_⟩
  · exact arePlain_flatMap_of_mapM (arePlain_of_elementsAt h hps) hparameters
      Parameter.arePlain_of_ofValue
  · exact arePlain_flatMap_of_mapM (arePlain_of_elementsAt h hls) hlocals
      LocalVariable.arePlain_of_ofValue

theorem TypeDeclaration.arePlain_of_ofValue {t : TypeDeclaration Value}
    (ht : TypeDeclaration.ofValue v = .ok t) : ArePlain t.contents := by
  simp only [ofValue, bind_eq_ok_iff] at ht
  obtain ⟨name, hname, _, -, extended, hextended, implemented, himplemented, ms, hms, methods,
    hmethods, fs, hfs, fields, hfields, heq⟩ := ht
  split at heq
  · cases heq
    simp only [contents, arePlain_cons, arePlain_append]
    refine ⟨isPlain_of_entry h hname, ⟨⟨arePlain_of_elementsAt h hextended,
      arePlain_of_elementsAt h himplemented⟩, ?_⟩, ?_⟩
    · exact arePlain_flatMap_of_mapM (arePlain_of_elementsAt h hms) hmethods
        Method.arePlain_of_ofValue
    · exact arePlain_flatMap_of_mapM (arePlain_of_elementsAt h hfs) hfields
        Field.arePlain_of_ofValue
  · cases heq

theorem Stage.arePlain_of_ofValue {tag : StageTag} {ordinal : ℕ} {s : Stage Value}
    (hs : Stage.ofValue tag ordinal v = .ok s) : ArePlain s.contents := by
  simp only [ofValue, bind_eq_ok_iff] at hs
  obtain ⟨operation, hoperation, arguments, harguments, binding, hbinding, _, -, _, -, _, -, _, -,
    heq⟩ := hs
  cases heq
  simp only [contents, arePlain_cons, arePlain_append]
  exact ⟨isPlain_of_entry h hoperation, arePlain_of_elementsAt h harguments,
    arePlain_of_cellAt? h hbinding⟩

end Records

theorem arePlain_of_stagesOfValues {tag : StageTag} {next : ℕ} {vs : List Value}
    {ss : List (Stage Value)} (hvs : ArePlain vs) (h : stagesOfValues tag next vs = .ok ss) :
    ∀ s ∈ ss, ArePlain s.contents := by
  induction vs generalizing next ss with
  | nil =>
    cases h
    exact List.forall_mem_nil _
  | cons v vs ih =>
    obtain ⟨s, rest, hs, hrest, rfl⟩ := stagesOfValues_cons_eq_ok_iff.mp h
    obtain ⟨hv, hvs⟩ := arePlain_cons.mp hvs
    exact List.forall_mem_cons.mpr ⟨Stage.arePlain_of_ofValue hv hs, ih hvs hrest⟩

theorem arePlain_of_stagesByTag {sections : Value} {tags : List StageTag} {next : ℕ}
    {ss : List (Stage Value)} (hsections : IsPlain none sections)
    (h : stagesByTag sections next tags = .ok ss) : ∀ s ∈ ss, ArePlain s.contents := by
  induction tags generalizing next ss with
  | nil =>
    cases h
    exact List.forall_mem_nil _
  | cons tag tags ih =>
    obtain ⟨vs, here, rest, hvs, hhere, hrest, rfl⟩ := stagesByTag_cons_eq_ok_iff.mp h
    exact List.forall_mem_append.mpr
      ⟨arePlain_of_stagesOfValues (arePlain_of_elementsAt hsections hvs) hhere, ih hrest⟩

theorem FileExtraction.arePlain_of_ofValue {v : Value} {e : FileExtraction Value}
    (h : IsPlain none v) (he : FileExtraction.ofValue v = .ok e) : ArePlain e.contents := by
  simp only [ofValue, bind_eq_ok_iff] at he
  obtain ⟨given, hgiven, ss, hss, path, hpath, package, hpackage, imports, himports, ts, hts, types,
    htypes, heq⟩ := he
  cases heq
  have hsections : IsPlain none (if given.truthy then given else .map []) := by
    split
    · exact isPlain_of_entryD h .null hgiven
    · exact Json.isPlain_map_nil
  simp only [contents, arePlain_cons, arePlain_append]
  refine ⟨isPlain_of_entry h hpath, ⟨⟨arePlain_of_cellAt? h hpackage,
    arePlain_of_elementsAt h himports⟩, ?_⟩, ?_⟩
  · exact arePlain_flatMap_of_mapM (arePlain_of_elementsAt h hts) htypes
      TypeDeclaration.arePlain_of_ofValue
  · refine arePlain_flatMap.mpr fun s hs => ?_
    exact arePlain_of_stagesByTag hsections hss s (List.mem_mergeSort.mp hs)

/-- What is read from a plain value has only plain parts in its text positions. -/
theorem FileResult.arePlain_of_ofValue {v : Value} {r : FileResult Value} (h : IsPlain none v)
    (hr : FileResult.ofValue v = .ok r) : ArePlain r.contents := by
  simp only [ofValue, bind_eq_ok_iff] at hr
  obtain ⟨failed, -, hr⟩ := hr
  cases failed with
  | true =>
    obtain ⟨path, hpath, hr⟩ := bind_eq_ok_iff.mp hr
    obtain ⟨reason, -, heq⟩ := bind_eq_ok_iff.mp hr
    cases heq
    exact List.forall_mem_singleton.mpr (isPlain_of_entry h hpath)
  | false =>
    obtain ⟨e, he, heq⟩ := bind_eq_ok_iff.mp hr
    cases heq
    exact FileExtraction.arePlain_of_ofValue h he

end CodeAtlas

import Mathlib.Data.List.Forall2
import CodeAtlas.Data.Equal
import CodeAtlas.Model.Wire

/-! # Entries of written records

A record is written as a mapping with texts as keys. Reading an entry of it is looking up its key
among the fields that were written.
-/

namespace CodeAtlas

section Except

variable {ε β γ : Type}

@[simp] theorem ok_bind (x : β) (f : β → Except ε γ) : (Except.ok x >>= f) = f x := rfl

@[simp] theorem map_ok (x : β) (f : β → γ) : f <$> (.ok x : Except ε β) = .ok (f x) := rfl

@[simp] theorem pure_eq_ok (x : β) : (pure x : Except ε β) = .ok x := rfl

theorem bind_eq_ok_iff {x : Except ε β} {f : β → Except ε γ} {z : γ} :
    (x >>= f) = .ok z ↔ ∃ y, x = .ok y ∧ f y = .ok z := by
  cases x with
  | error failure => exact ⟨nofun, nofun⟩
  | ok y => simp

end Except

theorem mapM_eq_ok_iff {β γ : Type} {f : β → Result γ} {xs : List β} {ys : List γ} :
    xs.mapM f = .ok ys ↔ List.Forall₂ (fun x y => f x = .ok y) xs ys := by
  induction xs generalizing ys with
  | nil => simp [eq_comm]
  | cons x xs ih => simp [bind_eq_ok_iff, List.forall₂_cons_left_iff, ih, eq_comm (b := ys)]

theorem exists_of_mem_mapM {β γ : Type} {f : β → Result γ} {xs : List β} {ys : List γ} {y : γ}
    (h : xs.mapM f = .ok ys) (hy : y ∈ ys) : ∃ x ∈ xs, f x = .ok y := by
  induction mapM_eq_ok_iff.mp h with
  | nil => simp at hy
  | @cons x y' xs ys hx hxs ih =>
    rcases List.mem_cons.mp hy with rfl | hy
    · exact ⟨x, List.mem_cons_self, hx⟩
    · obtain ⟨x', hm, hx'⟩ := ih (mapM_eq_ok_iff.mpr hxs) hy
      exact ⟨x', List.mem_cons_of_mem _ hm, hx'⟩

theorem mapM_comp_ok {β γ δ : Type} {f : β → γ} {read : γ → Result δ} {g : β → δ} {xs : List β}
    (h : ∀ x ∈ xs, read (f x) = .ok (g x)) : xs.mapM (read ∘ f) = .ok (xs.map g) := by
  induction xs with
  | nil => rfl
  | cons x xs ih =>
    rw [List.mapM_cons, Function.comp_apply, h x (List.mem_cons_self ..), ok_bind,
      ih fun y hy => h y (List.mem_cons_of_mem _ hy)]
    rfl

theorem same_text (k k' : String) : (Scalar.text k).same (.text k') = (k == k') := by
  by_cases h : k = k' <;> simp [Scalar.same, Scalar.canonical, h]

@[simp] theorem same_text_text (s s' : String) :
    (Value.text s).same (.text s') = (s == s') := by
  rw [Value.same, same_text]

@[simp] theorem same_int_int (m n : Int) : (Value.int m).same (.int n) = (m == n) := by
  by_cases h : m = n <;> simp [Value.same, Scalar.same, Scalar.canonical, h]

theorem lookup_map_text (fields : List (String × Value)) (key : String) :
    Value.lookup (fields.map fun (k, v) => (.text k, v)) (.text key) = fields.lookup key := by
  induction fields with
  | nil => rfl
  | cons f fields ih =>
    rw [List.map_cons, List.lookup_cons, ← ih, Value.lookup, List.find?_cons, same_text,
      Bool.beq_comm]
    cases key == f.1 <;> rfl

section Fields

variable (fields : List (String × Value)) (key : String)

@[simp] theorem entry?_ofFields :
    Value.entry? (Value.ofFields fields) key = .ok (fields.lookup key) := by
  rw [Value.ofFields, Value.entry?, lookup_map_text]

@[simp] theorem entryD_ofFields (default : Value) :
    (Value.ofFields fields).entryD key default = .ok ((fields.lookup key).getD default) := by
  rw [Value.entryD, entry?_ofFields]
  rfl

@[simp] theorem entry_ofFields : (Value.ofFields fields).entry key =
    match fields.lookup key with
    | some v => .ok v
    | none => .error (.missingEntry key) := by
  cases h : fields.lookup key <;> simp [Value.ofFields, Value.entry, lookup_map_text, h]

@[simp] theorem mentions_ofFields :
    (Value.ofFields fields).mentions key = .ok (fields.lookup key).isSome := by
  rw [Value.ofFields, Value.mentions, lookup_map_text]

@[simp] theorem elements_list (xs : List Value) : (Value.list xs).elements = .ok xs := rfl

@[simp] theorem truthy_bool (b : Bool) : (Value.bool b).truthy = b := rfl

@[simp] theorem toInt_int (n : Int) : (Value.int n).toInt = .ok n := rfl

end Fields

section Optional

variable {α : Type} [Cell α]

/-- A part that may be absent, and that is not written as null when it is there. -/
def Legible (x : Option α) : Prop := ∀ a ∈ x, Cell.toValue a ≠ .null

@[simp] theorem lookup_optionalField (key key' : String) (x : Option α) :
    (optionalField key x).lookup key' = if key' = key then x.map Cell.toValue else none := by
  cases x with
  | none => simp [optionalField]
  | some a =>
    by_cases h : key' = key
    · simp [optionalField, h]
    · simp [optionalField, List.lookup_cons, beq_eq_false_iff_ne.mpr h, h]

theorem present?_of_ne_null {v : Value} (h : v ≠ .null) : v.present? = some v := by
  unfold Value.present?
  split
  · exact absurd rfl h
  · rfl

/-- A part that may be absent is read as it was written, left out when absent. -/
theorem bind_present? {x : Option α} (h : Legible x) :
    (x.map Cell.toValue).bind Value.present? = x.map Cell.toValue := by
  cases x with
  | none => rfl
  | some a => exact present?_of_ne_null (h a rfl)

/-- A part that may be absent is read as it was written, null when absent. -/
theorem present?_cell? {x : Option α} (h : Legible x) :
    (cell? x).present? = x.map Cell.toValue := by
  cases x with
  | none => rfl
  | some a => exact present?_of_ne_null (h a rfl)

theorem legible_text (x : Option String) : Legible x := fun a _ => by simp [Cell.toValue]

end Optional

section Stages

variable {next : ℕ} {ss : List (Stage Value)}

theorem stagesOfValues_cons_eq_ok_iff {tag : StageTag} {v : Value} {vs : List Value} :
    stagesOfValues tag next (v :: vs) = .ok ss ↔ ∃ s rest, Stage.ofValue tag next v = .ok s ∧
      stagesOfValues tag (next + 1) vs = .ok rest ∧ ss = s :: rest := by
  simp [stagesOfValues, bind_eq_ok_iff, eq_comm (a := ss)]

theorem stagesByTag_cons_eq_ok_iff {sections : Value} {tag : StageTag} {tags : List StageTag} :
    stagesByTag sections next (tag :: tags) = .ok ss ↔ ∃ vs here rest,
      elementsAt sections tag.plural = .ok vs ∧ stagesOfValues tag next vs = .ok here ∧
        stagesByTag sections (next + here.length) tags = .ok rest ∧ ss = here ++ rest := by
  simp [stagesByTag, bind_eq_ok_iff, eq_comm (a := ss)]

end Stages

end CodeAtlas

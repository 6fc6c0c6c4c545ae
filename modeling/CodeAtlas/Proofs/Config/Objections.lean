import CodeAtlas.Config.Document
import CodeAtlas.Proofs.Text.Encoding

/-! # Taken strictly and taken leniently

A computation that objects to its configuration is refused at the first objection if it is taken
strictly. Taken leniently it warns of every objection and goes on with a default. So the one run
follows from the other, and two computations in a row object in a row.
-/

namespace CodeAtlas

namespace Warned

variable {β γ : Type}

theorem run_bind (x : Warned β) (f : β → Warned γ) (before : List String) :
    (x >>= f).run.run before = match x.run.run before with
      | (.ok y, after) => (f y).run.run after
      | (.error why, after) => (.error why, after) := by
  unfold ExceptT.run StateT.run
  simp only [bind, ExceptT.bind, ExceptT.mk, StateT.bind]
  rcases x before with ⟨_ | y, after⟩ <;> rfl

def warning (why : String) : String := why ++ "; using defaults"

/-- A result after objections, if there must be none. -/
def refusedFor : List String → Result β → Result β
  | [], r => r
  | why :: _, _ => .error (.configuration why)

/-- A computation comes to a result after some objections: taken leniently it warns of each of them,
and taken strictly it is refused for the first. -/
structure Settles (x : Bool → Warned β) (r : Result β) (whys : List String) : Prop where
  lenient : ∀ before, (x false).run.run before = (r, before ++ whys.map warning)
  strict : ∀ before, (x true).run.run before = (refusedFor whys r, before)

section Settles

variable {x : Bool → Warned β} {r : Result β} {whys : List String}

theorem Settles.outcome_lenient (h : Settles x r whys) :
    (x false).outcome = (r, whys.map warning) := by
  rw [outcome, h.lenient, List.nil_append]

theorem Settles.outcome_strict (h : Settles x r whys) :
    (x true).outcome = (refusedFor whys r, []) := h.strict []

theorem Settles.outcome (h : Settles x r []) (strict : Bool) : (x strict).outcome = (r, []) := by
  cases strict
  · exact h.outcome_lenient
  · exact h.outcome_strict

theorem settles_ofResult {r' : Result β} (h : r' = r) : Settles (fun _ => ofResult r') r [] where
  lenient before := by
    rw [h, List.map_nil, List.append_nil]
    rfl
  strict before := by
    rw [h]
    rfl

theorem settles_pure (y : β) : Settles (fun _ => pure y) (.ok y) [] := settles_ofResult rfl

theorem settles_throw (why : Failure) :
    Settles (fun _ => (throw why : Warned β)) (.error why) [] := settles_ofResult rfl

theorem settles_reject (why : String) (default : β) :
    Settles (fun strict => reject strict why default) (.ok default) [why] :=
  ⟨fun _ => rfl, fun _ => rfl⟩

theorem Settles.bind {y : β} {f : Bool → β → Warned γ} {r : Result γ} {whys' : List String}
    (hx : Settles x (.ok y) whys) (hf : Settles (fun strict => f strict y) r whys') :
    Settles (fun strict => x strict >>= f strict) r (whys ++ whys') where
  lenient before := by
    rw [run_bind, hx.lenient]
    dsimp only
    rw [hf.lenient, List.map_append, List.append_assoc]
  strict before := by
    rw [run_bind, hx.strict]
    cases whys with
    | nil => exact hf.strict before
    | cons why whys => rfl

theorem Settles.bind_error {why : Failure} {f : Bool → β → Warned γ}
    (hx : Settles x (.error why) whys) :
    Settles (fun strict => x strict >>= f strict) (.error why) whys where
  lenient before := by rw [run_bind, hx.lenient]
  strict before := by
    rw [run_bind, hx.strict]
    cases whys <;> rfl

theorem Settles.bind_nil {f : Bool → β → Warned γ} {g : β → Result γ} (hx : Settles x r [])
    (hf : ∀ y, Settles (fun strict => f strict y) (g y) []) :
    Settles (fun strict => x strict >>= f strict) (r >>= g) [] := by
  cases r with
  | error why => exact hx.bind_error
  | ok y => exact hx.bind (hf y)

end Settles

end Warned

theorem Yaml.Misfit.failure_ne_configuration (misfit : Misfit) (why : String) :
    misfit.failure ≠ .configuration why := by
  cases misfit <;> simp [Misfit.failure]

namespace Config

open Warned

def Holds (reader : Reader) (fs : Files) (path : String) (v : Value) : Prop :=
  ∃ content text, fs.read path = .ok content ∧ Text.Utf8.decode? content.toList = .ok text ∧
    reader text = .ok v

variable {reader : Reader} {fs : Files} {path : String}

theorem settles_load_of_holds {entries : List (Scalar × Value)}
    (h : Holds reader fs path (.map entries)) : Settles (load reader fs path) (.ok entries) [] := by
  obtain ⟨content, text, hcontent, htext, hread⟩ := h
  have hload : load reader fs path = fun _ => pure entries := by
    funext strict
    simp only [load, hcontent, htext, hread]
  rw [hload]
  exact settles_pure entries

/-- A file is read, or it cannot be read however it is taken. -/
theorem exists_settles_load (reader : Reader) (fs : Files) (path : String) :
    (∃ f : Failure, (∀ why, f ≠ .configuration why) ∧ Settles (load reader fs path) (.error f) []) ∨
      ∃ entries whys, Settles (load reader fs path) (.ok entries) whys := by
  unfold load
  cases fs.read path with
  | error fault =>
    cases fault with
    | missing => exact .inr ⟨_, _, settles_reject _ _⟩
    | _ => exact .inl ⟨_, by simp, settles_throw _⟩
  | ok content =>
    dsimp only
    cases Text.Utf8.decode? content.toList with
    | error m => exact .inl ⟨_, by simp, settles_throw _⟩
    | ok text =>
      dsimp only
      rcases reader text with (why | misfit) | v
      · exact .inr ⟨_, _, settles_reject _ _⟩
      · exact .inl ⟨_, misfit.failure_ne_configuration, settles_throw _⟩
      · rcases v with s | _ | entries | _ | _
        · cases s <;> exact .inr ⟨_, _, settles_reject _ _⟩
        · exact .inr ⟨_, _, settles_reject _ _⟩
        · exact .inr ⟨_, _, settles_pure entries⟩
        · exact .inr ⟨_, _, settles_reject _ _⟩
        · exact .inr ⟨_, _, settles_reject _ _⟩

def single (text : String) : Files := ⟨"/", .directory [("conf.yml", .file text.toUTF8)]⟩

theorem holds_single {text : String} {v : Value} (h : reader text = .ok v) :
    Holds reader (single text) "conf.yml" v := by
  have hparts : (single text).parts "conf.yml" = ["", "conf.yml"] := by
    change Path.parts (Path.join "/" "conf.yml") = _
    decide +kernel
  refine ⟨text.toUTF8, text, ?_, Text.Utf8.decode?_toUTF8 text, h⟩
  rw [Files.read, Files.find, if_neg (by decide +kernel), if_neg (by decide +kernel), hparts]
  rfl

end Config

end CodeAtlas

import CodeAtlas.Config.Connection
import CodeAtlas.Proofs.Config.Objections
import CodeAtlas.Proofs.Exchange.Entries

/-! # Services taken strictly and leniently

A strict resolution of the connection refuses what the lenient one warns of first. The one failure
that neither of them turns into an objection is that of an integer with too many digits, which
cannot be written out.
-/

namespace CodeAtlas

/-- The failure of a value that has an integer of too many digits in it. -/
def Value.unwritable : Failure :=
  .unusable s!"Exceeds the limit ({Text.digitLimit} digits) for integers in text"

theorem Value.written_eq (v : Value) :
    v.written = if v.isWritable then .ok v.plain else .error unwritable := rfl

/-- An integer that has too many digits in decimal, though not in hexadecimal. -/
def Value.longInteger : Value := .int (Nat.pow 16 3600 : ℕ)

theorem Value.isWritable_longInteger : longInteger.isWritable = false := by decide +kernel

namespace Warned

variable {β γ : Type}

/-- A computation fails exactly in some circumstances, and then for a value that cannot be
written. -/
def FailsWriting (x : Bool → Warned β) (p : Prop) : Prop :=
  ∃ r whys, Settles x r whys ∧ (p ∧ r = .error Value.unwritable ∨ ¬ p ∧ ∃ y, r = .ok y)

variable {x : Bool → Warned β}

theorem Settles.never_fails {y : β} {whys : List String} (h : Settles x (.ok y) whys) :
    FailsWriting x False :=
  ⟨_, _, h, .inr ⟨id, y, rfl⟩⟩

theorem Settles.fails {whys : List String} {p : Prop}
    (h : Settles x (.error Value.unwritable) whys) (hp : p) : FailsWriting x p :=
  ⟨_, _, h, .inl ⟨hp, rfl⟩⟩

theorem FailsWriting.congr {p q : Prop} (h : FailsWriting x p) (hpq : p ↔ q) :
    FailsWriting x q := by
  rwa [propext hpq] at h

theorem Settles.bind_failsWriting {y : β} {whys : List String} {q : Prop}
    {f : Bool → β → Warned γ} (hx : Settles x (.ok y) whys)
    (hf : FailsWriting (fun strict => f strict y) q) :
    FailsWriting (fun strict => x strict >>= f strict) q := by
  obtain ⟨r, whys', hf, hr⟩ := hf
  exact ⟨r, whys ++ whys', hx.bind hf, hr⟩

theorem FailsWriting.bind {p q : Prop} {f : Bool → β → Warned γ} (hx : FailsWriting x p)
    (hf : ∀ y, FailsWriting (fun strict => f strict y) q) :
    FailsWriting (fun strict => x strict >>= f strict) (p ∨ q) := by
  obtain ⟨r, whys, hx, ⟨hp, rfl⟩ | ⟨hp, y, rfl⟩⟩ := hx
  · exact hx.bind_error.fails (Or.inl hp)
  · exact (hx.bind_failsWriting (hf y)).congr (or_iff_right hp).symm

theorem FailsWriting.bind_pure {p : Prop} (hx : FailsWriting x p) (g : β → γ) :
    FailsWriting (fun strict => x strict >>= fun y => pure (g y)) p :=
  (hx.bind (f := fun _ y => pure (g y)) fun y => (settles_pure (g y)).never_fails).congr
    (iff_of_eq (or_false p))

end Warned

namespace Compose

open Warned

section Service

variable (data : List (Scalar × Value)) (name : String)

def describedBy : List (Scalar × Value) :=
  match Value.lookup data (.text "services") with
  | some (.map services) =>
    match Value.lookup services (.text name) with
    | some (.map entries) => entries
    | _ => []
  | _ => []

/-- What stands under an entry of a service; an empty list if nothing does. -/
def partOf (key : String) : Value :=
  (Value.lookup (describedBy data name) (.text key)).getD (.list [])

theorem exists_settles_service :
    ∃ whys, Settles (service (.map data) name) (.ok (describedBy data name)) whys ∧
      (whys = [] ∨ describedBy data name = []) := by
  have hservice : service (.map data) name = fun strict =>
      match Value.lookup data (.text "services") with
      | some (.map services) =>
        match Value.lookup services (.text name) with
        | some (.map entries) => pure entries
        | _ => reject strict s!"docker-compose missing service '{name}'" []
      | _ => reject strict "docker-compose missing 'services' section" [] := rfl
  rw [hservice, describedBy]
  split
  · split
    · exact ⟨_, settles_pure _, .inl rfl⟩
    · exact ⟨_, settles_reject _ _, .inr rfl⟩
  · exact ⟨_, settles_reject _ _, .inr rfl⟩

variable {β : Type} {f : Value → Bool → Warned β} {r : Result β} {whys : List String} {p : Prop}

/-- What is made of a part fails as it does on its own, whatever the service is objected to for. -/
theorem failsWriting_part (key : String) (h : FailsWriting (f (partOf data name key)) p) :
    FailsWriting (fun strict => service (.map data) name strict >>= fun entries =>
      f ((Value.lookup entries (.text key)).getD (.list [])) strict) p := by
  obtain ⟨whys, hservice, -⟩ := exists_settles_service data name
  exact hservice.bind_failsWriting (f := fun strict entries =>
    f ((Value.lookup entries (.text key)).getD (.list [])) strict) h

theorem settles_part (key : String) (hpart : partOf data name key ≠ .list [])
    (h : Settles (f (partOf data name key)) r whys) :
    Settles (fun strict => service (.map data) name strict >>= fun entries =>
      f ((Value.lookup entries (.text key)).getD (.list [])) strict) r whys := by
  obtain ⟨whys', hservice, rfl | hnone⟩ := exists_settles_service data name
  · exact hservice.bind (f := fun strict entries =>
      f ((Value.lookup entries (.text key)).getD (.list [])) strict) h
  · exact absurd (by rw [partOf, hnone]; rfl) hpart

end Service

/-- A mapping publishes a number inside the container. -/
def Publishes (mapping : Value) (inside : Int) : Prop :=
  ∃ p, publication? mapping.plain = some (p, inside)

/-- A mapping that cannot be written comes before any that publishes a number. -/
def MeetsUnwritable (inside : Int) (mappings : List Value) : Prop :=
  ∃ before v after, mappings = before ++ v :: after ∧ v.isWritable = false ∧
    ∀ w ∈ before, w.isWritable = true ∧ ¬ Publishes w inside

section Published

variable {inside : Int} {v : Value} {mappings : List Value}

theorem meetsUnwritable_cons_of_unwritable (hv : v.isWritable = false) :
    MeetsUnwritable inside (v :: mappings) :=
  ⟨[], v, mappings, rfl, hv, List.forall_mem_nil _⟩

theorem meetsUnwritable_cons_iff (hv : v.isWritable = true) :
    MeetsUnwritable inside (v :: mappings) ↔
      ¬ Publishes v inside ∧ MeetsUnwritable inside mappings := by
  constructor
  · rintro ⟨before, w, after, h, hw, hbefore⟩
    cases before with
    | nil =>
      obtain ⟨rfl, -⟩ := List.cons.inj h
      rw [hv] at hw
      cases hw
    | cons u before =>
      obtain ⟨rfl, rfl⟩ := List.cons.inj h
      obtain ⟨hu, hbefore⟩ := List.forall_mem_cons.mp hbefore
      exact ⟨hu.2, before, w, after, rfl, hw, hbefore⟩
  · rintro ⟨hnot, before, w, after, rfl, hw, hbefore⟩
    exact ⟨v :: before, w, after, rfl, hw, List.forall_mem_cons.mpr ⟨⟨hv, hnot⟩, hbefore⟩⟩

theorem publishedFor?_cons_of_not_publishes (hv : v.isWritable = true)
    (hnot : ¬ Publishes v inside) :
    publishedFor? inside (v :: mappings) = publishedFor? inside mappings := by
  rw [publishedFor?, Value.written_eq, if_pos hv, ok_bind]
  cases h : publication? v.plain with
  | none => rfl
  | some p => exact if_neg fun hp => hnot ⟨p.1, by rw [h, ← hp]⟩

theorem publishedFor?_cons_of_publication {p : Int} (hv : v.isWritable = true)
    (hp : publication? v.plain = some (p, inside)) :
    publishedFor? inside (v :: mappings) = .ok (some p) := by
  rw [publishedFor?, Value.written_eq, if_pos hv, ok_bind, hp]
  exact if_pos rfl

theorem publishedFor?_of_meetsUnwritable (h : MeetsUnwritable inside mappings) :
    publishedFor? inside mappings = .error Value.unwritable := by
  obtain ⟨before, v, after, rfl, hv, hbefore⟩ := h
  induction before with
  | nil =>
    rw [List.nil_append, publishedFor?, Value.written_eq, if_neg (by rw [hv]; decide)]
    rfl
  | cons w before ih =>
    obtain ⟨hw, hbefore⟩ := List.forall_mem_cons.mp hbefore
    rw [List.cons_append, publishedFor?_cons_of_not_publishes hw.1 hw.2, ih hbefore]

theorem exists_publishedFor? (h : ¬ MeetsUnwritable inside mappings) :
    ∃ p?, publishedFor? inside mappings = .ok p? := by
  induction mappings with
  | nil => exact ⟨none, rfl⟩
  | cons v mappings ih =>
    have hv : v.isWritable = true :=
      Bool.of_not_eq_false fun hv => h (meetsUnwritable_cons_of_unwritable hv)
    rw [meetsUnwritable_cons_iff hv] at h
    by_cases hpublishes : Publishes v inside
    · obtain ⟨p, hp⟩ := hpublishes
      exact ⟨some p, publishedFor?_cons_of_publication hv hp⟩
    · rw [publishedFor?_cons_of_not_publishes hv hpublishes]
      exact ih fun hmeets => h ⟨hpublishes, hmeets⟩

end Published

def publishedBy (name : String) (inside default : Int) (ports : Value) (strict : Bool) :
    Warned Int :=
  match ports with
  | .list mappings => do
    match ← ofResult (publishedFor? inside mappings) with
    | some p => return p
    | none =>
      reject strict s!"Service '{name}' has no mapping for container port {inside}" default
  | _ => reject strict s!"Service '{name}' has invalid 'ports' section" default

theorem published_eq (data : List (Scalar × Value)) (name : String) (inside default : Int) :
    published (.map data) name inside default = fun strict =>
      service (.map data) name strict >>= fun entries =>
        publishedBy name inside default ((Value.lookup entries (.text "ports")).getD (.list []))
          strict := rfl

/-- The mappings of a service cannot be written up to the one that publishes a number. -/
def HasUnwritableMapping (ports : Value) (inside : Int) : Prop :=
  ∃ mappings, ports = .list mappings ∧ MeetsUnwritable inside mappings

theorem failsWriting_published (data : List (Scalar × Value)) (name : String)
    (inside default : Int) : FailsWriting (published (.map data) name inside default)
      (HasUnwritableMapping (partOf data name "ports") inside) := by
  rw [published_eq]
  apply failsWriting_part data name "ports"
  unfold publishedBy
  cases partOf data name "ports" with
  | list mappings =>
    by_cases hmeets : MeetsUnwritable inside mappings
    · have hfails := settles_ofResult (publishedFor?_of_meetsUnwritable hmeets)
      exact hfails.bind_error.fails ⟨mappings, rfl, hmeets⟩
    · obtain ⟨p?, hp⟩ := exists_publishedFor? hmeets
      refine ((settles_ofResult hp).bind_failsWriting (q := False) ?_).congr ?_
      · cases p? with
        | none => exact (settles_reject _ _).never_fails
        | some p => exact (settles_pure p).never_fails
      · refine iff_of_false id ?_
        rintro ⟨_, h, hmeets'⟩
        cases h
        exact hmeets hmeets'
  | _ =>
    refine (settles_reject _ _).never_fails.congr (iff_of_false id ?_)
    rintro ⟨_, h, -⟩
    cases h

theorem mapM_written (items : List Value) : items.mapM Value.written =
    if Value.areWritable items then .ok (items.map Value.plain) else .error Value.unwritable := by
  induction items with
  | nil => rfl
  | cons v items ih =>
    rw [List.mapM_cons, ih, Value.written_eq, Value.areWritable]
    cases v.isWritable <;> cases Value.areWritable items <;> rfl

def settingText (setting : Scalar × Value) : String :=
  (Value.scalar setting.1).plain ++ "=" ++ setting.2.plain

theorem mapM_settingText (entries : List (Scalar × Value)) :
    (entries.mapM fun (k, v) =>
      (return (← (Value.scalar k).written) ++ "=" ++ (← v.written) : Result String)) =
    if Value.areWritableEntries entries then .ok (entries.map settingText)
    else .error Value.unwritable := by
  induction entries with
  | nil => rfl
  | cons e entries ih =>
    obtain ⟨k, v⟩ := e
    rw [List.mapM_cons, ih]
    dsimp only
    rw [Value.written_eq, Value.written_eq, Value.areWritableEntries, Value.isWritable]
    cases Value.isWritableScalar k <;> cases v.isWritable <;>
      cases Value.areWritableEntries entries <;> rfl

/-- The texts of the settings in an environment, whether or not they can be written. -/
def settingTexts? : Value → Option (List String)
  | .map entries => some (entries.map settingText)
  | .list items => some (items.map Value.plain)
  | _ => none

theorem settings?_eq (environment : Value) : settings? environment =
    (settingTexts? environment).map fun texts =>
      if environment.isWritable then .ok texts else .error Value.unwritable := by
  cases environment with
  | map entries => exact congrArg some (mapM_settingText entries)
  | list items => exact congrArg some (mapM_written items)
  | _ => rfl

/-- The settings in an environment cannot all be written. -/
def HasUnwritableSetting (environment : Value) : Prop :=
  (settingTexts? environment).isSome = true ∧ environment.isWritable = false

theorem failsWriting_credentials (raw : String) (default : Credentials) :
    FailsWriting (credentials raw default) False := by
  unfold credentials
  cases credentials? raw with
  | none => exact (settles_reject _ _).never_fails
  | some c => exact (settles_pure c).never_fails

def credentialsIn (default : Credentials) (environment : Value) (strict : Bool) :
    Warned Credentials :=
  match settings? environment with
  | none => reject strict "neo4j.environment must be list or dict" default
  | some settings => do
    match (← ofResult settings).findSome? (after? credentialsMark) with
    | some raw => credentials raw default strict
    | none => reject strict "NEO4J_AUTH not found in neo4j service environment" default

theorem auth_eq {env : Environment} (h : env.text? "NEO4J_AUTH" = none)
    (data : List (Scalar × Value)) (default : Credentials) :
    auth env (.map data) default = fun strict =>
      service (.map data) "neo4j" strict >>= fun entries =>
        credentialsIn default ((Value.lookup entries (.text "environment")).getD (.list []))
          strict := by
  unfold auth
  rw [h]
  rfl

theorem failsWriting_auth (env : Environment) (data : List (Scalar × Value))
    (default : Credentials) : FailsWriting (auth env (.map data) default)
      (env.text? "NEO4J_AUTH" = none ∧
        HasUnwritableSetting (partOf data "neo4j" "environment")) := by
  cases hauth : env.text? "NEO4J_AUTH" with
  | some raw =>
    unfold auth
    rw [hauth]
    exact (failsWriting_credentials raw default).congr (iff_of_false id nofun)
  | none =>
    rw [auth_eq hauth]
    refine (failsWriting_part data "neo4j" "environment" ?_).congr (and_iff_right rfl).symm
    unfold credentialsIn
    rw [HasUnwritableSetting, settings?_eq]
    cases settingTexts? (partOf data "neo4j" "environment") with
    | none => exact (settles_reject _ _).never_fails.congr (iff_of_false id nofun)
    | some texts =>
      cases (partOf data "neo4j" "environment").isWritable with
      | false => exact (settles_ofResult rfl).bind_error.fails ⟨rfl, rfl⟩
      | true =>
        refine ((settles_ofResult rfl).bind_failsWriting (q := False) ?_).congr
          (iff_of_false id nofun)
        cases h : texts.findSome? (after? credentialsMark) with
        | none => exact (settles_reject _ _).never_fails
        | some raw => exact failsWriting_credentials raw default

end Compose

end CodeAtlas

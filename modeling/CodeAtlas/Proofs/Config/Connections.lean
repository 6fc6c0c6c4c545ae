import CodeAtlas.Proofs.Config.Services

/-! # Resolving the connection strictly and leniently

For every environment and every composition file the strict resolution of the connection is refused
for what the lenient one warns of first, and the two are the same if there is nothing to warn of.
-/

namespace CodeAtlas.Connection

open Compose Warned

section Resolution

variable (reader : Config.Reader) (env : Environment) (fs : Files) (path : String)

/-- The entries of the composition file, which is not read if the environment says enough. -/
def composition (strict : Bool) : Warned (List (Scalar × Value)) :=
  if (env.text? "NEO4J_URI").isSome && (env.text? "NEO4J_AUTH").isSome then pure []
  else Config.load reader fs path strict

def address (data : List (Scalar × Value)) (strict : Bool) : Warned String :=
  match env.text? "NEO4J_URI" with
  | some uri => pure uri
  | none => do
    let n ← published (.map data) "neo4j" listeningNumber listeningNumber strict
    pure s!"bolt://127.0.0.1:{n}"

def ofComposition (data : List (Scalar × Value)) (strict : Bool) : Warned Connection := do
  let uri ← address env data strict
  let c ← auth env (.map data) defaultCredentials strict
  pure ⟨uri, c.1, c.2, (env.get? "NEO4J_DATABASE").getD "neo4j"⟩

theorem resolve_eq (strict : Bool) : resolve reader env fs path (some strict) =
    composition reader env fs path strict >>= fun data => ofComposition env data strict := by
  unfold resolve composition ofComposition address
  cases env.text? "NEO4J_URI" <;> cases env.text? "NEO4J_AUTH" <;>
    simp [pure_bind]

/-- Among what a resolution writes out is a value that cannot be written. -/
def HasUnwritable (data : List (Scalar × Value)) : Prop :=
  (env.text? "NEO4J_URI" = none ∧
      HasUnwritableMapping (partOf data "neo4j" "ports") listeningNumber) ∨
    (env.text? "NEO4J_AUTH" = none ∧ HasUnwritableSetting (partOf data "neo4j" "environment"))

theorem failsWriting_address (data : List (Scalar × Value)) :
    FailsWriting (address env data)
      (env.text? "NEO4J_URI" = none ∧
        HasUnwritableMapping (partOf data "neo4j" "ports") listeningNumber) := by
  unfold address
  cases env.text? "NEO4J_URI" with
  | some uri => exact (settles_pure uri).never_fails.congr (iff_of_false id nofun)
  | none =>
    have hpublished := failsWriting_published data "neo4j" listeningNumber listeningNumber
    exact (hpublished.bind_pure _).congr (and_iff_right rfl).symm

theorem failsWriting_ofComposition (data : List (Scalar × Value)) :
    FailsWriting (ofComposition env data) (HasUnwritable env data) :=
  (failsWriting_address env data).bind fun _ =>
    (failsWriting_auth env data defaultCredentials).bind_pure _

theorem exists_settles_composition :
    (∃ f : Failure, (∀ why, f ≠ .configuration why) ∧
      Settles (composition reader env fs path) (.error f) []) ∨
      ∃ data whys, Settles (composition reader env fs path) (.ok data) whys := by
  unfold composition
  split
  · exact .inr ⟨[], [], settles_pure []⟩
  · exact Config.exists_settles_load reader fs path

end Resolution

/-- If the composition file cannot be read, both resolutions fail for that. Else the strict one is
refused for the first warning of the lenient one, or comes to the same result if there are no
warnings. The lenient one fails exactly if it has to write an integer of too many digits. -/
theorem strict_follows_lenient (reader : Config.Reader) (env : Environment) (fs : Files)
    (path : String) :
    (∃ f : Failure, (∀ why, f ≠ .configuration why) ∧ ∀ strict,
      (composition reader env fs path strict).outcome = (.error f, []) ∧
        (resolve reader env fs path (some strict)).outcome = (.error f, [])) ∨
    ∃ data r, (composition reader env fs path false).outcome.1 = .ok data ∧
      (HasUnwritable env data ∧ r = .error Value.unwritable ∨
        ¬ HasUnwritable env data ∧ ∃ c, r = .ok c) ∧
      ((∃ why rest,
          (resolve reader env fs path (some true)).outcome = (.error (.configuration why), []) ∧
          (resolve reader env fs path (some false)).outcome =
            (r, (why ++ "; using defaults") :: rest)) ∨
        ∀ strict, (resolve reader env fs path (some strict)).outcome = (r, [])) := by
  have hresolve : (fun strict => resolve reader env fs path (some strict)) = fun strict =>
      composition reader env fs path strict >>= fun data => ofComposition env data strict :=
    funext fun strict => resolve_eq reader env fs path strict
  rcases exists_settles_composition reader env fs path with ⟨f, hf, hread⟩ | ⟨data, whys, hread⟩
  · have hfails : Settles (fun strict => resolve reader env fs path (some strict)) (.error f) [] :=
      hresolve ▸ hread.bind_error
    exact .inl ⟨f, hf, fun strict => ⟨hread.outcome strict, hfails.outcome strict⟩⟩
  · obtain ⟨r, whys', hdata, hr⟩ := failsWriting_ofComposition env data
    have hsettles : Settles (fun strict => resolve reader env fs path (some strict)) r
        (whys ++ whys') :=
      hresolve ▸ hread.bind hdata
    refine .inr ⟨data, r, by rw [hread.outcome_lenient], hr, ?_⟩
    cases hwhys : whys ++ whys' with
    | nil =>
      rw [hwhys] at hsettles
      exact .inr hsettles.outcome
    | cons why rest =>
      rw [hwhys] at hsettles
      exact .inl ⟨why, rest.map warning, hsettles.outcome_strict, hsettles.outcome_lenient⟩

/-- A service without mappings, and a long integer in its environment. -/
def sampleLong : List (Scalar × Value) :=
  [(.text "services", .ofFields [("neo4j", .ofFields [("environment", .list [.longInteger])])])]

/-- What is refused strictly need not be replaced by a default leniently. -/
theorem sampleLong_fails :
    (ofComposition ⟨[]⟩ sampleLong true).outcome =
      (.error (.configuration "Service 'neo4j' has no mapping for container port 7687"), []) ∧
    (ofComposition ⟨[]⟩ sampleLong false).outcome.1 = .error Value.unwritable := by
  refine ⟨rfl, ?_⟩
  have hunwritable : HasUnwritable ⟨[]⟩ sampleLong := by
    refine .inr ⟨rfl, rfl, ?_⟩
    change Value.areWritable [.longInteger] = false
    rw [Value.areWritable, Value.isWritable_longInteger]
    rfl
  obtain ⟨r, whys, hsettles, ⟨-, rfl⟩ | ⟨hnot, -⟩⟩ := failsWriting_ofComposition ⟨[]⟩ sampleLong
  · rw [hsettles.outcome_lenient]
  · exact absurd hunwritable hnot

end CodeAtlas.Connection

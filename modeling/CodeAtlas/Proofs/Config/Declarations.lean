import CodeAtlas.Proofs.Config.Connections
import CodeAtlas.Proofs.Config.Publications

/-! # Resolving what a composition declares

The connection to a graph database that a composition declares has the published number and the
credentials as they are written, however the composition is taken. Only a value that cannot be
written, before the mapping or among the settings, is in the way.
-/

namespace CodeAtlas

open Compose Warned

namespace Compose

variable {data : List (Scalar × Value)} {inside : Int} {v : Value} {before after : List Value}

/-- What is published is looked for behind the mappings that are for other numbers, if these can be
written. -/
theorem publishedFor?_append (hbefore : ∀ w ∈ before, ¬ Publishes w inside) (rest : List Value) :
    publishedFor? inside (before ++ rest) =
      if Value.areWritable before then publishedFor? inside rest else .error Value.unwritable := by
  induction before with
  | nil => rfl
  | cons w before ih =>
    obtain ⟨hw, hbefore⟩ := List.forall_mem_cons.mp hbefore
    rw [List.cons_append, Value.areWritable]
    cases hwritable : w.isWritable with
    | false =>
      exact publishedFor?_of_meetsUnwritable (meetsUnwritable_cons_of_unwritable hwritable)
    | true =>
      rw [publishedFor?_cons_of_not_publishes hwritable hw, ih hbefore]
      rfl

theorem settles_published {p : Int} (name : String) (default : Int)
    (h : partOf data name "ports" = .list (before ++ v :: after))
    (hbefore : ∀ w ∈ before, ¬ Publishes w inside) (hv : v.isWritable = true)
    (hp : publication? v.plain = some (p, inside)) :
    Settles (published (.map data) name inside default)
      (if Value.areWritable before then .ok p else .error Value.unwritable) [] := by
  rw [published_eq]
  apply settles_part data name "ports" (by simp [h])
  rw [h]
  unfold publishedBy
  have hfor := publishedFor?_append hbefore (v :: after)
  rw [publishedFor?_cons_of_publication hv hp] at hfor
  cases hwritable : Value.areWritable before with
  | false =>
    rw [hwritable] at hfor
    exact (settles_ofResult hfor).bind_error
  | true =>
    rw [hwritable] at hfor
    exact (settles_ofResult hfor).bind (settles_pure p)

/-- An environment declares credentials: as an item of a list or under a key, behind settings of
other things. -/
inductive Declares (name password : String) : Value → Prop
  | item (before after : List Value)
    (hbefore : ∀ w ∈ before, w.plain.startsWith credentialsMark = false) :
    Declares name password
      (.list (before ++ .text (credentialsMark ++ (name ++ "/" ++ password)) :: after))
  | entry (before after : List (Scalar × Value))
    (hbefore : ∀ e ∈ before, (settingText e).startsWith credentialsMark = false) :
    Declares name password
      (.map (before ++ (.text "NEO4J_AUTH", .text (name ++ "/" ++ password)) :: after))

theorem Declares.exists_settingTexts? {name password : String} {environment : Value}
    (h : Declares name password environment) : ∃ before after, settingTexts? environment =
      some (before ++ (credentialsMark ++ (name ++ "/" ++ password)) :: after) ∧
        ∀ text ∈ before, text.startsWith credentialsMark = false := by
  cases h with
  | item before after hbefore =>
    refine ⟨before.map Value.plain, after.map Value.plain, ?_, List.forall_mem_map.mpr hbefore⟩
    rw [settingTexts?, List.map_append, List.map_cons]
    rfl
  | entry before after hbefore =>
    refine ⟨before.map settingText, after.map settingText, ?_, List.forall_mem_map.mpr hbefore⟩
    rw [settingTexts?, List.map_append, List.map_cons]
    rfl

theorem Declares.ne_nil {name password : String} {environment : Value}
    (h : Declares name password environment) : environment ≠ .list [] := by
  cases h <;> simp

theorem settles_credentials {name password : String} (default : Credentials) (hname : name ≠ "")
    (hslash : '/' ∉ name.toList) (hpassword : password ≠ "") :
    Settles (credentials (name ++ "/" ++ password) default) (.ok (name, password)) [] := by
  unfold credentials
  rw [credentials?_of_slash hname hpassword hslash]
  exact settles_pure _

theorem settles_auth {env : Environment} {name password : String} (default : Credentials)
    (hauth : env.text? "NEO4J_AUTH" = none)
    (h : Declares name password (partOf data "neo4j" "environment")) (hname : name ≠ "")
    (hslash : '/' ∉ name.toList) (hpassword : password ≠ "") :
    Settles (auth env (.map data) default)
      (if (partOf data "neo4j" "environment").isWritable then .ok (name, password)
        else .error Value.unwritable) [] := by
  rw [auth_eq hauth]
  apply settles_part data "neo4j" "environment" h.ne_nil
  obtain ⟨before, after, htexts, hbefore⟩ := h.exists_settingTexts?
  have hfind : (before ++ (credentialsMark ++ (name ++ "/" ++ password)) :: after).findSome?
      (after? credentialsMark) = some (name ++ "/" ++ password) :=
    List.findSome?_eq_some_iff.mpr ⟨before, _, after, rfl, after?_append _ _,
      fun text ht => after?_of_not_startsWith (hbefore text ht)⟩
  unfold credentialsIn
  rw [settings?_eq, htexts]
  cases (partOf data "neo4j" "environment").isWritable with
  | false => exact (settles_ofResult rfl).bind_error
  | true =>
    refine (settles_ofResult rfl).bind ?_
    rw [hfind]
    exact settles_credentials default hname hslash hpassword

end Compose

namespace Connection

/-- A composition declares under which number the graph database is published and how to log in. The
mapping comes after others, which are for other numbers. -/
structure Declares (data : List (Scalar × Value)) (before : List Value) (published : ℕ)
    (name password : String) : Prop where
  ports : ∃ address protocol after, (∀ a ∈ address, '/' ∉ a.toList) ∧
    partOf data "neo4j" "ports" =
      .list (before ++ .text (mappingText address published 7687 protocol) :: after)
  first : ∀ v ∈ before, ¬ Publishes v listeningNumber
  fits : published < 10 ^ Text.digitLimit
  environment : Compose.Declares name password (partOf data "neo4j" "environment")
  name_ne : name ≠ ""
  slash_not_mem : '/' ∉ name.toList
  password_ne : password ≠ ""

section Declared

variable {reader : Config.Reader} {env : Environment} {fs : Files} {path : String}
  {data : List (Scalar × Value)}
  {before : List Value} {published : ℕ} {name password : String}

theorem settles_address (huri : env.text? "NEO4J_URI" = none)
    (h : Declares data before published name password) :
    Settles (address env data)
      (if Value.areWritable before then .ok s!"bolt://127.0.0.1:{published}"
        else .error Value.unwritable) [] := by
  obtain ⟨a, protocol, after, ha, hports⟩ := h.ports
  have hread : publication? (mappingText a published 7687 protocol) =
      some ((published : ℤ), listeningNumber) :=
    publication?_of_isMapping (isMapping_mappingText ha published 7687 protocol) h.fits
      (Text.lt_pow_digitLimit (by decide))
  have hpublished := settles_published "neo4j" listeningNumber hports h.first rfl hread
  have haddress := hpublished.bind_nil fun p => settles_pure s!"bolt://127.0.0.1:{p}"
  unfold address
  rw [huri]
  cases hwritable : Value.areWritable before with
  | false => rwa [hwritable] at haddress
  | true => rwa [hwritable] at haddress

theorem settles_ofComposition (huri : env.text? "NEO4J_URI" = none)
    (hauth : env.text? "NEO4J_AUTH" = none) (h : Declares data before published name password) :
    Settles (ofComposition env data)
      (if Value.areWritable before && (partOf data "neo4j" "environment").isWritable then
        .ok ⟨s!"bolt://127.0.0.1:{published}", name, password,
          (env.get? "NEO4J_DATABASE").getD "neo4j"⟩
      else .error Value.unwritable) [] := by
  have hcredentials := settles_auth defaultCredentials hauth h.environment h.name_ne
    h.slash_not_mem h.password_ne
  have hsettles := (settles_address huri h).bind_nil fun uri => hcredentials.bind_nil fun c =>
    settles_pure (Connection.mk uri c.1 c.2 ((env.get? "NEO4J_DATABASE").getD "neo4j"))
  cases hbefore : Value.areWritable before <;>
    cases henvironment : (partOf data "neo4j" "environment").isWritable <;>
      rwa [hbefore, henvironment] at hsettles

/-- What a composition declares is what the connection is resolved to, unless something that is
written out on the way there cannot be written. -/
theorem resolve_of_declares (huri : env.text? "NEO4J_URI" = none)
    (hauth : env.text? "NEO4J_AUTH" = none) (hfile : Config.Holds reader fs path (.map data))
    (h : Declares data before published name password) (strict : Bool) :
    (resolve reader env fs path (some strict)).outcome =
      (if Value.areWritable before && (partOf data "neo4j" "environment").isWritable then
        .ok ⟨s!"bolt://127.0.0.1:{published}", name, password,
          (env.get? "NEO4J_DATABASE").getD "neo4j"⟩
      else .error Value.unwritable, []) := by
  have hcomposition : Settles (composition reader env fs path) (.ok data) [] := by
    unfold composition
    rw [huri]
    exact Config.settles_load_of_holds hfile
  have hresolve := hcomposition.bind (f := fun strict data => ofComposition env data strict)
    (settles_ofComposition huri hauth h)
  rw [resolve_eq, hresolve.outcome strict]

end Declared

def compositionOf (ports environment : List Value) : List (Scalar × Value) :=
  [(.text "services", .ofFields [("neo4j",
    .ofFields [("ports", .list ports), ("environment", .list environment)])])]

/-- A mapping with an address and a protocol behind another mapping, and a password with a slash, an
equals sign and a colon in it behind another setting. -/
def sampleDeclaring : String :=
  "services:\n neo4j:\n  ports: [80, '[::1]:17687:7687/tcp']\n" ++
  "  environment: [A=1, NEO4J_AUTH=neo4j/a/b=c:d]\n"

def sampleComposition : List (Scalar × Value) :=
  compositionOf [.int 80, .text "[::1]:17687:7687/tcp"]
    [.text "A=1", .text "NEO4J_AUTH=neo4j/a/b=c:d"]

theorem declares_sampleComposition :
    Declares sampleComposition [.int 80] 17687 "neo4j" "a/b=c:d" where
  ports := ⟨some "[::1]", some "tcp", [], by decide, rfl⟩
  first := by
    rintro v hv ⟨p, hp⟩
    obtain rfl := List.mem_singleton.mp hv
    have hother : publication? (Value.int 80).plain = some (80, 80) := by decide +kernel
    rw [hother] at hp
    cases hp
  fits := Text.lt_pow_digitLimit (by decide)
  environment := .item [.text "A=1"] [] (by decide)
  name_ne := by decide
  slash_not_mem := by decide
  password_ne := by decide

theorem sampleDeclaring_resolved :
    (resolve Yaml.read ⟨[]⟩ (Config.single sampleDeclaring) "conf.yml" (some true)).outcome =
      (.ok ⟨"bolt://127.0.0.1:17687", "neo4j", "a/b=c:d", "neo4j"⟩, []) := by
  have hfile : Config.Holds Yaml.read (Config.single sampleDeclaring) "conf.yml"
      (.map sampleComposition) :=
    Config.holds_single (by decide +kernel)
  have hwritable : (Value.areWritable [.int 80] &&
      (partOf sampleComposition "neo4j" "environment").isWritable) = true := by decide +kernel
  rw [resolve_of_declares rfl rfl hfile declares_sampleComposition true, if_pos hwritable]
  rfl

def sampleUnwritable : List (Scalar × Value) :=
  compositionOf [.text "17687:7687"] [.text "NEO4J_AUTH=neo4j/secret", .longInteger]

theorem declares_sampleUnwritable : Declares sampleUnwritable [] 17687 "neo4j" "secret" where
  ports := ⟨none, none, [], nofun, rfl⟩
  first := List.forall_mem_nil _
  fits := Text.lt_pow_digitLimit (by decide)
  environment := .item [] [_] (List.forall_mem_nil _)
  name_ne := by decide
  slash_not_mem := by decide
  password_ne := by decide

/-- A setting that cannot be written keeps those before it from being read. -/
theorem sampleUnwritable_fails :
    (ofComposition ⟨[]⟩ sampleUnwritable true).outcome = (.error Value.unwritable, []) := by
  have hunwritable : (partOf sampleUnwritable "neo4j" "environment").isWritable = false := by
    change Value.areWritable [.text "NEO4J_AUTH=neo4j/secret", .longInteger] = false
    rw [Value.areWritable, Value.areWritable, Value.isWritable_longInteger]
    rfl
  have hsettles := (settles_ofComposition rfl rfl declares_sampleUnwritable :
    Settles (ofComposition ⟨[]⟩ sampleUnwritable) _ [])
  rw [hunwritable] at hsettles
  exact hsettles.outcome true

end Connection

end CodeAtlas

import Mathlib.Data.Set.List
import CodeAtlas.Config.VocabularyFile
import CodeAtlas.Proofs.Config.Objections
import CodeAtlas.Proofs.Index.Latest
import CodeAtlas.Proofs.Pipeline.Classification

/-! # Vocabularies taken strictly and leniently

A vocabulary file whose keys are texts is refused strictly exactly if it has a section that no
vocabulary has, or one that is not a list of names; leniently it gives the standard vocabulary then.
A key of another kind fails either way.
-/

namespace CodeAtlas

section Sorting

variable {β κ : Type}

theorem map_snd_of_mapM {get : β → Option κ} {items : List β} {keyed : List (κ × β)}
    (h : (items.mapM fun x => (get x).map (·, x)) = some keyed) : keyed.map (·.2) = items := by
  induction items generalizing keyed with
  | nil =>
    obtain rfl := Option.some.inj h
    rfl
  | cons x items ih =>
    rw [List.mapM_cons, Option.bind_eq_bind, Option.bind_eq_some_iff] at h
    obtain ⟨p, hp, h⟩ := h
    obtain ⟨k, -, rfl⟩ := Option.map_eq_some_iff.mp hp
    obtain ⟨rest, hrest, h⟩ := Option.bind_eq_some_iff.mp h
    obtain rfl := Option.some.inj h
    rw [List.map_cons, ih hrest]

/-- Sorting puts the items in another order, or the items have no order. -/
theorem Value.sortOn_perm (key : β → Value) (items : List β) :
    (∃ sorted, sortOn key items = .ok sorted ∧ sorted.Perm items) ∨
      ∃ detail, sortOn key items = .error (.wrongType detail) := by
  have hkeyed {κ : Type} {get : β → Option κ} (le : κ × β → κ × β → Bool)
      {keyed : List (κ × β)} (h : (items.mapM fun x => (get x).map (·, x)) = some keyed) :
      ((keyed.mergeSort le).map (·.2)).Perm items :=
    ((List.mergeSort_perm keyed le).map _).trans (.of_eq (map_snd_of_mapM h))
  unfold sortOn
  split
  · exact .inl ⟨items, rfl, .rfl⟩
  · split
    · next h => exact .inl ⟨_, rfl, hkeyed _ h⟩
    · split
      · next h => exact .inl ⟨_, rfl, hkeyed _ h⟩
      · exact .inr ⟨_, rfl⟩

end Sorting

theorem Scalar.canonical_eq_text_iff {s : Scalar} {k : String} :
    s.canonical = .text k ↔ s = .text k := by
  cases s with
  | float x => cases h : x.integer? <;> simp [canonical, h]
  | _ => simp [canonical]

namespace Vocabulary

open Warned

/-- The keys of a mapping that are no sections of a vocabulary, each once. -/
def strangeKeys (entries : List (Scalar × Value)) : List Scalar :=
  (((entries.map (·.1)).filter fun k => !sections.any fun s => (Scalar.text s).same k).map
    Scalar.canonical).eraseDups

theorem strangers_eq (entries : List (Scalar × Value)) : strangers (.map entries) =
    Value.sortOn id ((strangeKeys entries).map .scalar) >>= joinNames 0 := by
  have hkeys : (entries.map fun e => Value.scalar e.1).mapM Value.asKey =
      .ok (entries.map (·.1)) := mapM_eq_ok_iff.mpr (by simp [List.forall₂_same, Value.asKey])
  rw [strangers, Value.elements, ok_bind, hkeys, ok_bind]
  rfl

theorem mem_strangeKeys_iff {entries : List (Scalar × Value)} {s : Scalar} :
    s ∈ strangeKeys entries ↔
      (∃ e ∈ entries, e.1.canonical = s) ∧ ∀ part ∈ sections, s ≠ .text part := by
  simp only [strangeKeys, List.mem_eraseDups, List.mem_map, List.mem_filter, Bool.not_eq_true',
    List.any_eq_false, Scalar.same, beq_iff_eq, Scalar.canonical]
  constructor
  · rintro ⟨k, ⟨⟨e, he, rfl⟩, hk⟩, rfl⟩
    exact ⟨⟨e, he, rfl⟩, fun part hpart heq => hk part hpart heq.symm⟩
  · rintro ⟨⟨e, he, rfl⟩, hs⟩
    exact ⟨e.1, ⟨⟨e, he, rfl⟩, fun part hpart heq => hs part hpart heq.symm⟩, rfl⟩

theorem joinNames_texts (place : ℕ) (names : List String) :
    joinNames place (names.map .text) = .ok names := by
  induction names generalizing place with
  | nil => rfl
  | cons n names ih =>
    rw [List.map_cons, joinNames, ih]
    rfl

theorem exists_joinNames_error {place : ℕ} {vs : List Value} (h : ∃ v ∈ vs, ∀ s, v ≠ .text s) :
    ∃ detail, joinNames place vs = .error (.wrongType detail) := by
  induction vs generalizing place with
  | nil => simp at h
  | cons v vs ih =>
    by_cases hv : ∃ s, v = .text s
    · obtain ⟨s, rfl⟩ := hv
      obtain ⟨detail, hrest⟩ := @ih (place + 1) (by simpa using h)
      exact ⟨detail, by rw [joinNames, hrest]; rfl⟩
    · refine ⟨_, joinNames.eq_3 place v vs ?_⟩
      exact fun s hs => hv ⟨s, hs⟩

/-- A key that is not a text cannot be named among those that are no sections. -/
theorem exists_strangers_error {entries : List (Scalar × Value)}
    (h : ∃ e ∈ entries, ∀ k, e.1 ≠ .text k) :
    ∃ detail, strangers (.map entries) = .error (.wrongType detail) := by
  obtain ⟨e, he, hkey⟩ := h
  have hstrange : e.1.canonical ∈ strangeKeys entries :=
    mem_strangeKeys_iff.mpr
      ⟨⟨e, he, rfl⟩, fun part _ heq => hkey part (Scalar.canonical_eq_text_iff.mp heq)⟩
  rw [strangers_eq]
  rcases Value.sortOn_perm id ((strangeKeys entries).map .scalar) with
    ⟨sorted, hsort, hperm⟩ | ⟨detail, hsort⟩
  · rw [hsort, ok_bind]
    refine exists_joinNames_error ⟨.scalar e.1.canonical, ?_, fun s hs => ?_⟩
    · exact hperm.mem_iff.mpr (List.mem_map_of_mem hstrange)
    · exact hkey s (Scalar.canonical_eq_text_iff.mp (Value.scalar.inj hs))
  · exact ⟨detail, by rw [hsort]; rfl⟩

theorem exists_strangers_ofFields (fields : List (String × Value)) :
    ∃ names, strangers (.ofFields fields) = .ok names ∧
      ∀ k, k ∈ names ↔ k ∈ fields.map (·.1) ∧ k ∉ sections := by
  change ∃ names, strangers (.map (fields.map fun f => (.text f.1, f.2))) = .ok names ∧ _
  have hkeys (k : String) : .text k ∈ strangeKeys (fields.map fun f => (.text f.1, f.2)) ↔
      k ∈ fields.map (·.1) ∧ k ∉ sections := by
    simp [mem_strangeKeys_iff, Scalar.canonical_eq_text_iff, sections]
  obtain ⟨ps, hps⟩ : strangeKeys (fields.map fun f => (.text f.1, f.2)) ∈
      Set.range (List.map Scalar.text) := by
    rw [Set.range_list_map]
    intro s hs
    obtain ⟨⟨e, he, rfl⟩, -⟩ := mem_strangeKeys_iff.mp hs
    obtain ⟨f, -, rfl⟩ := List.mem_map.mp he
    exact ⟨f.1, rfl⟩
  refine ⟨ps.mergeSort fun a b => decide (a ≤ b), ?_, fun k => ?_⟩
  · rw [strangers_eq, ← hps, List.map_map]
    exact (congrArg (· >>= joinNames 0) (Value.sortOn_texts ps)).trans (joinNames_texts 0 _)
  · rw [← hkeys, ← hps, List.mem_mergeSort, List.mem_map_of_injective fun _ _ => Scalar.text.inj]

/-- The items of a list or set are names, none of them empty. -/
def Lists (v : Value) (names : List String) : Prop :=
  items? v = some (names.map .text) ∧ "" ∉ names

theorem name?_eq_some_iff {v : Value} {n : String} : name? v = some n ↔ v = .text n ∧ n ≠ "" := by
  unfold name?
  split
  · next s => by_cases hs : s = "" <;> simp +contextual [hs, eq_comm]
  · next hv => exact iff_of_false nofun fun h => hv n h.1

theorem mapM_name?_eq_some_iff {items : List Value} {names : List String} :
    items.mapM name? = some names ↔ items = names.map .text ∧ "" ∉ names := by
  induction items generalizing names with
  | nil => cases names <;> simp
  | cons v items ih =>
    rw [List.mapM_cons]
    constructor
    · intro h
      obtain ⟨n, hn, h⟩ := Option.bind_eq_some_iff.mp h
      obtain ⟨rest, hrest, h⟩ := Option.bind_eq_some_iff.mp h
      obtain rfl := Option.some.inj h
      obtain ⟨rfl, hn'⟩ := name?_eq_some_iff.mp hn
      obtain ⟨rfl, hrest'⟩ := ih.mp hrest
      exact ⟨rfl, List.mem_cons.not.mpr (not_or.mpr ⟨hn'.symm, hrest'⟩)⟩
    · rintro ⟨h, hne⟩
      obtain ⟨n, rest, rfl, rfl, rfl⟩ := List.map_eq_cons_iff.mp h.symm
      obtain ⟨hn, hrest⟩ := not_or.mp (List.mem_cons.not.mp hne)
      rw [name?_eq_some_iff.mpr ⟨rfl, Ne.symm hn⟩, ih.mpr ⟨rfl, hrest⟩]
      rfl

section Sections

variable {fields : List (String × Value)} {part : String} {names : List String} {v : Value}

theorem readSection_of_missing (h : fields.lookup part = none) :
    readSection (.ofFields fields) part names = .ok names := by
  rw [readSection, mentions_ofFields, h]
  rfl

theorem readSection_of_given (h : fields.lookup part = some v) :
    readSection (.ofFields fields) part names = match items? v with
      | none => .error (.sectionNotList part)
      | some items => match items.mapM name? with
        | some names => .ok names.eraseDups
        | none => .error (.sectionNotNames part) := by
  rw [readSection, mentions_ofFields, entry_ofFields, h]
  rfl

/-- A section gives the names that it lists, or standard ones if it is missing. -/
def Gives (fields : List (String × Value)) (tag : StageTag) (names : List String) : Prop :=
  match fields.lookup tag.plural with
  | none => names = standard.namesFor tag
  | some v => Lists v names

def readTag (fields : List (String × Value)) (tag : StageTag) : Result (List String) :=
  readSection (.ofFields fields) tag.plural (standard.namesFor tag)

variable {tag : StageTag}

theorem gives_iff_of_missing (h : fields.lookup tag.plural = none) :
    Gives fields tag names ↔ names = standard.namesFor tag := by rw [Gives, h]

theorem gives_iff_of_given (h : fields.lookup tag.plural = some v) :
    Gives fields tag names ↔ Lists v names := by rw [Gives, h]

theorem lists_unique {names' : List String} (h : Lists v names) (h' : Lists v names') :
    names = names' := by
  have hmap := Option.some.inj (h.1.symm.trans h'.1)
  exact List.map_injective_iff.mpr (fun _ _ heq => Scalar.text.inj (Value.scalar.inj heq)) hmap

theorem exists_readTag (h : ∃ names, Gives fields tag names) :
    ∃ ns, readTag fields tag = .ok ns ∧
      ∀ n, n ∈ ns ↔ ∃ names, Gives fields tag names ∧ n ∈ names := by
  obtain ⟨names, h⟩ := h
  cases hv : fields.lookup tag.plural with
  | none => exact ⟨_, readSection_of_missing hv, by simp [gives_iff_of_missing hv]⟩
  | some v =>
    have hlists := (gives_iff_of_given hv).mp h
    refine ⟨names.eraseDups, ?_, fun n => ?_⟩
    · rw [readTag, readSection_of_given hv, hlists.1]
      dsimp only
      rw [mapM_name?_eq_some_iff.mpr ⟨rfl, hlists.2⟩]
    · rw [List.mem_eraseDups]
      refine ⟨fun hn => ⟨names, h, hn⟩, ?_⟩
      rintro ⟨names', h', hn⟩
      rwa [lists_unique hlists ((gives_iff_of_given hv).mp h')]

theorem exists_readTag_error (h : ∀ names, ¬ Gives fields tag names) :
    ∃ f, isContentFailure f = true ∧ readTag fields tag = .error f := by
  cases hv : fields.lookup tag.plural with
  | none => exact absurd ((gives_iff_of_missing hv).mpr rfl) (h _)
  | some v =>
    rw [readTag, readSection_of_given hv]
    cases hitems : items? v with
    | none => exact ⟨_, rfl, rfl⟩
    | some items =>
      have hnames : items.mapM name? = none := by
        refine Option.eq_none_iff_forall_ne_some.mpr fun names hnames => h names ?_
        obtain ⟨rfl, hne⟩ := mapM_name?_eq_some_iff.mp hnames
        exact (gives_iff_of_given hv).mpr ⟨hitems, hne⟩
      dsimp only
      rw [hnames]
      exact ⟨_, rfl, rfl⟩

theorem isContentFailure_of_readTag {f : Failure} (h : readTag fields tag = .error f) :
    isContentFailure f = true := by
  by_cases hnames : ∃ names, Gives fields tag names
  · obtain ⟨ns, hns, -⟩ := exists_readTag hnames
    rw [hns] at h
    cases h
  · obtain ⟨f', hf', hread⟩ := exists_readTag_error (not_exists.mp hnames)
    obtain rfl := Except.error.inj (hread.symm.trans h)
    exact hf'

end Sections

section Contents

/-- Every section of a file is one that vocabularies have, and gives names. -/
structure IsValid (fields : List (String × Value)) : Prop where
  known : ∀ f ∈ fields, ∃ tag : StageTag, f.1 = tag.plural
  given : ∀ tag, ∃ names, Gives fields tag names

def Describes (fields : List (String × Value)) (v : Vocabulary) : Prop :=
  ∀ tag n, n ∈ v.namesFor tag ↔ ∃ names, Gives fields tag names ∧ n ∈ names

variable {fields : List (String × Value)}

theorem mem_sections_iff {k : String} : k ∈ sections ↔ ∃ tag : StageTag, k = tag.plural := by
  constructor
  · simp only [sections, List.mem_cons, List.not_mem_nil, or_false]
    rintro (rfl | rfl | rfl)
    · exact ⟨.sink, rfl⟩
    · exact ⟨.source, rfl⟩
    · exact ⟨.transformation, rfl⟩
  · rintro ⟨tag, rfl⟩
    cases tag <;> simp [sections, StageTag.plural]

theorem strangers_of_known (h : ∀ f ∈ fields, ∃ tag : StageTag, f.1 = tag.plural) :
    strangers (.ofFields fields) = .ok [] := by
  obtain ⟨names, hnames, hmem⟩ := exists_strangers_ofFields fields
  obtain rfl : names = [] := by
    refine List.eq_nil_iff_forall_not_mem.mpr fun k hk => ?_
    obtain ⟨hk, hnot⟩ := (hmem k).mp hk
    obtain ⟨f, hf, rfl⟩ := List.mem_map.mp hk
    exact hnot (mem_sections_iff.mpr (h f hf))
  exact hnames

theorem ofValue_of_known (h : ∀ f ∈ fields, ∃ tag : StageTag, f.1 = tag.plural) :
    ofValue (.ofFields fields) = do
      let sinks ← readTag fields .sink
      let sources ← readTag fields .source
      let transformations ← readTag fields .transformation
      return ⟨sources, transformations, sinks⟩ := by
  rw [ofValue, strangers_of_known h]
  rfl

theorem exists_ofValue_of_isValid (h : IsValid fields) :
    ∃ v, ofValue (.ofFields fields) = .ok v ∧ Describes fields v := by
  have hread (tag : StageTag) := exists_readTag (h.given tag)
  choose ns hns hmem using hread
  refine ⟨⟨ns .source, ns .transformation, ns .sink⟩, ?_, fun tag => ?_⟩
  · rw [ofValue_of_known h.known]
    simp only [hns, ok_bind, pure_eq_ok]
  · cases tag <;> exact hmem _

theorem exists_ofValue_of_stranger {f : String × Value} (hf : f ∈ fields)
    (h : ∀ tag : StageTag, f.1 ≠ tag.plural) :
    ∃ failure, isContentFailure failure = true ∧ ofValue (.ofFields fields) = .error failure := by
  obtain ⟨names, hnames, hmem⟩ := exists_strangers_ofFields fields
  have hstrange : f.1 ∈ names := by
    refine (hmem f.1).mpr ⟨List.mem_map_of_mem hf, fun hpart => ?_⟩
    obtain ⟨tag, htag⟩ := mem_sections_iff.mp hpart
    exact h tag htag
  cases names with
  | nil => simp at hstrange
  | cons k names =>
    rw [ofValue, hnames]
    exact ⟨_, rfl, rfl⟩

theorem exists_ofValue_of_not_isValid (h : ¬ IsValid fields) :
    ∃ f, isContentFailure f = true ∧ ofValue (.ofFields fields) = .error f := by
  by_cases hknown : ∀ f ∈ fields, ∃ tag : StageTag, f.1 = tag.plural
  · obtain ⟨tag, hnone⟩ : ∃ tag, ∀ names, ¬ Gives fields tag names := by
      by_contra hgiven
      push Not at hgiven
      exact h ⟨hknown, hgiven⟩
    obtain ⟨f, -, hf⟩ := exists_readTag_error hnone
    rw [ofValue_of_known hknown]
    -- The sections are read in order, up to one that gives no names.
    cases hsinks : readTag fields .sink with
    | error g => exact ⟨g, isContentFailure_of_readTag hsinks, rfl⟩
    | ok sinks =>
      cases hsources : readTag fields .source with
      | error g => exact ⟨g, isContentFailure_of_readTag hsources, rfl⟩
      | ok sources =>
        cases htransformations : readTag fields .transformation with
        | error g => exact ⟨g, isContentFailure_of_readTag htransformations, rfl⟩
        | ok transformations => cases tag <;> simp_all
  · push Not at hknown
    obtain ⟨f, hf, hne⟩ := hknown
    exact exists_ofValue_of_stranger hf hne

end Contents

section Loading

def objection (path : String) (f : Failure) : String :=
  s!"Invalid vocabulary in {path}: {f.message}"

def ofEntries (path : String) (entries : List (Scalar × Value)) (strict : Bool) :
    Warned Vocabulary :=
  match ofValue (.map entries) with
  | .ok v => pure v
  | .error f => if isContentFailure f then reject strict (objection path f) standard else throw f

variable {reader : Config.Reader} {fs : Files} {path : String} {entries : List (Scalar × Value)}

theorem load_eq (strict : Bool) : load reader fs path strict =
    Config.load reader fs path strict >>= fun entries => ofEntries path entries strict := by
  unfold load load?
  rw [bind_assoc]
  refine bind_congr fun entries => ?_
  cases entries with
  | nil => rfl
  | cons e entries =>
    rw [List.isEmpty_cons, if_neg Bool.false_ne_true, ofEntries]
    cases ofValue (.map (e :: entries)) with
    | ok v => rfl
    | error f =>
      dsimp only
      cases isContentFailure f <;> cases strict <;> rfl

theorem settles_load {r : Result Vocabulary} {whys : List String}
    (h : Config.Holds reader fs path (.map entries))
    (hr : Settles (ofEntries path entries) r whys) :
    Settles (load reader fs path) r whys := by
  rw [funext load_eq]
  exact (Config.settles_load_of_holds h).bind hr

theorem settles_ofEntries_of_ok {v : Vocabulary} (hv : ofValue (.map entries) = .ok v) :
    Settles (ofEntries path entries) (.ok v) [] := by
  have hentries : ofEntries path entries = fun _ => pure v :=
    funext fun strict => by rw [ofEntries, hv]
  exact hentries ▸ settles_pure v

theorem settles_ofEntries_of_content {f : Failure} (hv : ofValue (.map entries) = .error f)
    (hf : isContentFailure f = true) :
    Settles (ofEntries path entries) (.ok standard) [objection path f] := by
  have hentries : ofEntries path entries =
      fun strict => reject strict (objection path f) standard :=
    funext fun strict => by simp only [ofEntries, hv, hf, if_true]
  exact hentries ▸ settles_reject _ _

theorem settles_ofEntries_of_failure {f : Failure} (hv : ofValue (.map entries) = .error f)
    (hf : isContentFailure f = false) : Settles (ofEntries path entries) (.error f) [] := by
  have hentries : ofEntries path entries = fun _ => throw f :=
    funext fun strict => by simp [ofEntries, hv, hf]
  exact hentries ▸ settles_throw f

/-- Taken strictly, a file whose keys are texts is accepted exactly if every section of it is one
that vocabularies have and lists names; the vocabulary has those names then. -/
theorem strict_load_of_fields {fields : List (String × Value)}
    (h : Config.Holds reader fs path (.ofFields fields)) :
    (IsValid fields → ∃ v, (load reader fs path true).outcome = (.ok v, []) ∧
      ∀ tag n, tag ∈ v.tagsFor n ↔ ∃ names, Gives fields tag names ∧ n ∈ names) ∧
    (¬ IsValid fields →
      ∃ why, (load reader fs path true).outcome = (.error (.configuration why), [])) := by
  constructor
  · intro hvalid
    obtain ⟨v, hv, hdescribes⟩ := exists_ofValue_of_isValid hvalid
    have hsettles := settles_load h (settles_ofEntries_of_ok hv)
    refine ⟨v, hsettles.outcome_strict, fun tag n => ?_⟩
    rw [mem_tagsFor_iff]
    exact hdescribes tag n
  · intro hvalid
    obtain ⟨f, hf, hv⟩ := exists_ofValue_of_not_isValid hvalid
    have hsettles := settles_load h (settles_ofEntries_of_content hv hf)
    exact ⟨objection path f, hsettles.outcome_strict⟩

/-- A list with a repeated name and a set. -/
def sampleSections : String := "sources: [ingest, ingest]\nsinks: !!set \x7bemit, drain\x7d\n"

def sampleFields : List (String × Value) :=
  [("sources", .ofTexts ["ingest", "ingest"]), ("sinks", .set [.text "emit", .text "drain"])]

theorem sampleSections_accepted : ∃ v,
    (load Yaml.read (Config.single sampleSections) "conf.yml" true).outcome = (.ok v, []) ∧
      ∀ tag n, tag ∈ v.tagsFor n ↔ ∃ names, Gives sampleFields tag names ∧ n ∈ names := by
  refine (strict_load_of_fields (Config.holds_single (by decide +kernel))).1 ⟨?_, fun tag => ?_⟩
  · exact List.forall_mem_cons.mpr ⟨⟨.source, rfl⟩, List.forall_mem_singleton.mpr ⟨.sink, rfl⟩⟩
  · cases tag with
    | source => exact ⟨["ingest", "ingest"], rfl, by decide⟩
    | transformation => exact ⟨_, rfl⟩
    | sink => exact ⟨["emit", "drain"], rfl, by decide⟩

/-- A section without names is not objected to. -/
theorem sampleEmptySection_accepted :
    (load Yaml.read (Config.single "sources: []\n") "conf.yml" true).outcome =
      (.ok ⟨[], standard.transformations, standard.sinks⟩, []) := by
  have hholds : Config.Holds Yaml.read (Config.single "sources: []\n") "conf.yml"
      (.ofFields [("sources", .list [])]) := Config.holds_single (by decide +kernel)
  exact (settles_load hholds (settles_ofEntries_of_ok rfl)).outcome_strict

/-- A file whose keys are texts gives the same vocabulary strictly and leniently, or it is refused
strictly and the standard vocabulary is taken with a warning of that. A key of another kind is not
taken for an objection, and both fail. -/
theorem load_of_map (h : Config.Holds reader fs path (.map entries)) :
    ((∀ e ∈ entries, ∃ k, e.1 = .text k) ∧
      ((∃ v, ∀ strict, (load reader fs path strict).outcome = (.ok v, [])) ∨
        ∃ why, (load reader fs path true).outcome = (.error (.configuration why), []) ∧
          (load reader fs path false).outcome = (.ok standard, [why ++ "; using defaults"]))) ∨
    (∃ e ∈ entries, ∀ k, e.1 ≠ .text k) ∧
      ∃ detail, ∀ strict,
        (load reader fs path strict).outcome = (.error (.wrongType detail), []) := by
  by_cases hkeys : ∀ e ∈ entries, ∃ k, e.1 = .text k
  · refine .inl ⟨hkeys, ?_⟩
    obtain ⟨fields, rfl⟩ : entries ∈ Set.range
        (List.map fun f : String × Value => (Scalar.text f.1, f.2)) := by
      rw [Set.range_list_map]
      intro e he
      obtain ⟨k, hk⟩ := hkeys e he
      exact ⟨(k, e.2), Prod.ext hk.symm rfl⟩
    by_cases hvalid : IsValid fields
    · obtain ⟨v, hv, -⟩ := exists_ofValue_of_isValid hvalid
      have hsettles := settles_load h (settles_ofEntries_of_ok hv)
      exact .inl ⟨v, hsettles.outcome⟩
    · obtain ⟨f, hf, hv⟩ := exists_ofValue_of_not_isValid hvalid
      have hsettles := settles_load h (settles_ofEntries_of_content hv hf)
      exact .inr ⟨objection path f, hsettles.outcome_strict, hsettles.outcome_lenient⟩
  · push Not at hkeys
    obtain ⟨detail, hdetail⟩ := exists_strangers_error hkeys
    have hv : ofValue (.map entries) = .error (.wrongType detail) := by
      rw [ofValue, hdetail]
      rfl
    have hsettles := settles_load h (settles_ofEntries_of_failure hv rfl)
    exact .inr ⟨hkeys, detail, hsettles.outcome⟩

theorem sampleStray_load :
    (∃ v, ∀ strict,
      (load Yaml.read (Config.single "reads: [a]\n") "conf.yml" strict).outcome = (.ok v, [])) ∨
    ∃ why,
      (load Yaml.read (Config.single "reads: [a]\n") "conf.yml" true).outcome =
        (.error (.configuration why), []) ∧
      (load Yaml.read (Config.single "reads: [a]\n") "conf.yml" false).outcome =
        (.ok standard, [why ++ "; using defaults"]) := by
  have hholds : Config.Holds Yaml.read (Config.single "reads: [a]\n") "conf.yml"
      (.map [(.text "reads", .ofTexts ["a"])]) := Config.holds_single (by decide +kernel)
  refine ((load_of_map hholds).resolve_right ?_).2
  rintro ⟨⟨e, he, hkey⟩, -⟩
  obtain rfl := List.mem_singleton.mp he
  exact hkey "reads" rfl

/-- A number in place of the name of a section is not warned of, and fails. -/
theorem sampleNumber_fails :
    (load Yaml.read (Config.single "1: [read]\n") "conf.yml" false).outcome =
      (.error (.wrongType "sequence item 0: expected str instance, int found"), []) := by
  have hholds : Config.Holds Yaml.read (Config.single "1: [read]\n") "conf.yml"
      (.map [(.int 1, .ofTexts ["read"])]) := Config.holds_single (by decide +kernel)
  exact (settles_load hholds (settles_ofEntries_of_failure rfl rfl)).outcome_lenient

end Loading

end Vocabulary

end CodeAtlas

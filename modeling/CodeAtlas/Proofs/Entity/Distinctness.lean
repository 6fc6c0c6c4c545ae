import Mathlib
import CodeAtlas.Proofs.Data.Numeral
import CodeAtlas.Proofs.Entity.Declared

/-! # Identifiers that differ

An identifier is read back as the components that it was made of. The identifier of a type has its
path, its kind, its name and its index in it and that of a stage its path, its tag and its ordinal,
also where a name has separators in it; and an identifier stands for a type, a method or a stage
only.
-/

namespace CodeAtlas

theorem StageTag.name_injective : Function.Injective StageTag.name := by
  intro s t h
  revert h
  cases s <;> cases t <;> decide

namespace Uri

theorem hash_notMem_toString (i : ℤ) : '#' ∉ (toString i).toList := by
  intro h
  rw [Json.toList_toString, List.mem_append] at h
  rcases h with hsign | hdigit
  · split at hsign <;> simp at hsign
  · have := Json.isDigit_of_mem_toDigits _ _ hdigit
    exact absurd this (by decide)

theorem eq_nil_of_hash_notMem {as ds ds' : List Char} (hd : '#' ∉ ds)
    (h : '#' :: ds = as ++ '#' :: ds') : as = [] := by
  cases as with
  | nil => rfl
  | cons a as =>
    obtain ⟨-, rfl⟩ := List.cons.inj h
    exact absurd (by simp) hd

/-- The number at the end of a text begins after its last hash. -/
theorem append_number_inj {cs cs' : List Char} {i j : ℤ}
    (h : cs ++ '#' :: (toString i).toList = cs' ++ '#' :: (toString j).toList) :
    cs = cs' ∧ i = j := by
  have hsame : cs = cs' := by
    rcases List.append_eq_append_iff.mp h with ⟨as, rfl, hrest⟩ | ⟨as, rfl, hrest⟩
    · rw [eq_nil_of_hash_notMem (hash_notMem_toString i) hrest, List.append_nil]
    · rw [eq_nil_of_hash_notMem (hash_notMem_toString j) hrest, List.append_nil]
  subst hsame
  rw [List.append_cancel_left_eq, List.cons.injEq, String.toList_inj] at h
  exact ⟨rfl, Int.repr_injective h.2⟩

theorem toList_number (i : ℤ) : (s!"#{i}").toList = '#' :: (toString i).toList := by
  rw [String.toList_append]
  rfl

theorem number_ne_empty (i : ℤ) : s!"#{i}" ≠ "" := by
  rw [Ne, ← String.toList_eq_nil_iff, toList_number]
  exact List.cons_ne_nil _ _

/-- No condition on the name is needed where the discriminator is a number. -/
theorem create_number_inj {path kind name name' : String} {i j : ℤ}
    (h : create path kind name (some s!"#{i}") = create path kind name' (some s!"#{j}")) :
    normalizeName name = normalizeName name' ∧ i = j := by
  rw [← String.toList_inj, toList_create _ _ _ (number_ne_empty i),
    toList_create _ _ _ (number_ne_empty j), toList_number, toList_number] at h
  have hnumbered : ((normalizeName name).toList ++ [':', ':']) ++ '#' :: (toString i).toList =
      ((normalizeName name').toList ++ [':', ':']) ++ '#' :: (toString j).toList := by
    simpa using h
  obtain ⟨hname, hij⟩ := append_number_inj hnumbered
  exact ⟨String.toList_inj.mp (List.append_cancel_right hname), hij⟩

theorem colon_notMem_kind (isInterface : Bool) :
    ':' ∉ (if isInterface then "Interface" else "Class").toList := by
  cases isInterface <;> decide

section Distinct

variable {path path' : String} (hp : IsComponent path) (hp' : IsComponent path')

include hp hp'

theorem path_kind_eq_of_create_eq {kind kind' name name' d d' : String} (hk : ':' ∉ kind.toList)
    (hk' : ':' ∉ kind'.toList) (hd : d ≠ "") (hd' : d' ≠ "")
    (h : create path kind name (some d) = create path' kind' name' (some d')) :
    path = path' ∧ kind = kind' := by
  rw [← String.toList_inj, toList_create _ _ _ hd, toList_create _ _ _ hd'] at h
  obtain ⟨hpath, h⟩ := append_separator_inj hp.noSeparator_toList hp'.noSeparator_toList h
  obtain ⟨hkind, -⟩ := append_separator_inj (.of_not_mem hk) (.of_not_mem hk') h
  exact ⟨String.toList_inj.mp hpath, String.toList_inj.mp hkind⟩

theorem ofType_eq_ofType_iff {isInterface isInterface' : Bool} {name name' : String} {i i' : ℤ} :
    ofType path isInterface name i = ofType path' isInterface' name' i' ↔
      path = path' ∧ isInterface = isInterface' ∧ normalizeName name = normalizeName name' ∧
        i = i' := by
  constructor
  · intro h
    obtain ⟨rfl, hkind⟩ := path_kind_eq_of_create_eq hp hp' (colon_notMem_kind _)
      (colon_notMem_kind _) (number_ne_empty i) (number_ne_empty i') h
    have hsame : isInterface = isInterface' := by
      revert hkind
      cases isInterface <;> cases isInterface' <;> decide
    subst hsame
    exact ⟨rfl, rfl, create_number_inj h⟩
  · rintro ⟨rfl, rfl, hname, rfl⟩
    rw [ofType, ofType, create, create, hname]

theorem ofStage_eq_ofStage_iff {tag tag' : String} {o o' : ℤ} :
    ofStage path tag o = ofStage path' tag' o' ↔
      path = path' ∧ normalizeName tag = normalizeName tag' ∧ o = o' := by
  constructor
  · intro h
    obtain ⟨rfl, -⟩ := path_kind_eq_of_create_eq hp hp' (by decide) (by decide)
      (number_ne_empty o) (number_ne_empty o') h
    exact ⟨rfl, create_number_inj h⟩
  · rintro ⟨rfl, htag, rfl⟩
    rw [ofStage, ofStage, create, create, htag]

theorem ofType_ne_ofMethod {isInterface : Bool} {name owner method : String} {i : ℤ}
    {types : List String} :
    ofType path isInterface name i ≠ ofMethod path' owner method types := by
  intro h
  obtain ⟨-, hkind⟩ := path_kind_eq_of_create_eq hp hp' (colon_notMem_kind _) (by decide)
    (number_ne_empty i) (signature_ne_empty types _) h
  cases isInterface <;> exact absurd hkind (by decide)

theorem ofType_ne_ofStage {isInterface : Bool} {name tag : String} {i o : ℤ} :
    ofType path isInterface name i ≠ ofStage path' tag o := by
  intro h
  obtain ⟨-, hkind⟩ := path_kind_eq_of_create_eq hp hp' (colon_notMem_kind _) (by decide)
    (number_ne_empty i) (number_ne_empty o) h
  cases isInterface <;> exact absurd hkind (by decide)

theorem ofMethod_ne_ofStage {owner method tag : String} {types : List String} {o : ℤ} :
    ofMethod path owner method types ≠ ofStage path' tag o := by
  intro h
  obtain ⟨-, hkind⟩ := path_kind_eq_of_create_eq hp hp' (by decide) (by decide)
    (signature_ne_empty types _) (number_ne_empty o) h
  exact absurd hkind (by decide)

end Distinct

theorem normalizeName_tag (tag : StageTag) : normalizeName tag.name = tag.name := by
  cases tag <;> rfl

/-- The components of an identifier are read back, whatever the discriminator is. On the paths that
can be told from a separator, types have one identifier only if they are of one kind and name and at
one index, and stages only if they are of one tag and have one ordinal; no identifier is that of a
type and of a method, or of either and of a stage. -/
theorem identifiers_parse_back {path path' : String} (hp : IsComponent path)
    (hp' : IsComponent path') :
    (∀ (kind name : String) (discriminator : Option String), IsComponent kind →
      IsComponent (normalizeName name) → parse (create path kind name discriminator) =
        .ok ⟨path, kind, normalizeName name, discriminator.filter (· ≠ "")⟩) ∧
      (∀ (isInterface isInterface' : Bool) (name name' : String) (i i' : ℤ),
        ofType path isInterface name i = ofType path' isInterface' name' i' ↔
          path = path' ∧ isInterface = isInterface' ∧ normalizeName name = normalizeName name' ∧
            i = i') ∧
      (∀ (tag tag' : String) (o o' : ℤ), ofStage path tag o = ofStage path' tag' o' ↔
        path = path' ∧ normalizeName tag = normalizeName tag' ∧ o = o') ∧
      (∀ (tag tag' : StageTag) (o o' : ℤ), ofStage path tag.name o = ofStage path' tag'.name o' ↔
        path = path' ∧ tag = tag' ∧ o = o') ∧
      ∀ (isInterface : Bool) (typeName owner method tag : String) (i o : ℤ) (types : List String),
        ofType path isInterface typeName i ≠ ofMethod path' owner method types ∧
          ofType path isInterface typeName i ≠ ofStage path' tag o ∧
          ofMethod path owner method types ≠ ofStage path' tag o := by
  refine ⟨?back, ?types, ?stages, ?tags, ?apart⟩
  case back =>
    intro kind name discriminator hk hn
    exact parse_create hp hk hn discriminator
  case types =>
    intros
    exact ofType_eq_ofType_iff hp hp'
  case stages =>
    intros
    exact ofStage_eq_ofStage_iff hp hp'
  case tags =>
    intro tag tag' o o'
    rw [ofStage_eq_ofStage_iff hp hp', normalizeName_tag, normalizeName_tag,
      StageTag.name_injective.eq_iff]
  case apart =>
    intros
    exact ⟨ofType_ne_ofMethod hp hp', ofType_ne_ofStage hp hp', ofMethod_ne_ofStage hp hp'⟩

/-- Single colons in a path, and separators in a name and in a discriminator. -/
theorem identifiers_parse_back_colons :
    parse (create "/r/a:b.java" "Class" "Map< K , V >" (some "::x::y:")) =
        .ok ⟨"/r/a:b.java", "Class", "Map<K,V>", some "::x::y:"⟩ ∧
      ofType "/r/a:b.java" false "X::#1" 1 ≠ ofType "/r/a:b.java" false "X" 1 ∧
      ofStage "/r/a:b.java" StageTag.sink.name 1 ≠ ofStage "/r/b.java" StageTag.sink.name 1 ∧
      ofType "/r/a:b.java" true "X" 1 ≠ ofMethod "/r/b.java" "X" "f" ["int"] := by
  have hp : IsComponent "/r/a:b.java" := ⟨by decide, by decide, by decide⟩
  have hp' : IsComponent "/r/b.java" := ⟨by decide, by decide, by decide⟩
  have hk : IsComponent "Class" := ⟨by decide, by decide, by decide⟩
  have hname : normalizeName "Map< K , V >" = "Map<K,V>" := by rfl
  have hn : IsComponent (normalizeName "Map< K , V >") := by
    rw [hname]
    exact ⟨by decide, by decide, by decide⟩
  obtain ⟨hback, htypes, -⟩ := identifiers_parse_back hp hp
  obtain ⟨-, -, -, htags, hapart⟩ := identifiers_parse_back hp hp'
  refine ⟨?_, ?_, ?_, (hapart true "X" "X" "f" "sink" 1 1 ["int"]).1⟩
  · rw [hback "Class" _ _ hk hn, hname]
    rfl
  · rw [Ne, htypes]
    decide
  · rw [Ne, htags]
    decide

end Uri

end CodeAtlas

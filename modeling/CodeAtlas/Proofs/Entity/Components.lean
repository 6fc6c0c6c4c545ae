import Mathlib.Data.List.Infix
import CodeAtlas.Entity.Uri

/-! # The components of an identifier

A name without white space is in its canonical form. An identifier is read back as the components
that it was made of, if each of the first three can be told from the separators around it.
-/

namespace CodeAtlas

theorem Text.trimWhere_eq_self {p : Char → Bool} {cs : List Char} (h : ∀ c ∈ cs, p c = false) :
    Text.trimWhere p cs = cs := by
  have hdrop {xs : List Char} (h : ∀ c ∈ xs, p c = false) : xs.dropWhile p = xs := by
    cases xs with
    | nil => rfl
    | cons c xs => simp [h c]
  rw [Text.trimWhere, hdrop h, Text.dropWhileEnd, hdrop fun c hc => h c (List.mem_reverse.mp hc),
    List.reverse_reverse]

namespace Uri

theorem collapseBlanks_eq_self {cs : List Char} (h : ∀ c ∈ cs, Text.isBlank c = false) :
    collapseBlanks cs = cs := by
  induction cs with
  | nil => rfl
  | cons c cs ih =>
    have hc := h c List.mem_cons_self
    have ih := ih fun d hd => h d (List.mem_cons_of_mem c hd)
    cases cs with
    | nil => simp [collapseBlanks, hc]
    | cons d cs => simp [collapseBlanks, hc, ih]

theorem tighten_eq_self (afterPunctuation : Bool) {cs : List Char} (h : ' ' ∉ cs) :
    tighten afterPunctuation cs = cs := by
  induction cs generalizing afterPunctuation with
  | nil => rfl
  | cons c cs ih =>
    simp only [List.mem_cons, not_or] at h
    simp [tighten, Ne.symm h.1, ih _ h.2]

/-- A name without white space is in its canonical form. -/
theorem normalizeName_eq_self {s : String} (h : ∀ c ∈ s.toList, Text.isBlank c = false) :
    normalizeName s = s := by
  have hspace : ' ' ∉ s.toList := fun hm => absurd (h ' ' hm) (by decide)
  rw [normalizeName, Text.trimWhere_eq_self h, collapseBlanks_eq_self h, tighten_eq_self _ hspace,
    String.ofList_toList]

/-- A separator stands nowhere in the characters, not even with a further colon after them. -/
def NoSeparator (cs : List Char) : Prop := ¬ [':', ':'] <:+: cs ++ [':']

/-- A text that can be told from the separators around it. -/
structure IsComponent (s : String) : Prop where
  ne_empty : s ≠ ""
  noSeparator : ¬ separator.toList <:+: s.toList
  getLast?_ne : s.toList.getLast? ≠ some ':'

theorem noSeparator_iff {cs : List Char} :
    NoSeparator cs ↔ ¬ [':', ':'] <:+: cs ∧ cs.getLast? ≠ some ':' := by
  have hlast : [':', ':'] <:+ cs ++ [':'] ↔ cs.getLast? = some ':' := by
    rw [show [':', ':'] = [':'] ++ [':'] from rfl, List.suffix_append_self_iff,
      List.getLast?_eq_some_iff]
    exact ⟨fun ⟨ys, h⟩ => ⟨ys, h.symm⟩, fun ⟨ys, h⟩ => ⟨ys, h.symm⟩⟩
  rw [NoSeparator, List.infix_concat_iff, not_or, hlast, and_comm]

theorem IsComponent.noSeparator_toList {s : String} (h : IsComponent s) : NoSeparator s.toList :=
  noSeparator_iff.mpr ⟨h.noSeparator, h.getLast?_ne⟩

theorem NoSeparator.of_not_mem {cs : List Char} (h : ':' ∉ cs) : NoSeparator cs := by
  rintro ⟨before, after, he⟩
  have hcount := congrArg (List.count ':') he
  simp only [List.count_append, List.count_cons_self, List.count_nil, List.count_eq_zero.mpr h]
    at hcount
  omega

theorem noSeparator_cons {c d : Char} {cs : List Char} (h : NoSeparator (c :: d :: cs)) :
    ¬ (c = ':' ∧ d = ':') ∧ NoSeparator (d :: cs) := by
  constructor
  · rintro ⟨rfl, rfl⟩
    exact h ⟨[], cs ++ [':'], rfl⟩
  · rintro ⟨before, after, he⟩
    exact h ⟨c :: before, after, by rw [List.cons_append, List.cons_append, he]; rfl⟩

theorem splitSeparators_cons {c d : Char} {cs part : List Char} {parts : List (List Char)}
    (hcd : ¬ (c = ':' ∧ d = ':')) (h : splitSeparators (d :: cs) = part :: parts) :
    splitSeparators (c :: d :: cs) = (c :: part) :: parts := by
  simp [splitSeparators, hcd, h]

/-- A text is cut off at the first separator after it. -/
theorem splitSeparators_append {cs : List Char} (h : NoSeparator cs) (rest : List Char) :
    splitSeparators (cs ++ ':' :: ':' :: rest) = cs :: splitSeparators rest := by
  induction cs with
  | nil => simp [splitSeparators]
  | cons c cs ih =>
    cases cs with
    | nil =>
      have hc : c ≠ ':' := by
        rintro rfl
        exact h (List.infix_refl _)
      exact splitSeparators_cons (by simp [hc]) (by simp [splitSeparators])
    | cons d cs =>
      obtain ⟨hcd, h⟩ := noSeparator_cons h
      exact splitSeparators_cons hcd (ih h)

theorem splitSeparators_eq_singleton {cs : List Char} (h : NoSeparator cs) :
    splitSeparators cs = [cs] := by
  induction cs with
  | nil => rfl
  | cons c cs ih =>
    cases cs with
    | nil => rfl
    | cons d cs =>
      obtain ⟨hcd, h⟩ := noSeparator_cons h
      exact splitSeparators_cons hcd (ih h)

theorem splitSeparators_ne_nil (cs : List Char) : splitSeparators cs ≠ [] := by
  fun_cases splitSeparators cs <;> simp_all

/-- Nothing is lost where a text is cut. -/
theorem intercalate_splitSeparators (cs : List Char) :
    [':', ':'].intercalate (splitSeparators cs) = cs := by
  fun_induction splitSeparators cs with
  | case1 => rfl
  | case2 c => simp
  | case3 c d rest h ih =>
    simp only [Bool.and_eq_true, beq_iff_eq] at h
    obtain ⟨part, parts, hp⟩ := List.exists_cons_of_ne_nil (splitSeparators_ne_nil rest)
    rw [hp] at ih ⊢
    simp [List.intercalate_cons_cons, ih, h]
  | case4 c d rest h hp ih => exact absurd hp (splitSeparators_ne_nil _)
  | case5 c d rest h part parts hp ih =>
    rw [hp] at ih
    cases parts with
    | nil => simpa using ih
    | cons p ps => simpa [List.intercalate_cons_cons] using ih

theorem toList_separator : separator.toList = [':', ':'] := rfl

theorem parse_eq {uri path kind name : String} {rest : List (List Char)} (hp : path ≠ "")
    (hk : kind ≠ "") (hn : name ≠ "")
    (h : splitSeparators uri.toList = path.toList :: kind.toList :: name.toList :: rest) :
    parse uri = .ok ⟨path, kind, name, if rest.isEmpty then none
      else some (separator.intercalate (rest.map String.ofList))⟩ := by
  simp [parse, h, hp, hk, hn]

/-- An identifier is read back as the components that it was made of. -/
theorem parse_create {path kind name : String} (hp : IsComponent path) (hk : IsComponent kind)
    (hn : IsComponent (normalizeName name)) (discriminator : Option String) :
    parse (create path kind name discriminator) =
      .ok ⟨path, kind, normalizeName name, discriminator.filter (· ≠ "")⟩ := by
  have hsplit (rest : List Char) :
      splitSeparators (path.toList ++ ':' :: ':' :: (kind.toList ++ ':' :: ':' :: rest)) =
        path.toList :: kind.toList :: splitSeparators rest := by
    rw [splitSeparators_append hp.noSeparator_toList, splitSeparators_append hk.noSeparator_toList]
  have hwithout : parse (path ++ separator ++ kind ++ separator ++ normalizeName name) =
      .ok ⟨path, kind, normalizeName name, none⟩ := by
    have hparts : splitSeparators (path ++ separator ++ kind ++ separator ++
        normalizeName name).toList = [path.toList, kind.toList, (normalizeName name).toList] := by
      rw [← splitSeparators_eq_singleton hn.noSeparator_toList, ← hsplit]
      simp [toList_separator]
    exact parse_eq hp.ne_empty hk.ne_empty hn.ne_empty hparts
  cases discriminator with
  | none => exact hwithout
  | some d =>
    by_cases hd : d = ""
    · subst hd
      exact hwithout
    · have hparts : splitSeparators (path ++ separator ++ kind ++ separator ++ normalizeName name ++
          separator ++ d).toList = path.toList :: kind.toList :: (normalizeName name).toList ::
            splitSeparators d.toList := by
        rw [← splitSeparators_append hn.noSeparator_toList, ← hsplit]
        simp [toList_separator]
      have hwith := parse_eq hp.ne_empty hk.ne_empty hn.ne_empty hparts
      have hjoin : separator.intercalate ((splitSeparators d.toList).map String.ofList) = d := by
        rw [← String.toList_inj, String.toList_intercalate, List.map_map]
        simpa [Function.comp_def, toList_separator] using intercalate_splitSeparators d.toList
      simpa [create, hd, splitSeparators_ne_nil, hjoin, Option.filter] using hwith

/-- What stands before the first separator of a text can be told from what follows it. -/
theorem append_separator_inj {cs cs' rest rest' : List Char} (h : NoSeparator cs)
    (h' : NoSeparator cs') (he : cs ++ ':' :: ':' :: rest = cs' ++ ':' :: ':' :: rest') :
    cs = cs' ∧ rest = rest' := by
  have hsplit := congrArg splitSeparators he
  rw [splitSeparators_append h, splitSeparators_append h', List.cons.injEq] at hsplit
  obtain ⟨rfl, -⟩ := hsplit
  rw [List.append_cancel_left_eq] at he
  simpa using he

theorem toList_create (path kind name : String) {d : String} (hd : d ≠ "") :
    (create path kind name (some d)).toList = path.toList ++ ':' :: ':' :: (kind.toList ++
      ':' :: ':' :: ((normalizeName name).toList ++ ':' :: ':' :: d.toList)) := by
  simp [create, hd, toList_separator]

/-- Identifiers with a discriminator are the same only if their names and discriminators are. -/
theorem create_eq_create_iff (path kind : String) {name name' d d' : String}
    (hn : NoSeparator (normalizeName name).toList) (hn' : NoSeparator (normalizeName name').toList)
    (hd : d ≠ "") (hd' : d' ≠ "") :
    create path kind name (some d) = create path kind name' (some d') ↔
      normalizeName name = normalizeName name' ∧ d = d' := by
  constructor
  · intro h
    rw [← String.toList_inj, toList_create path kind name hd,
      toList_create path kind name' hd'] at h
    have hnames := append_separator_inj hn hn' (by simpa using h)
    rwa [String.toList_inj, String.toList_inj] at hnames
  · rintro ⟨hname, rfl⟩
    rw [create, create, hname]

end Uri

end CodeAtlas

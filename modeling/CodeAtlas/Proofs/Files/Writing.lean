import CodeAtlas.Files.Write
import CodeAtlas.Proofs.Exchange.Entries
import CodeAtlas.Proofs.Files.Cutting

/-! # Reading what was written

A file that was written is read as it was written. The path of the file may lead through `..`; what
it leads through is a directory before the file is written and after.
-/

namespace CodeAtlas

namespace FileTree

/-- What stands below a tree under a list of names. -/
def at? (t : FileTree) : List String → Option FileTree
  | [] => some t
  | name :: rest => (t.child? name).bind (·.at? rest)

theorem at?_append (t : FileTree) (ps qs : List String) :
    t.at? (ps ++ qs) = (t.at? ps).bind (·.at? qs) := by
  induction ps generalizing t with
  | nil => rfl
  | cons p ps ih =>
    rw [List.cons_append, at?, at?]
    cases t.child? p with
    | none => rfl
    | some next => exact ih next

structure IsName (name : String) : Prop where
  ne_empty : name ≠ ""
  ne_dot : name ≠ "."
  ne_dots : name ≠ ".."
  size_le : name.utf8ByteSize ≤ nameLimit

/-- Names lead from a tree to what is here, past the directories above. -/
inductive Reaches (t : FileTree) : List String → List FileTree → FileTree → Prop
  | top : Reaches t [] [] t
  | down {reversed : List String} {above : List FileTree} {here next : FileTree} {name : String}
      (h : Reaches t reversed above here) (hname : IsName name)
      (hnext : here.child? name = some next) :
      Reaches t (name :: reversed) (here :: above) next

section Reaches

variable {t : FileTree} {reversed : List String} {above : List FileTree} {here : FileTree}

theorem Reaches.at?_eq (h : t.Reaches reversed above here) :
    t.at? reversed.reverse = some here := by
  induction h with
  | top => rfl
  | down _ _ hnext ih =>
    rw [List.reverse_cons, at?_append, ih]
    simp [at?, hnext]

theorem isDirectory_of_child? {name : String} {next : FileTree}
    (h : here.child? name = some next) : here.isDirectory = true := by
  cases here with
  | file content => cases h
  | directory entries => rfl

theorem follow_cons_name {name : String} (hname : IsName name) {next : FileTree}
    (hnext : here.child? name = some next) (rest : List String) :
    follow above here (name :: rest) = follow (here :: above) next rest := by
  have hsize : ¬ nameLimit < name.utf8ByteSize := Nat.not_lt.mpr hname.size_le
  simp [follow, isDirectory_of_child? hnext, hname.ne_empty, hname.ne_dot, hname.ne_dots, hsize,
    hnext]

/-- Following the first part of a path: it stays here, goes up or goes down. -/
theorem of_follow_cons {part : String} {rest : List String} {d : FileTree}
    (h : follow above here (part :: rest) = .ok d) : here.isDirectory = true ∧
      ((part = "" ∨ part = ".") ∧ follow above here rest = .ok d ∨
        part = ".." ∧ (match above with
          | [] => follow [] here rest
          | up :: above => follow above up rest) = .ok d ∨
        IsName part ∧ ∃ next, here.child? part = some next ∧
          follow (here :: above) next rest = .ok d) := by
  unfold follow at h
  split at h
  · cases h
  · next hdirectory =>
    refine ⟨by simpa using hdirectory, ?_⟩
    split at h
    · next hstay => exact .inl ⟨by simpa using hstay, h⟩
    · next hstay =>
      have hstay : part ≠ "" ∧ part ≠ "." := by simpa using hstay
      split at h
      · next hup => exact .inr (.inl ⟨hup, h⟩)
      · next hup =>
        split at h
        · cases h
        · next hsize =>
          split at h
          · next next hnext =>
            exact .inr (.inr ⟨⟨hstay.1, hstay.2, hup, Nat.not_lt.mp hsize⟩, next, hnext, h⟩)
          · cases h

theorem isDirectory_of_follow {parts : List String} {d : FileTree}
    (h : follow above here parts = .ok d) (hd : d.isDirectory = true) :
    here.isDirectory = true := by
  cases parts with
  | nil =>
    obtain rfl := Except.ok.inj h
    exact hd
  | cons part rest => exact (of_follow_cons h).1

end Reaches

theorem push_name {name : String} (hname : IsName name) (reversed : List String) :
    Path.push true reversed name = name :: reversed := by
  simp [Path.push, hname.ne_empty, hname.ne_dot, hname.ne_dots]

theorem push_up {name : String} (hname : IsName name) (reversed : List String) :
    Path.push true (name :: reversed) ".." = reversed := by
  simp [Path.push, hname.ne_dots]

theorem child?_replaceEntry (name name' : String) (t : FileTree)
    (entries : List (String × FileTree)) :
    (directory (replaceEntry name t entries)).child? name' =
      if name = name' then some t else (directory entries).child? name' := by
  induction entries with
  | nil => by_cases h : name = name' <;> simp [replaceEntry, child?, h]
  | cons e entries ih =>
    obtain ⟨n, old⟩ := e
    simp only [child?] at ih ⊢
    rw [replaceEntry]
    by_cases hn : n = name
    · subst hn
      by_cases h : n = name' <;> simp [h]
    · rw [if_neg hn]
      by_cases h : n = name'
      · subst h
        simp [Ne.symm hn]
      · simpa [h] using ih

section Alter

variable {change : Option FileTree → Except PathFault FileTree}

/-- A change applies to what stands where the names lead. -/
theorem of_alter {names : List String} {here : Option FileTree} {t : FileTree}
    (h : alter false change names here = .ok t) :
    ∃ next, change (here.bind (·.at? names)) = .ok next ∧ t.at? names = some next := by
  induction names generalizing here t with
  | nil =>
    rw [alter] at h
    refine ⟨t, ?_, rfl⟩
    cases here <;> exact h
  | cons name rest ih =>
    rcases here with _ | content | entries
    · rw [alter] at h
      cases h
    · rw [alter] at h
      cases h
    · rw [alter] at h
      cases hnext : alter false change rest ((directory entries).child? name) with
      | error fault =>
        rw [hnext] at h
        cases h
      | ok next =>
        rw [hnext] at h
        obtain rfl := Except.ok.inj h
        obtain ⟨last, hchange, hlast⟩ := ih hnext
        refine ⟨last, hchange, ?_⟩
        rw [at?, child?_replaceEntry, if_pos rfl]
        exact hlast

/-- A change that puts nothing in the place of a directory leaves directories where they are. -/
theorem directories_of_alter
    (hchange : ∀ d next, change (some d) = .ok next → d.isDirectory = false)
    {names : List String} {t t' : FileTree} (h : alter false change names (some t) = .ok t')
    {ns : List String} {d : FileTree} (hd : t.at? ns = some d) (hdirectory : d.isDirectory = true) :
    ∃ d', t'.at? ns = some d' ∧ d'.isDirectory = true := by
  induction names generalizing t t' ns with
  | nil =>
    have hfile := hchange t t' h
    cases t with
    | directory entries => cases hfile
    | file content =>
      cases ns with
      | nil =>
        obtain rfl := Option.some.inj hd
        cases hdirectory
      | cons n ns => cases hd
  | cons name rest ih =>
    cases t with
    | file content =>
      rw [alter] at h
      cases h
    | directory entries =>
      rw [alter] at h
      cases hnext : alter false change rest ((directory entries).child? name) with
      | error fault =>
        rw [hnext] at h
        cases h
      | ok next =>
        rw [hnext] at h
        obtain rfl := Except.ok.inj h
        -- Only the entry that the names lead through is another one.
        cases ns with
        | nil => exact ⟨_, rfl, rfl⟩
        | cons n ns =>
          rw [at?, child?_replaceEntry]
          rw [at?] at hd
          by_cases hn : name = n
          · subst hn
            cases hc : (directory entries).child? name with
            | none =>
              rw [hc] at hd
              cases hd
            | some c =>
              rw [hc] at hd hnext
              rw [if_pos rfl]
              exact ih hnext hd
          · rw [if_neg hn]
            exact ⟨d, hd, hdirectory⟩

end Alter

section Changed

variable {t t' : FileTree}
  (hkept : ∀ ns d, t.at? ns = some d → d.isDirectory = true →
    ∃ d', t'.at? ns = some d' ∧ d'.isDirectory = true)

include hkept

/-- A path that leads to a directory leads through directories, so it can still be followed. -/
theorem Reaches.exists_follow {reversed : List String} {above above' : List FileTree}
    {here here' d : FileTree} {parts : List String} (h : t.Reaches reversed above here)
    (h' : t'.Reaches reversed above' here') (hd : follow above here parts = .ok d)
    (hdirectory : d.isDirectory = true) : ∃ up up' d',
      t.Reaches (parts.foldl (Path.push true) reversed) up d ∧
      t'.Reaches (parts.foldl (Path.push true) reversed) up' d' ∧
      ∀ more, follow above' here' (parts ++ more) = follow up' d' more := by
  induction parts generalizing reversed above above' here here' with
  | nil =>
    obtain rfl := Except.ok.inj hd
    exact ⟨above, above', here', h, h', fun _ => rfl⟩
  | cons part rest ih =>
    obtain ⟨hhere, hcases⟩ := of_follow_cons hd
    obtain ⟨d', hd', hhere'⟩ := hkept _ _ h.at?_eq hhere
    obtain rfl : here' = d' := Option.some.inj (h'.at?_eq.symm.trans hd')
    rw [List.foldl_cons]
    -- An empty part or `.` stays, `..` goes up, a name goes down.
    rcases hcases with ⟨hstay, hrest⟩ | ⟨rfl, hrest⟩ | ⟨hname, next, hnext, hrest⟩
    · have hpush : Path.push true reversed part = reversed := by
        rcases hstay with rfl | rfl <;> rfl
      have hfollow (more : List String) : follow above' here' (part :: more) =
          follow above' here' more := by
        rcases hstay with rfl | rfl <;> simp [follow, hhere']
      simp only [hpush, List.cons_append, hfollow]
      exact ih h h' hrest
    · have hfollow (more : List String) : follow above' here' (".." :: more) =
          match above' with
          | [] => follow [] here' more
          | up :: above => follow above up more := by
        cases above' <;> simp [follow, hhere']
      simp only [List.cons_append, hfollow]
      cases h with
      | top =>
        cases h' with
        | top => exact ih .top .top hrest
      | down h hname hnext =>
        cases h' with
        | down h' _ _ =>
          rw [push_up hname]
          exact ih h h' hrest
    · have hnextdir := isDirectory_of_follow hrest hdirectory
      have hdown := h.down hname hnext
      obtain ⟨next', hnext', hnextdir'⟩ := hkept _ _ hdown.at?_eq hnextdir
      rw [List.reverse_cons, at?_append, h'.at?_eq] at hnext'
      have hchild : here'.child? part = some next' := by simpa [at?] using hnext'
      simp only [push_name hname, List.cons_append, follow_cons_name hname hchild]
      exact ih hdown (h'.down hname hchild) hrest

end Changed

theorem overwrite_eq_ok {content : ByteArray} {here : Option FileTree} {next : FileTree}
    (h : overwrite content here = .ok next) :
    next = .file content ∧ ∀ d ∈ here, d.isDirectory = false := by
  unfold overwrite at h
  split at h
  · cases h
  · next hother =>
    refine ⟨(Except.ok.inj h).symm, fun d hd => ?_⟩
    cases d with
    | file content => rfl
    | directory entries => exact absurd hd (hother entries)

end FileTree

namespace Files

open FileTree

section Alter

variable {fs fs' : Files} {path : String} {change : Option FileTree → Except PathFault FileTree}

theorem of_alter (h : fs.alter path change = .ok fs') :
    path.toList.contains '\x00' = false ∧ ∃ above tree,
      fs.tree.follow [] (fs.parts path).dropLast = .ok above ∧ above.isDirectory = true ∧
      ((fs.parts path).getLastD "").utf8ByteSize ≤ nameLimit ∧
      FileTree.alter false change (names (fs.parts path)) (some fs.tree) = .ok tree ∧
      fs' = { fs with tree := tree } := by
  unfold Files.alter at h
  split at h
  · cases h
  · next hnul =>
    refine ⟨by simpa using hnul, ?_⟩
    simp only [bind, Except.bind] at h
    split at h
    · cases h
    · next above hfollow =>
      split at h
      · cases h
      · next hdirectory =>
        split at h
        · cases h
        · next hsize =>
          split at h
          · cases h
          · next tree halter =>
            exact ⟨above, tree, hfollow, by simpa using hdirectory, Nat.not_lt.mp hsize, halter,
              (Except.ok.inj h).symm⟩

theorem home_of_alter (h : fs.alter path change = .ok fs') : fs'.home = fs.home := by
  obtain ⟨-, above, tree, -, -, -, -, rfl⟩ := of_alter h
  rfl

theorem alter_of_write {content : ByteArray} (h : fs.write path content = .ok fs') :
    path ≠ "" ∧ fs.alter path (overwrite content) = .ok fs' := by
  unfold Files.write at h
  split at h
  · cases h
  · next hne =>
    split at h
    · split at h <;> cases h
    · exact ⟨hne, h⟩

theorem home_of_write {content : ByteArray} (h : fs.write path content = .ok fs') :
    fs'.home = fs.home :=
  home_of_alter (alter_of_write h).2

theorem home_of_makeDirectory (h : fs.makeDirectory path = .ok fs') : fs'.home = fs.home := by
  unfold makeDirectory at h
  split at h
  · cases h
  · split at h
    · cases h
    · cases h
    · cases h
    · exact home_of_alter h

theorem home_of_last {c : Prop} [Decidable c] {fs₁ : Files}
    (h : (if c then (pure fs₁ : Result Files)
      else match fs₁.makeDirectory path with
        | .ok fs => pure fs
        | .error fault =>
          if fs₁.isDirectory path then pure fs₁ else throw (Failure.path path fault)) = .ok fs') :
    fs'.home = fs₁.home := by
  split at h
  · obtain rfl := Except.ok.inj h
    rfl
  · split at h
    · next fs₂ hmake =>
      obtain rfl := Except.ok.inj h
      exact home_of_makeDirectory hmake
    · split at h
      · obtain rfl := Except.ok.inj h
        rfl
      · cases h

theorem home_of_ensureParts {reversed : List String} (h : fs.ensureParts reversed = .ok fs') :
    fs'.home = fs.home := by
  induction reversed generalizing fs' with
  | nil =>
    obtain rfl := Except.ok.inj h
    rfl
  | cons last above ih =>
    unfold ensureParts at h
    dsimp only at h
    split at h
    · exact home_of_last h
    · obtain ⟨fs₁, hfs₁, h⟩ := bind_eq_ok_iff.mp h
      exact (home_of_last h).trans (ih hfs₁)

theorem home_of_ensureDirectory (h : fs.ensureDirectory path = .ok fs') : fs'.home = fs.home := by
  unfold Files.ensureDirectory at h
  split at h
  · split at h
    · cases h
    · obtain rfl := Except.ok.inj h
      rfl
  · exact home_of_ensureParts h

end Alter

theorem parts_ne_nil (fs : Files) (path : String) : fs.parts path ≠ [] := by
  simpa [parts, Path.parts] using Path.splitAt_ne_nil '/' _

theorem read_of_write {fs fs' : Files} {path : String} {content : ByteArray}
    (h : fs.write path content = .ok fs') : fs'.read path = .ok content := by
  obtain ⟨hne, h⟩ := alter_of_write h
  obtain ⟨hnul, above, tree, hfollow, hdirectory, hsize, halter, rfl⟩ := of_alter h
  have hkept : ∀ ns d, fs.tree.at? ns = some d → d.isDirectory = true →
      ∃ d', tree.at? ns = some d' ∧ d'.isDirectory = true := fun ns d =>
    directories_of_alter (fun d next hnext => (overwrite_eq_ok hnext).2 d rfl) halter
  obtain ⟨init, last, hparts⟩ : ∃ init last, fs.parts path = init ++ [last] :=
    ⟨_, _, (List.dropLast_append_getLast (parts_ne_nil fs path)).symm⟩
  rw [hparts] at hfollow hsize halter
  rw [List.dropLast_concat] at hfollow
  rw [names, List.foldl_append] at halter
  obtain ⟨up, up', d', hreach, hreach', hmore⟩ :=
    Reaches.exists_follow hkept .top .top hfollow hdirectory
  obtain ⟨next, hnext, hat⟩ := FileTree.of_alter halter
  obtain ⟨rfl, hold⟩ := overwrite_eq_ok hnext
  generalize init.foldl (Path.push true) [] = reversed at *
  have hfile {d : FileTree} (hd : fs.tree.at?
      ([last].foldl (Path.push true) reversed).reverse = some d) : d.isDirectory ≠ true := by
    rw [hold d hd]
    decide
  have hlast : IsName last := by
    refine ⟨?_, ?_, ?_, by simpa using hsize⟩
    · rintro rfl
      exact hfile hreach.at?_eq hdirectory
    · rintro rfl
      exact hfile hreach.at?_eq hdirectory
    · rintro rfl
      cases hreach with
      | top => exact hfile rfl hdirectory
      | down h hname hnext =>
        refine hfile (d := _) ?_ (isDirectory_of_child? hnext)
        rw [List.foldl_cons, List.foldl_nil, push_up hname]
        exact h.at?_eq
  rw [List.foldl_cons, List.foldl_nil, push_name hlast, List.reverse_cons, at?_append,
    hreach'.at?_eq] at hat
  have hchild : d'.child? last = some (.file content) := by simpa [at?] using hat
  have hfind : ({ fs with tree := tree } : Files).find path = .ok (.file content) := by
    have hparts' : ({ fs with tree := tree } : Files).parts path = init ++ [last] := hparts
    rw [find, hnul, if_neg Bool.false_ne_true, if_neg hne, hparts', hmore,
      follow_cons_name hlast hchild]
    rfl
  rw [read, hfind]
  rfl

end Files

end CodeAtlas

import CodeAtlas.Files.Discovery
import CodeAtlas.Proofs.Files.Writing
import CodeAtlas.Proofs.Order.StableSort
import Mathlib.Data.List.Nodup
import Mathlib.Data.String.Basic

/-! # The sources below a directory

A walk leaves out the directories that are not wanted on its way down. What it gives is the full
listing of the tree, of which a file is kept if every directory on the way to it is wanted. Paths
are sorted as texts, and no two files have the same one.
-/

namespace CodeAtlas

namespace Path

structure IsPart (name : String) : Prop where
  ne_empty : name ≠ ""
  slash_not_mem : '/' ∉ name.toList

instance (name : String) : Decidable (IsPart name) :=
  decidable_of_iff (name ≠ "" ∧ '/' ∉ name.toList) ⟨fun h => ⟨h.1, h.2⟩, fun h => ⟨h.1, h.2⟩⟩

def below (path : String) (names : List String) : String :=
  names.foldl (fun path name => path ++ "/" ++ name) path

theorem parts_append_slash (path rest : String) :
    parts (path ++ "/" ++ rest) = parts path ++ parts rest := by
  have hcut : (path ++ "/" ++ rest).toList = path.toList ++ '/' :: rest.toList := by simp
  rw [parts, hcut, splitAt_append, List.map_append]
  rfl

theorem IsPart.parts_eq {name : String} (h : IsPart name) : parts name = [name] := by
  rw [parts, splitAt_of_not_mem h.slash_not_mem, List.map_singleton, String.ofList_toList]

theorem parts_below (path : String) {names : List String} (h : ∀ name ∈ names, IsPart name) :
    parts (below path names) = parts path ++ names := by
  induction names generalizing path with
  | nil => exact (List.append_nil _).symm
  | cons name names ih =>
    obtain ⟨hname, hnames⟩ := List.forall_mem_cons.mp h
    change parts (below (path ++ "/" ++ name) names) = _
    rw [ih _ hnames, parts_append_slash, hname.parts_eq, List.append_assoc]
    rfl

/-- The names that lead down from a path can be read off the path at their end. -/
theorem below_injective {path : String} {names names' : List String}
    (h : ∀ name ∈ names, IsPart name) (h' : ∀ name ∈ names', IsPart name)
    (heq : below path names = below path names') : names = names' := by
  have hparts := congrArg parts heq
  rwa [parts_below path h, parts_below path h', List.append_cancel_left_eq] at hparts

theorem endsWith_slash_iff {path : String} :
    path.endsWith "/" = true ↔ ['/'] <:+ path.toList := by
  rw [String.endsWith_eq_endsWith_toSlice, String.Slice.endsWith_string_iff, String.copy_toSlice]
  rfl

theorem unslashed_append_slash {path : String} (h : path.endsWith "/" = true) :
    unslashed path ++ "/" = path := by
  obtain ⟨front, hfront⟩ := endsWith_slash_iff.mp h
  rw [unslashed, if_pos h, ← String.toList_inj, String.toList_append, String.toList_ofList,
    ← hfront, List.dropLast_concat]
  rfl

theorem IsPart.not_endsWith_slash {name : String} (h : IsPart name) (path : String) :
    (path ++ name).endsWith "/" = false := by
  rw [Bool.eq_false_iff, ne_eq, endsWith_slash_iff, String.toList_append]
  intro hslash
  have hname : name.toList ≠ [] := by simpa using h.ne_empty
  have hlast := hslash.getLast (List.cons_ne_nil '/' [])
  rw [List.getLast_append_of_ne_nil _ hname, List.getLast_singleton] at hlast
  exact h.slash_not_mem (hlast ▸ List.getLast_mem hname)

theorem join_eq {path name : String} (hpath : path ≠ "") (hname : IsPart name) :
    join path name = unslashed path ++ "/" ++ name := by
  have hstart : name.startsWith "/" = false := by
    rw [Bool.eq_false_iff, ne_eq, String.startsWith_string_iff]
    exact fun hslash => hname.slash_not_mem (hslash.subset (List.mem_singleton_self '/'))
  rw [join, hstart, decide_eq_false hpath, if_neg (by simp)]
  split
  · next hend => rw [unslashed_append_slash hend]
  · next hend => rw [unslashed, if_neg hend]

theorem foldl_join {path : String} (hpath : path ≠ "") {names : List String} (hne : names ≠ [])
    (h : ∀ name ∈ names, IsPart name) : names.foldl join path = below (unslashed path) names := by
  induction names generalizing path with
  | nil => exact absurd rfl hne
  | cons name names ih =>
    obtain ⟨hname, hnames⟩ := List.forall_mem_cons.mp h
    have hend := hname.not_endsWith_slash (unslashed path ++ "/")
    have hne' : unslashed path ++ "/" ++ name ≠ "" := by simp [hname.ne_empty]
    rw [List.foldl_cons, join_eq hpath hname]
    cases names with
    | nil => rfl
    | cons next names =>
      rw [ih hne' (List.cons_ne_nil _ _) hnames, unslashed, hend]
      rfl

theorem extension_of_not_mem {name : String} (h : '.' ∉ name.toList) : extension name = "" := by
  have htail : (name.toList.reverse ++ []).takeWhile (· != '.') = name.toList.reverse :=
    takeWhile_bne_append (by simpa using h) (by simp)
  rw [List.append_nil] at htail
  simp only [extension, htail, List.drop_length]

theorem extension_append {last : String} (h : '.' ∉ last.toList) (stem : String) :
    extension (stem ++ "." ++ last) =
      if stem.toList.all (· == '.') then "" else "." ++ last := by
  have hreverse : (stem ++ "." ++ last).toList.reverse =
      last.toList.reverse ++ '.' :: stem.toList.reverse := by simp
  have htail : (last.toList.reverse ++ '.' :: stem.toList.reverse).takeWhile (· != '.') =
      last.toList.reverse := takeWhile_bne_append (by simpa using h) (by simp)
  rw [extension, hreverse, htail, List.drop_left]
  simp

theorem extension_eq_iff {name last : String} (h : '.' ∉ last.toList) :
    extension name = "." ++ last ↔
      ∃ stem, name = stem ++ "." ++ last ∧ ∃ c ∈ stem.toList, c ≠ '.' := by
  constructor
  · intro hext
    by_cases hdot : '.' ∈ name.toList
    · -- The name is cut at its last dot, which is the first one of the reversed name.
      obtain ⟨last', stem, hname, hlast'⟩ :=
        List.eq_append_cons_of_mem (List.mem_reverse.mpr hdot)
      obtain rfl : name = .ofList stem.reverse ++ "." ++ .ofList last'.reverse := by
        rw [← String.toList_inj, ← List.reverse_inj, hname]
        simp
      rw [extension_append (by simpa using hlast')] at hext
      split at hext
      · exact absurd (congrArg String.toList hext) (by simp)
      · next hall =>
        refine ⟨_, congrArg _ (String.append_right_inj _ |>.mp hext), ?_⟩
        simpa using hall
    · rw [extension_of_not_mem hdot] at hext
      exact absurd (congrArg String.toList hext) (by simp)
  · rintro ⟨stem, rfl, c, hc, hdot⟩
    rw [extension_append h, if_neg]
    rw [List.all_eq_true]
    exact fun hall => hdot (by simpa using hall c hc)

end Path

namespace FileTree

mutual

/-- All files of a tree, each with the names that lead to it. -/
def listing : FileTree → List (List String × ByteArray)
  | .file content => [([], content)]
  | .directory entries => listingEntries entries

def listingEntries : List (String × FileTree) → List (List String × ByteArray)
  | [] => []
  | (name, t) :: rest => (listing t).map (fun f => (name :: f.1, f.2)) ++ listingEntries rest

end

/-- The entries of every directory have different names, each of which is one part of a path. -/
inductive WellNamed : FileTree → Prop
  | file (content : ByteArray) : WellNamed (.file content)
  | directory {entries : List (String × FileTree)} (distinct : (entries.map (·.1)).Nodup)
      (proper : ∀ e ∈ entries, Path.IsPart e.1)
      (below : ∀ e ∈ entries, WellNamed e.2) : WellNamed (.directory entries)

theorem entriesInduction {motive : FileTree → Prop} (file : ∀ content, motive (.file content))
    (directory : ∀ entries, (∀ e ∈ entries, motive e.2) → motive (.directory entries))
    (t : FileTree) : motive t :=
  @FileTree.rec motive (fun entries => ∀ e ∈ entries, motive e.2) (fun e => motive e.2)
    file directory (by simp) (fun _ _ h hs => List.forall_mem_cons.mpr ⟨h, hs⟩) (fun _ _ h => h) t

theorem listing_directory (entries : List (String × FileTree)) : (directory entries).listing =
    entries.flatMap fun e => e.2.listing.map fun f => (e.1 :: f.1, f.2) := by
  rw [listing]
  induction entries with
  | nil => rfl
  | cons e entries ih => rw [listingEntries, ih, List.flatMap_cons]

theorem walk_directory (wanted : String → Bool) (path : String)
    (entries : List (String × FileTree)) : (directory entries).walk wanted path =
      entries.flatMap fun e =>
        if e.2.isDirectory && !wanted e.1 then [] else e.2.walk wanted (path ++ "/" ++ e.1) := by
  rw [walk]
  induction entries with
  | nil => rfl
  | cons e entries ih => rw [walkEntries, ih, List.flatMap_cons]

theorem ne_nil_of_mem_listing {t : FileTree} (ht : t.isDirectory = true)
    {f : List String × ByteArray} (hf : f ∈ t.listing) : f.1 ≠ [] := by
  cases t with
  | file content => cases ht
  | directory entries =>
    rw [listing_directory, List.mem_flatMap] at hf
    obtain ⟨e, _, hf⟩ := hf
    obtain ⟨g, _, rfl⟩ := List.mem_map.mp hf
    exact List.cons_ne_nil _ _

/-- Every directory on the way to a file is wanted. -/
def allWanted (wanted : String → Bool) (f : List String × ByteArray) : Bool :=
  f.1.dropLast.all wanted

theorem walk_eq_listing (wanted : String → Bool) (path : String) (t : FileTree) :
    t.walk wanted path =
      (t.listing.filter (allWanted wanted)).map fun f => (Path.below path f.1, f.2) := by
  induction t using entriesInduction generalizing path with
  | file content => rfl
  | directory entries ih =>
    rw [walk_directory, listing_directory, List.filter_flatMap, List.map_flatMap]
    refine List.flatMap_congr fun ⟨name, t⟩ he => ?_
    have hwalk := ih _ he (path ++ "/" ++ name)
    dsimp only at hwalk ⊢
    rw [hwalk, List.filter_map, List.map_map]
    cases t with
    | file content => rfl
    | directory entries =>
      -- A file of a directory has at least one name, so the directory is one on the way to it.
      have hfilter : (directory entries).listing.filter
          (allWanted wanted ∘ fun f => (name :: f.1, f.2)) =
          (directory entries).listing.filter fun f => wanted name && allWanted wanted f := by
        refine List.filter_congr fun f hf => ?_
        rw [Function.comp_apply, allWanted,
          List.dropLast_cons_of_ne_nil (ne_nil_of_mem_listing rfl hf), List.all_cons]
        rfl
      rw [hfilter]
      cases hname : wanted name with
      | true => rfl
      | false => simp [isDirectory]

theorem mem_listing_directory {entries : List (String × FileTree)} {f : List String × ByteArray} :
    f ∈ (directory entries).listing ↔
      ∃ name t names, (name, t) ∈ entries ∧ (names, f.2) ∈ t.listing ∧ f.1 = name :: names := by
  rw [listing_directory, List.mem_flatMap]
  constructor
  · rintro ⟨⟨name, t⟩, he, hf⟩
    obtain ⟨g, hg, rfl⟩ := List.mem_map.mp hf
    exact ⟨name, t, g.1, he, hg, rfl⟩
  · rintro ⟨name, t, names, he, hf, hnames⟩
    exact ⟨(name, t), he, List.mem_map.mpr ⟨_, hf, Prod.ext hnames.symm rfl⟩⟩

theorem child?_eq_some_iff {entries : List (String × FileTree)}
    (hdistinct : (entries.map (·.1)).Nodup) {name : String} {t : FileTree} :
    (directory entries).child? name = some t ↔ (name, t) ∈ entries := by
  rw [child?, Option.map_eq_some_iff]
  constructor
  · rintro ⟨e, hfind, rfl⟩
    obtain rfl : e.1 = name := by simpa using List.find?_some hfind
    exact List.mem_of_find?_eq_some hfind
  · intro he
    obtain ⟨e, hfind⟩ := Option.isSome_iff_exists.mp
      (List.find?_isSome.mpr ⟨_, he, decide_eq_true rfl⟩ :
        (entries.find? fun e => decide (e.1 = name)).isSome = true)
    have hname : e.1 = name := by simpa using List.find?_some hfind
    obtain rfl := List.inj_on_of_nodup_map hdistinct (List.mem_of_find?_eq_some hfind) he hname
    exact ⟨_, hfind, rfl⟩

section WellNamed

variable {t : FileTree} (h : t.WellNamed)

include h

/-- The listing holds what stands at the end of names that lead to a file. -/
theorem WellNamed.mem_listing_iff {names : List String} {content : ByteArray} :
    (names, content) ∈ t.listing ↔ t.at? names = some (.file content) := by
  induction h generalizing names with
  | file content' => cases names <;> simp [listing, at?, child?, eq_comm]
  | @directory entries distinct proper below ih =>
    rw [mem_listing_directory]
    cases names with
    | nil => simp [at?]
    | cons name names =>
      simp only [at?, Option.bind_eq_some_iff, child?_eq_some_iff distinct, List.cons.injEq]
      constructor
      · rintro ⟨_, t, _, he, hf, rfl, rfl⟩
        exact ⟨t, he, (ih _ he).mp hf⟩
      · rintro ⟨t, he, hat⟩
        exact ⟨name, t, names, he, (ih _ he).mpr hat, rfl, rfl⟩

theorem WellNamed.nodup_listing : (t.listing.map (·.1)).Nodup := by
  induction h with
  | file content => simp [listing]
  | @directory entries distinct proper below ih =>
    rw [listing_directory, List.map_flatMap, List.nodup_flatMap]
    refine ⟨fun e he => ?_, (List.pairwise_map.mp distinct).imp fun {e e'} hne => ?_⟩
    · have hcons := (ih e he).map (List.cons_injective (a := e.1))
      simpa [Function.comp_def] using hcons
    · intro names hmem hmem'
      simp only [List.map_map, List.mem_map] at hmem hmem'
      obtain ⟨f, _, rfl⟩ := hmem
      obtain ⟨f', _, hnames⟩ := hmem'
      exact hne (List.cons.inj hnames).1.symm

theorem WellNamed.isPart_of_mem_listing {f : List String × ByteArray} (hf : f ∈ t.listing) :
    ∀ name ∈ f.1, Path.IsPart name := by
  induction h generalizing f with
  | file content => simp_all [listing]
  | directory distinct proper below ih =>
    obtain ⟨name, t, names, he, hf, hnames⟩ := mem_listing_directory.mp hf
    rw [hnames]
    exact List.forall_mem_cons.mpr ⟨proper _ he, ih _ he hf⟩

theorem WellNamed.isPart_of_at? {names : List String} {content : ByteArray}
    (hat : t.at? names = some (.file content)) : ∀ name ∈ names, Path.IsPart name :=
  h.isPart_of_mem_listing (h.mem_listing_iff.mpr hat)

theorem WellNamed.mem_walk_iff {wanted : String → Bool} {start path : String}
    {content : ByteArray} :
    (path, content) ∈ t.walk wanted start ↔ ∃ names, t.at? names = some (.file content) ∧
      (∀ name ∈ names.dropLast, wanted name = true) ∧ path = Path.below start names := by
  rw [walk_eq_listing, List.mem_map]
  constructor
  · rintro ⟨⟨names, content⟩, hf, heq⟩
    obtain ⟨rfl, rfl⟩ := Prod.ext_iff.mp heq
    obtain ⟨hf, hall⟩ := List.mem_filter.mp hf
    exact ⟨names, h.mem_listing_iff.mp hf, List.all_eq_true.mp hall, rfl⟩
  · rintro ⟨names, hat, hall, rfl⟩
    exact ⟨(names, content), List.mem_filter.mpr ⟨h.mem_listing_iff.mpr hat,
      List.all_eq_true.mpr hall⟩, rfl⟩

theorem WellNamed.nodup_walk (wanted : String → Bool) (start : String) :
    ((t.walk wanted start).map (·.1)).Nodup := by
  rw [walk_eq_listing, List.map_map]
  have hnodup := h.nodup_listing.of_map.filter (allWanted wanted)
  refine hnodup.map_on fun f hf f' hf' heq => ?_
  have hf := (List.mem_filter.mp hf).1
  have hf' := (List.mem_filter.mp hf').1
  exact List.inj_on_of_nodup_map h.nodup_listing hf hf' (Path.below_injective
    (h.isPart_of_mem_listing hf) (h.isPart_of_mem_listing hf') heq)

end WellNamed

end FileTree

namespace Discovery

/-- A name that ends in the extension of sources, behind something other than dots. -/
def IsSourceName (name : String) : Prop :=
  ∃ stem, name = stem ++ sourceExtension ∧ ∃ c ∈ stem.toList, c ≠ '.'

theorem isSource_below_iff {path name : String} {dirs : List String}
    (h : ∀ n ∈ dirs ++ [name], Path.IsPart n) :
    isSource (Path.below path (dirs ++ [name])) = true ↔ IsSourceName name := by
  have hext : sourceExtension = "." ++ "java" := by decide
  rw [isSource, fileName, Path.parts_below _ h, ← List.append_assoc, List.getLastD_concat,
    beq_iff_eq, hext, Path.extension_eq_iff (by decide), IsSourceName, hext]
  simp only [String.append_assoc]

theorem searched_iff {name : String} :
    searched name = true ↔ name.toList.head? ≠ some '.' ∧ name ∉ excluded := by
  have hstart : name.startsWith "." = true ↔ name.toList.head? = some '.' := by
    rw [String.startsWith_string_iff]
    cases name.toList <;> simp [eq_comm]
  rw [searched, Bool.and_eq_true, Bool.not_eq_true', Bool.not_eq_true', ← Bool.not_eq_true,
    ← Bool.not_eq_true, hstart, List.contains_iff_mem]

theorem absolute_ne_empty (home path : String) : Path.absolute home path ≠ "" := by
  rw [Path.absolute, Path.normal]
  split
  · decide
  · assumption

/-- The sources of a directory are the files below it whose name has the extension of sources, in
directories that are not hidden and not excluded. Each is listed once, in the order of the paths. -/
theorem sources_of_directory {fs : Files} {directory : String} {t : FileTree}
    (hfind : fs.find (fs.absolute directory) = .ok t) (hdirectory : t.isDirectory = true)
    (hnames : t.WellNamed) :
    ∃ paths, sources fs directory = .ok paths ∧ paths.Pairwise (· < ·) ∧
      ∀ path, path ∈ paths ↔ ∃ dirs name content,
        t.at? (dirs ++ [name]) = some (.file content) ∧ IsSourceName name ∧
        (∀ dir ∈ dirs, dir.toList.head? ≠ some '.' ∧ dir ∉ excluded) ∧
        path = (dirs ++ [name]).foldl Path.join (fs.absolute directory) := by
  let start := Path.unslashed (fs.absolute directory)
  let found := (t.walk searched start).map (·.1)
  have hsources : sources fs directory =
      .ok ((found.filter isSource).mergeSort fun a b => decide (a ≤ b)) := by
    simp only [sources, Files.isDirectory, hfind, hdirectory, if_true]
    rfl
  refine ⟨_, hsources, sorted_lt_mergeSort ((hnames.nodup_walk _ _).filter _), fun path => ?_⟩
  rw [List.mem_mergeSort, List.mem_filter, List.mem_map]
  have hjoin : ∀ {names : List String} {content : ByteArray}, names ≠ [] →
      t.at? names = some (.file content) →
      names.foldl Path.join (fs.absolute directory) = Path.below start names := fun hne hat =>
    Path.foldl_join (absolute_ne_empty _ _) hne (hnames.isPart_of_at? hat)
  constructor
  · rintro ⟨⟨⟨path, content⟩, hwalk, rfl⟩, hsource⟩
    obtain ⟨names, hat, hall, rfl⟩ := hnames.mem_walk_iff.mp hwalk
    obtain rfl | ⟨dirs, name, rfl⟩ := names.eq_nil_or_concat'
    · -- The directory itself is not a file.
      obtain rfl := Option.some.inj hat
      cases hdirectory
    rw [List.dropLast_concat] at hall
    exact ⟨dirs, name, content, hat, (isSource_below_iff (hnames.isPart_of_at? hat)).mp hsource,
      fun dir hdir => searched_iff.mp (hall dir hdir), (hjoin (by simp) hat).symm⟩
  · rintro ⟨dirs, name, content, hat, hname, hdirs, rfl⟩
    have hne : dirs ++ [name] ≠ [] := by simp
    rw [hjoin hne hat]
    refine ⟨⟨_, hnames.mem_walk_iff.mpr ⟨dirs ++ [name], hat, ?_, rfl⟩, rfl⟩,
      (isSource_below_iff (hnames.isPart_of_at? hat)).mpr hname⟩
    rw [List.dropLast_concat]
    exact fun dir hdir => searched_iff.mpr (hdirs dir hdir)

def checkout : FileTree :=
  .directory [("src", .directory [("A.java", .file ⟨#[]⟩), (".java", .file ⟨#[]⟩)]),
    (".git", .directory [("A.java", .file ⟨#[]⟩)])]

/-- The name of the directory itself may be one that is excluded below it. -/
theorem sources_of_checkout : checkout.isDirectory = true ∧ checkout.WellNamed ∧
    ∃ paths, sources ⟨"/", .directory [("build", checkout)]⟩ "build" = .ok paths ∧
      "/build/src/A.java" ∈ paths := by
  have hfind : Files.find ⟨"/", .directory [("build", checkout)]⟩
      (Files.absolute ⟨"/", .directory [("build", checkout)]⟩ "build") = .ok checkout := by
    have habsolute : Files.absolute ⟨"/", .directory [("build", checkout)]⟩ "build" = "/build" := by
      decide +kernel
    have hparts : Files.parts ⟨"/", .directory [("build", checkout)]⟩ "/build" = ["", "build"] := by
      decide +kernel
    rw [habsolute, Files.find, if_neg (by decide), if_neg (by decide), hparts]
    rfl
  have hfile : FileTree.WellNamed (.file ⟨#[]⟩) := .file _
  have hsrc : FileTree.WellNamed
      (.directory [("A.java", .file ⟨#[]⟩), (".java", .file ⟨#[]⟩)]) :=
    .directory (by decide) (by decide) (by simpa using hfile)
  have hgit : FileTree.WellNamed (.directory [("A.java", .file ⟨#[]⟩)]) :=
    .directory (by decide) (by decide) (by simpa using hfile)
  have hnames : checkout.WellNamed :=
    .directory (by decide) (by decide) (by simpa using ⟨hsrc, hgit⟩)
  obtain ⟨paths, hpaths, _, hmem⟩ := sources_of_directory hfind rfl hnames
  have hname : IsSourceName "A.java" := ⟨"A", by decide, 'A', by decide, by decide⟩
  refine ⟨rfl, hnames, paths, hpaths, (hmem _).mpr ⟨["src"], "A.java", ⟨#[]⟩, rfl, hname, ?_, ?_⟩⟩
  · decide
  · decide +kernel

end Discovery

end CodeAtlas

import Mathlib.Data.List.Forall2
import TemplateLint.Proofs.Discovery.Globs
import TemplateLint.Proofs.Discovery.Matching
import TemplateLint.Proofs.Discovery.Order

/-!
# The list of discovered files

Discovery lists the files of the base directory and of the named paths one
after another, and keeps each name where it first occurs.  It fails only at a
path that leads nowhere, and the order of the paths decides about nothing but
the order of the names.
-/

namespace TemplateLint

/-! ## Names of files -/

/-- An absolute name without dots, as it is written, under which there is a
file. -/
structure FileTree.HasName (tree : FileTree) (filename : String) : Prop where
  absolute : (Path.ofString filename).isAbsolute = true
  normal : ".." ∉ (Path.ofString filename).components
  written : (Path.ofString filename).toString = filename
  existing : tree.isFile (Path.ofString filename).components = true

section Names

variable {tree : FileTree} {first second : String}

/-- Two names of one file differ by a slash at their beginning, if at all. -/
theorem FileTree.HasName.eq_of_placeOf?_eq (named : tree.HasName first)
    (namedToo : tree.HasName second)
    (sameAnchor : (Path.ofString first).anchor = (Path.ofString second).anchor)
    (same : tree.placeOf? first = tree.placeOf? second) : first = second := by
  obtain ⟨location, found, -⟩ := FileTree.isFile_iff.mp named.existing
  have foundToo : tree.locate? (Path.ofString second).components =
      some location := same.symm.trans found
  have components : (Path.ofString first).components =
      (Path.ofString second).components :=
    (FileTree.follow?_named named.normal found).symm.trans
      (FileTree.follow?_named namedToo.normal foundToo)
  have path : Path.ofString first = Path.ofString second := by
    cases read : Path.ofString first
    cases readToo : Path.ofString second
    simp_all
  rw [← named.written, path, namedToo.written]

variable {search : Search} {path : Path} {file : List String}

/-- Where the absolute names of what a path stands for begin. -/
def Search.anchor (search : Search) (path : Path) : Anchor :=
  (search.workingDirectory.under (search.base.under path)).anchor

theorem Search.ofString_absoluteName (isFileSystem : tree.IsFileSystem)
    (isFile : tree.isFile file = true) :
    Path.ofString (search.absoluteName path file) =
      ⟨search.anchor path, Path.resolveDots [] file⟩ := by
  rw [absoluteName]
  apply Path.ofString_toString
  have wellFormed : (Path.mk (search.anchor path) file).WellFormed :=
    fun name member => isFileSystem.isName_of_isFile isFile member
  exact wellFormed.resolveDots

/-- The absolute name of a file is a name of it. -/
theorem Search.hasName_absoluteName (isFileSystem : tree.IsFileSystem)
    (absolute : search.workingDirectory.isAbsolute = true)
    (isFile : tree.isFile file = true) :
    tree.HasName (search.absoluteName path file) := by
  have read : Path.ofString (search.absoluteName path file) =
      ⟨search.anchor path, Path.resolveDots [] file⟩ :=
    ofString_absoluteName isFileSystem isFile
  refine ⟨?_, ?_, ?_, ?_⟩
  · rw [read]
    have isAbsolute : (search.workingDirectory.under
        (search.base.under path)).isAbsolute = true :=
      Path.isAbsolute_under absolute
    exact isAbsolute
  · rw [read]
    exact Path.not_mem_resolveDots List.not_mem_nil
  · rw [read]
    rfl
  · obtain ⟨location, found, held⟩ := FileTree.isFile_iff.mp isFile
    rw [read, FileTree.isFile_iff]
    exact ⟨location, FileTree.locate?_resolveDots found, held⟩

end Names

/-! ## What is searched -/

section Searches

variable {tree : FileTree} {search : Search} {glob : Option Text}
  {path : Path} {directory file : List String} {name : String}

/-- A file below a directory the way to which matches one of the patterns that
a glob with braces stands for. -/
def FileTree.Selects (tree : FileTree) (glob : Option Text)
    (directory file : List String) : Prop :=
  tree.isDirectory directory = true ∧ tree.isFile file = true ∧
    ∃ pattern, glob = some pattern ∧
    ∃ expanded ∈ Braces.expand pattern,
    ∃ read, Glob.ofText expanded = .ok read ∧ read.directoriesOnly = false ∧
    ∃ way, file = directory ++ way ∧ Glob.Matches read.parts way

/-- A file that a path stands for: one of those that are selected below it, if
it is a directory, or else itself. -/
def Search.StandsFor (search : Search) (tree : FileTree) (path : Path)
    (file : List String) : Prop :=
  let components := search.components path
  if tree.isDirectory components then tree.Selects search.glob components file
  else tree.isFile components = true ∧ file = components

/-- Absolute names of all files with a property, sorted by components. -/
def Search.Lists (search : Search) (path : Path) (stands : List String → Prop)
    (filenames : List String) : Prop :=
  ∃ files : List (List String), files.Pairwise (· < ·) ∧
    (∀ file, file ∈ files ↔ stands file) ∧
    filenames = files.map (search.absoluteName path)

theorem mapM_eq_ok_iff {Item Result Error : Type}
    {step : Item → Except Error Result} {items : List Item}
    {results : List Result} :
    items.mapM step = .ok results ↔
      List.Forall₂ (fun item result => step item = .ok result) items
        results := by
  induction items generalizing results with
  | nil => cases results <;> simp [pure, Except.pure]
  | cons item items induction =>
      rw [List.mapM_cons, List.forall₂_cons_left_iff]
      cases here : step item with
      | error error => simp [bind, Except.bind]
      | ok value =>
          cases later : items.mapM step with
          | error error => simp [bind, Except.bind, ← induction, later]
          | ok values =>
              simp [bind, Except.bind, pure, Except.pure, ← induction, later,
                eq_comm]

/-- A traversal breaks off with the first item whose step does. -/
theorem mapM_eq_error_of_find? {Item Result Error : Type}
    {step : Item → Except Error Result} {stops : Item → Bool}
    {items : List Item} {item : Item} {error : Error}
    (first : items.find? stops = some item)
    (passes : ∀ item ∈ items, stops item = false → Passes step item)
    (breaks : step item = .error error) : items.mapM step = .error error := by
  induction items with
  | nil => contradiction
  | cons other items induction =>
      rw [List.forall_mem_cons] at passes
      rw [List.mapM_cons]
      cases stop : stops other with
      | true =>
          rw [List.find?_cons_of_pos stop, Option.some.injEq] at first
          rw [first, breaks]
          rfl
      | false =>
          rw [List.find?_cons_of_neg (by simp [stop])] at first
          obtain ⟨result, passed⟩ := passes.1 stop
          rw [passed, induction first passes.2]
          rfl

/-- Where every step passes, so does a traversal. -/
theorem exists_forall₂_of_passes {Item Result : Type} {goes : Item → Result → Prop}
    {items : List Item} (passes : ∀ item ∈ items, ∃ result, goes item result) :
    ∃ results, List.Forall₂ goes items results := by
  induction items with
  | nil => exact ⟨[], .nil⟩
  | cons item items induction =>
      rw [List.forall_mem_cons] at passes
      obtain ⟨result, here⟩ := passes.1
      obtain ⟨results, later⟩ := induction passes.2
      exact ⟨result :: results, .cons here later⟩

/-- Some result has a property if some item has the one that goes with it. -/
theorem exists_mem_iff_of_forall₂ {Item Result : Type}
    {goes : Item → Result → Prop} {holds : Result → Prop} {gives : Item → Prop}
    {items : List Item} {results : List Result}
    (steps : List.Forall₂ goes items results)
    (same : ∀ item result, goes item result → (holds result ↔ gives item)) :
    (∃ result ∈ results, holds result) ↔ ∃ item ∈ items, gives item := by
  induction steps with
  | nil => simp
  | cons here _ induction => simp [same _ _ here, induction]

/-- With a glob that can be read, a directory is searched for exactly the files
that are selected. -/
theorem exists_searchDirectory (isFileSystem : tree.IsFileSystem)
    (good : ¬BadGlob glob) (directory : List String) :
    ∃ files, searchDirectory tree glob directory = .ok files ∧
      files.Pairwise (· < ·) ∧
      ∀ file, file ∈ files ↔ tree.Selects glob directory file := by
  simp only [BadGlob, not_forall, not_exists, not_and, not_not] at good
  obtain ⟨pattern, rfl, passes⟩ := good
  obtain ⟨globs, read⟩ := exists_forall₂_of_passes passes
  have found : ((Braces.expand pattern).mapM fun expanded => do
      let glob ← Glob.ofText expanded
      return glob.files tree directory) =
      .ok (globs.map (·.files tree directory)) := by
    rw [mapM_eq_ok_iff, List.forall₂_map_right_iff]
    refine read.imp ?_
    intro expanded glob same
    rw [same]
    rfl
  refine ⟨_, by rw [searchDirectory, found]; rfl, pairwise_lt_sortedFiles _, ?_⟩
  intro file
  have globOf : ∀ expanded glob, Glob.ofText expanded = .ok glob →
      (file ∈ glob.files tree directory ↔ ∃ read,
        Glob.ofText expanded = .ok read ∧ file ∈ read.files tree directory) := by
    intro expanded glob same
    simp [same]
  rw [mem_sortedFiles, ← List.flatMap_def, List.mem_flatMap,
    exists_mem_iff_of_forall₂ read globOf]
  simp only [Glob.mem_files_iff isFileSystem, FileTree.Selects]
  constructor
  · rintro ⟨expanded, member, glob, same, filesOnly, inside, isFile, isMatch⟩
    exact ⟨inside, isFile, pattern, rfl, expanded, member, glob, same,
      filesOnly, isMatch⟩
  · rintro ⟨inside, isFile, _, isPattern, expanded, member, glob, same,
      filesOnly, isMatch⟩
    obtain rfl := Option.some.inj isPattern
    exact ⟨expanded, member, glob, same, filesOnly, inside, isFile, isMatch⟩

/-- A named path that leads somewhere has the names of the files that it
stands for. -/
theorem Search.exists_filesOf (isFileSystem : tree.IsFileSystem)
    (good : ¬BadGlob search.glob)
    (leads : tree.contains (search.components (.ofString name)) = true) :
    ∃ filenames, search.filesOf tree name = .ok filenames ∧
      search.Lists (.ofString name) (search.StandsFor tree (.ofString name))
        filenames := by
  simp only [filesOf]
  cases isDirectory :
      tree.isDirectory (search.components (.ofString name)) with
  | true =>
      obtain ⟨files, found, increasing, mem_iff⟩ :=
        exists_searchDirectory isFileSystem good
          (search.components (.ofString name))
      refine ⟨_, by rw [if_pos rfl, found]; rfl, files, increasing, ?_, rfl⟩
      simpa [StandsFor, isDirectory] using mem_iff
  | false =>
      have isFile : tree.isFile (search.components (.ofString name)) =
          true := by
        simpa [FileTree.contains, isDirectory] using leads
      refine ⟨_, by rw [if_neg (by simp), if_pos isFile]; rfl,
        [search.components (.ofString name)], List.pairwise_singleton _ _, ?_,
        List.map_singleton⟩
      simp [StandsFor, isDirectory, isFile]

theorem Search.filesOf_of_missing
    (missing : tree.contains (search.components (.ofString name)) = false) :
    search.filesOf tree name = .error (.pathNotFound name) := by
  simp only [FileTree.contains, Bool.or_eq_false_iff] at missing
  simp [filesOf, missing]

theorem Search.exists_filesOfBase (isFileSystem : tree.IsFileSystem)
    (good : ¬BadGlob search.glob) :
    ∃ filenames, search.filesOfBase tree = .ok filenames ∧
      search.Lists ⟨.relative, []⟩ (fun file => search.everything = true ∧
        tree.Selects search.glob (search.components ⟨.relative, []⟩) file)
        filenames := by
  rw [filesOfBase]
  cases search.everything with
  | false => exact ⟨[], rfl, [], .nil, by simp, rfl⟩
  | true =>
      obtain ⟨files, found, increasing, mem_iff⟩ :=
        exists_searchDirectory isFileSystem good
          (search.components ⟨.relative, []⟩)
      exact ⟨_, by simp [found, Except.map], files, increasing,
        by simpa using mem_iff, rfl⟩

end Searches

/-! ## The whole list -/

section Lists

variable {tree : FileTree} {search : Search} {names found : List String}
  {path : Path} {stands : List String → Prop} {filename : String}

theorem Search.Lists.mem_iff {filenames : List String}
    (lists : search.Lists path stands filenames) :
    filename ∈ filenames ↔
      ∃ file, stands file ∧ search.absoluteName path file = filename := by
  obtain ⟨files, -, mem_iff, rfl⟩ := lists
  simp [mem_iff]

/-- A file is found under a name: at the base directory, if everything is
asked for, or by a named path that stands for it. -/
def Search.Finds (search : Search) (tree : FileTree) (names : List String)
    (filename : String) : Prop :=
  (∃ file, (search.everything = true ∧
      tree.Selects search.glob (search.components ⟨.relative, []⟩) file) ∧
    search.absoluteName ⟨.relative, []⟩ file = filename) ∨
  ∃ name ∈ names, ∃ file, search.StandsFor tree (.ofString name) file ∧
    search.absoluteName (.ofString name) file = filename

/-- Names that a search finds: they are distinct, names of files, and those
under which files are found; and they stand in the order in which they occur
first in the lists of the base directory and of the named paths. -/
structure Search.Discovers (search : Search) (tree : FileTree)
    (names found : List String) : Prop where
  distinct : found.Nodup
  named : ∀ filename ∈ found, tree.HasName filename
  complete : ∀ filename, filename ∈ found ↔ search.Finds tree names filename
  ordered : ∃ fromBase lists,
    search.Lists ⟨.relative, []⟩ (fun file => search.everything = true ∧
      tree.Selects search.glob (search.components ⟨.relative, []⟩) file)
      fromBase ∧
    List.Forall₂ (fun name => search.Lists (.ofString name)
      (search.StandsFor tree (.ofString name))) names lists ∧
    found.Pairwise fun first second =>
      (fromBase ++ lists.flatten).idxOf first <
        (fromBase ++ lists.flatten).idxOf second

theorem Search.isFile_of_standsFor {file : List String}
    (standsFor : search.StandsFor tree path file) : tree.isFile file = true := by
  rw [StandsFor] at standsFor
  split at standsFor
  · exact standsFor.2.1
  · rw [standsFor.2]
    exact standsFor.1

/-- Paths that all lead somewhere are discovered. -/
theorem Search.exists_discover (isFileSystem : tree.IsFileSystem)
    (absolute : search.workingDirectory.isAbsolute = true)
    (good : ¬BadGlob search.glob)
    (lead : ∀ name ∈ names,
      tree.contains (search.components (.ofString name)) = true) :
    ∃ found, search.discover tree names = .ok found ∧
      search.Discovers tree names found := by
  obtain ⟨fromBase, ofBase, listsBase⟩ :=
    search.exists_filesOfBase isFileSystem good
  obtain ⟨lists, steps⟩ := exists_forall₂_of_passes fun name member =>
    search.exists_filesOf isFileSystem good (lead name member)
  have read := mapM_eq_ok_iff.mpr (steps.imp fun _ _ step => step.1)
  have complete : ∀ filename, filename ∈ (fromBase ++ lists.flatten).eraseDups ↔
      search.Finds tree names filename := by
    intro filename
    rw [List.mem_eraseDups, List.mem_append, listsBase.mem_iff,
      List.mem_flatten, Finds,
      exists_mem_iff_of_forall₂ steps fun _ _ step => step.2.mem_iff]
  refine ⟨_, by rw [discover, ofBase]; simp [read, bind, Except.bind]; rfl,
    nodup_eraseDups _, ?_, complete,
    fromBase, lists, listsBase, steps.imp fun _ _ step => step.2,
    pairwise_idxOf_eraseDups _⟩
  intro filename member
  rcases (complete filename).mp member with
    ⟨file, ⟨-, selects⟩, rfl⟩ | ⟨name, -, file, standsFor, rfl⟩
  · exact hasName_absoluteName isFileSystem absolute selects.2.1
  · exact hasName_absoluteName isFileSystem absolute
      (isFile_of_standsFor standsFor)

/-- A path that leads nowhere, and before which all lead somewhere, is
named. -/
theorem Search.discover_of_missing (isFileSystem : tree.IsFileSystem)
    (good : ¬BadGlob search.glob) {name : String}
    (missing : (names.find? fun name =>
      !tree.contains (search.components (.ofString name))) = some name) :
    search.discover tree names = .error (.pathNotFound name) := by
  obtain ⟨fromBase, ofBase, -⟩ := search.exists_filesOfBase isFileSystem good
  have breaks : search.filesOf tree name = .error (.pathNotFound name) := by
    have nowhere := List.find?_some missing
    rw [Bool.not_eq_true'] at nowhere
    exact filesOf_of_missing nowhere
  have stopped := mapM_eq_error_of_find? missing (fun other _ leads => by
    rw [Bool.not_eq_false'] at leads
    obtain ⟨filenames, lists, -⟩ := search.exists_filesOf isFileSystem good leads
    exact ⟨filenames, lists⟩) breaks
  rw [discover, ofBase]
  simp [stopped, bind, Except.bind]

theorem Search.discover_eq_error_iff (isFileSystem : tree.IsFileSystem)
    (absolute : search.workingDirectory.isAbsolute = true)
    (good : ¬BadGlob search.glob) {error : DiscoveryError} :
    search.discover tree names = .error error ↔
      ∃ name, (names.find? fun name =>
          !tree.contains (search.components (.ofString name))) = some name ∧
        error = .pathNotFound name := by
  cases missing : names.find? fun name =>
      !tree.contains (search.components (.ofString name)) with
  | none =>
      have lead : ∀ name ∈ names,
          tree.contains (search.components (.ofString name)) = true := by
        simpa using missing
      obtain ⟨found, discovered, -⟩ :=
        search.exists_discover isFileSystem absolute good lead
      simp [discovered]
  | some name =>
      simp [search.discover_of_missing isFileSystem good missing, eq_comm]

/-! ## Files under several names -/

/-- No path that takes part in a search begins with exactly two slashes. -/
structure Search.AvoidsTwoSlashes (search : Search) (names : List String) :
    Prop where
  workingDirectory : search.workingDirectory.anchor ≠ .doubleRoot
  base : search.base.anchor ≠ .doubleRoot
  names : ∀ name ∈ names, (Path.ofString name).anchor ≠ .doubleRoot

theorem Path.anchor_under_ne {anchor : Anchor} {directory : Path}
    (other : directory.anchor ≠ anchor) (otherPath : path.anchor ≠ anchor) :
    (directory.under path).anchor ≠ anchor := by
  rw [Path.under]
  split
  · exact otherPath
  · exact other

theorem Search.anchor_ne_doubleRoot (avoids : search.AvoidsTwoSlashes names)
    (single : path.anchor ≠ .doubleRoot) :
    search.anchor path ≠ .doubleRoot :=
  Path.anchor_under_ne avoids.workingDirectory
    (Path.anchor_under_ne avoids.base single)

/-- Without such paths all names begin with one slash. -/
theorem Search.Discovers.anchor_eq_root (discovers : search.Discovers tree names
    found) (isFileSystem : tree.IsFileSystem)
    (avoids : search.AvoidsTwoSlashes names) (member : filename ∈ found) :
    (Path.ofString filename).anchor = .root := by
  have absolute := (discovers.named filename member).absolute
  have single : (Path.ofString filename).anchor ≠ .doubleRoot := by
    rcases (discovers.complete filename).mp member with
      ⟨file, ⟨-, selects⟩, rfl⟩ | ⟨name, named, file, standsFor, rfl⟩
    · rw [ofString_absoluteName isFileSystem selects.2.1]
      exact anchor_ne_doubleRoot avoids (by decide)
    · rw [ofString_absoluteName isFileSystem (isFile_of_standsFor standsFor)]
      exact anchor_ne_doubleRoot avoids (avoids.names name named)
  cases anchored : (Path.ofString filename).anchor with
  | relative => simp [Path.isAbsolute, anchored] at absolute
  | root => rfl
  | doubleRoot => exact absurd anchored single

/-- The order of the paths decides about the order of the names only. -/
theorem Search.Discovers.perm {permuted foundToo : List String}
    (discovers : search.Discovers tree names found)
    (discoversToo : search.Discovers tree permuted foundToo)
    (permutation : names.Perm permuted) : found.Perm foundToo := by
  rw [List.perm_ext_iff_of_nodup discovers.distinct discoversToo.distinct]
  intro filename
  rw [discovers.complete, discoversToo.complete, Finds, Finds]
  simp only [permutation.mem_iff]

/-- With a glob that can be read, discovery fails exactly at the first path that
leads nowhere.  Otherwise it finds distinct names of files, exactly those that
are named or selected, in the order of their first occurrence, and in any order
of the paths the same ones.  Two of them are names of one file only if one
begins with two slashes and the other does not, so that without such paths each
file is found once. -/
theorem Search.discover_finds_each_once (isFileSystem : tree.IsFileSystem)
    (absolute : search.workingDirectory.isAbsolute = true)
    (good : ¬BadGlob search.glob) (names : List String) :
    (∀ error, search.discover tree names = .error error ↔
      ∃ name, (names.find? fun name =>
          !tree.contains (search.components (.ofString name))) = some name ∧
        error = .pathNotFound name) ∧
    ((∀ name ∈ names,
        tree.contains (search.components (.ofString name)) = true) →
      ∃ found, search.discover tree names = .ok found ∧
        search.Discovers tree names found ∧
        (∀ permuted, names.Perm permuted →
          ∃ foundToo, search.discover tree permuted = .ok foundToo ∧
            found.Perm foundToo) ∧
        (∀ first ∈ found, ∀ second ∈ found,
          tree.placeOf? first = tree.placeOf? second →
          first = second ∨
            (Path.ofString first).anchor ≠ (Path.ofString second).anchor) ∧
        (search.AvoidsTwoSlashes names →
          ∀ first ∈ found, ∀ second ∈ found,
            tree.placeOf? first = tree.placeOf? second → first = second)) := by
  refine ⟨fun error => discover_eq_error_iff isFileSystem absolute good, ?_⟩
  intro lead
  obtain ⟨found, discovered, discovers⟩ :=
    search.exists_discover isFileSystem absolute good lead
  refine ⟨found, discovered, discovers, ?_, ?_, ?_⟩
  · intro permuted permutation
    obtain ⟨foundToo, discoveredToo, discoversToo⟩ :=
      search.exists_discover isFileSystem absolute good fun name member =>
        lead name (permutation.mem_iff.mpr member)
    exact ⟨foundToo, discoveredToo, discovers.perm discoversToo permutation⟩
  · intro first member second memberToo same
    by_cases sameAnchor : (Path.ofString first).anchor =
        (Path.ofString second).anchor
    · exact .inl ((discovers.named first member).eq_of_placeOf?_eq
        (discovers.named second memberToo) sameAnchor same)
    · exact .inr sameAnchor
  · intro avoids first member second memberToo same
    have sameAnchor :=
      (discovers.anchor_eq_root isFileSystem avoids member).trans
        (discovers.anchor_eq_root isFileSystem avoids memberToo).symm
    exact (discovers.named first member).eq_of_placeOf?_eq
      (discovers.named second memberToo) sameAnchor same

end Lists

/-- A file beside a directory with two files. -/
def smallTree : FileTree :=
  ((FileTree.empty.addFile ["work", "z"] []).addFile
    ["work", "d", "b.erb"] []).addFile ["work", "d", "c.txt"] []

def smallSearch : Search :=
  ⟨.ofString "/work", .ofString "/work", some "*.\x7berb,txt\x7d", false⟩

/-- One file that is named twice, and a directory. -/
def severalNames : List String := ["d/../z", "/work/z", "d"]

theorem selects_text_file :
    smallTree.Selects smallSearch.glob ["work", "d"]
      ["work", "d", "c.txt"] := by
  have isMatch : Glob.Matches [.wildcard "*.txt".toList] ["c.txt"] :=
    .wildcard (by decide) (by decide +kernel) .nil
  exact ⟨by decide +kernel, by decide +kernel, _, rfl, "*.txt".toList,
    by decide +kernel, ⟨[.wildcard "*.txt".toList], false⟩, rfl, rfl,
    ["c.txt"], rfl, isMatch⟩

theorem discover_finds_each_once_of_several :
    smallTree.IsFileSystem ∧
      smallSearch.workingDirectory.isAbsolute = true ∧
      ¬BadGlob smallSearch.glob ∧
      (∀ name ∈ severalNames,
        smallTree.contains (smallSearch.components (.ofString name)) = true) ∧
      smallSearch.AvoidsTwoSlashes severalNames ∧
      ∃ found, smallSearch.discover smallTree severalNames = .ok found ∧
        smallSearch.Discovers smallTree severalNames found ∧
        "/work/d/c.txt" ∈ found ∧
        ∀ first ∈ found, ∀ second ∈ found,
          smallTree.placeOf? first = smallTree.placeOf? second →
          first = second := by
  have isFileSystem : smallTree.IsFileSystem := by decide +kernel
  have absolute : smallSearch.workingDirectory.isAbsolute = true := by
    decide +kernel
  have good : ¬BadGlob smallSearch.glob :=
    not_badGlob_of_all (by decide +kernel)
  have lead : ∀ name ∈ severalNames,
      smallTree.contains (smallSearch.components (.ofString name)) = true := by
    decide +kernel
  have avoids : smallSearch.AvoidsTwoSlashes severalNames :=
    ⟨by decide +kernel, by decide +kernel, by decide +kernel⟩
  obtain ⟨found, discovered, discovers, -, -, once⟩ :=
    (Search.discover_finds_each_once isFileSystem absolute good
      severalNames).2 lead
  have standsFor : smallSearch.StandsFor smallTree (.ofString "d")
      ["work", "d", "c.txt"] := by
    have directory : smallTree.isDirectory
        (smallSearch.components (.ofString "d")) = true := by
      decide +kernel
    rw [Search.StandsFor, if_pos directory]
    exact selects_text_file
  have finds := (discovers.complete "/work/d/c.txt").mpr
    (.inr ⟨"d", by simp [severalNames], _, standsFor, by decide +kernel⟩)
  exact ⟨isFileSystem, absolute, good, lead, avoids, found, discovered,
    discovers, finds, once avoids⟩

/-- A file that is given with one slash and with two is found twice. -/
theorem discover_finds_twice_under_two_slashes :
    smallTree.IsFileSystem ∧
      smallSearch.workingDirectory.isAbsolute = true ∧
      ¬BadGlob smallSearch.glob ∧
      smallSearch.discover smallTree ["/work/z", "//work/z"] =
        .ok ["/work/z", "//work/z"] ∧
      smallTree.placeOf? "/work/z" = some ["work", "z"] ∧
      smallTree.placeOf? "//work/z" = some ["work", "z"] := by
  refine ⟨by decide +kernel, by decide +kernel,
    not_badGlob_of_all (by decide +kernel), ?_, ?_, ?_⟩
  · decide +kernel
  · decide +kernel
  · decide +kernel

end TemplateLint

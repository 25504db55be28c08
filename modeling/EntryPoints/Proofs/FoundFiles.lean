import EntryPoints.File.Scan
import EntryPoints.Proofs.NormalPaths
import Mathlib.Data.List.Nodup
import Mathlib.Data.String.Basic

/-!
# The files that a scan finds

Which files of a directory a scan has to find is said here without the scan: names lead from the
directory to a file, the last of them is included, and none of them is excluded.  The name of the
directory itself does not count.

The scan goes through a tree, the paths of what it found go through the result, and the count
goes through it once more.  One equation joins the first two: the paths below a directory are
those of its entries, one entry behind the other.  So a path is found exactly when names lead to
it that the rules keep, and no path is found twice, since the names of a directory differ and a
path is told by its text.
-/

namespace EntryPoints

/-! ## Trees on a disk -/

namespace FileTree

/-- What names lead to from a tree. -/
def at? : List String → FileTree → Option FileTree
  | [], tree => some tree
  | name :: names, tree => (tree.entryNamed name).bind (at? names)

/-- A tree as it stands on a disk: the names in a directory differ, and each of them can stand
in a path. -/
inductive IsProper : FileTree → Prop
  | file (content : ByteArray) : IsProper (.file content)
  | directory {entries : List (String × FileTree)} (distinct : (entries.map (·.1)).Nodup)
      (named : ∀ entry ∈ entries, FilePath.IsSegment entry.1)
      (inner : ∀ entry ∈ entries, IsProper entry.2) : IsProper (.directory entries)

variable {entries : List (String × FileTree)} {name : String} {names : List String}
  {tree target : FileTree}

theorem lookup_eq_some_iff (distinct : (entries.map (·.1)).Nodup) :
    entries.lookup name = some tree ↔ (name, tree) ∈ entries := by
  rw [List.lookup_eq_some_iff]
  constructor
  · rintro ⟨before, after, rfl, -⟩
    simp
  · intro hmem
    obtain ⟨before, after, rfl⟩ := List.append_of_mem hmem
    refine ⟨before, after, rfl, fun entry hentry => ?_⟩
    rw [List.map_append, List.map_cons, List.nodup_append] at distinct
    exact bne_iff_ne.mpr
      (distinct.2.2 entry.1 (List.mem_map_of_mem hentry) name (by simp)).symm

theorem at?_cons_eq_some_iff (distinct : (entries.map (·.1)).Nodup) :
    (directory entries).at? (name :: names) = some target ↔
      ∃ tree, (name, tree) ∈ entries ∧ tree.at? names = some target := by
  simp only [at?, entryNamed, Option.bind_eq_some_iff, lookup_eq_some_iff distinct]

theorem IsProper.isSegment_of_at? (hproper : tree.IsProper) (hat : tree.at? names = some target) :
    ∀ name ∈ names, FilePath.IsSegment name := by
  induction hproper generalizing names with
  | file content =>
      cases names with
      | nil => simp
      | cons name names => cases hat
  | @directory entries distinct named inner ih =>
      cases names with
      | nil => simp
      | cons name names =>
          obtain ⟨tree, hmem, hrest⟩ := (at?_cons_eq_some_iff distinct).mp hat
          intro n hn
          rcases List.mem_cons.mp hn with rfl | hn
          · exact named _ hmem
          · exact ih _ hmem hrest n hn

end FileTree

/-! ## Counting and sorting -/

namespace Scanned

mutual

theorem length_paths : (s : Scanned) → s.paths.length = s.count
  | file _ _ _ => rfl
  | directory _ _ children => length_pathsAmong children

theorem length_pathsAmong : (list : List Scanned) → (pathsAmong list).length = countAll list
  | [] => rfl
  | s :: rest => by
      rw [pathsAmong, countAll, List.length_append, length_paths s, length_pathsAmong rest]

end

theorem pathsAmong_eq (list : List Scanned) : pathsAmong list = list.flatMap paths := by
  induction list with
  | nil => rfl
  | cons s rest ih => rw [pathsAmong, List.flatMap_cons, ih]

theorem sortedPaths_perm (s : Scanned) : s.sortedPaths.Perm s.paths := List.mergeSort_perm _ _

theorem sorted_sortedPaths (s : Scanned) (hnodup : s.paths.Nodup) :
    s.sortedPaths.Pairwise (· < ·) := by
  have hsorted : s.sortedPaths.Pairwise fun a b => decide (a ≤ b) = true :=
    List.pairwise_mergeSort (by simpa using fun a b c => le_trans)
      (by simpa using fun a b => le_total a b) s.paths
  have hdistinct : s.sortedPaths.Nodup := s.sortedPaths_perm.nodup_iff.mpr hnodup
  refine (hsorted.and hdistinct).imp fun h => ?_
  exact lt_of_le_of_ne (of_decide_eq_true h.1) h.2

end Scanned

/-! ## The paths of a scan -/

namespace ScanRules

open Scanned

variable (rules : ScanRules)

/-- Whether names lead from a tree of a name to a file that the rules keep with all that is on
the way. -/
structure Keeps (name : String) (tree : FileTree) (names : List String) : Prop where
  isFile : ∃ content, tree.at? names = some (.file content)
  included : rules.includes ((name :: names).getLast (by simp)) = true
  kept : ∀ n ∈ name :: names, rules.excludes n = false

/-- The paths that one entry of a directory adds. -/
def pathsOf (path : FilePath) (name : String) (tree : FileTree) : List String :=
  if rules.excludes name then []
  else
    match tree with
    | .file _ => if rules.includes name then [(path.child name).toString] else []
    | .directory _ => (rules.scan (path.child name) tree).paths

theorem pathsAmong_scanEntries (path : FilePath) (entries : List (String × FileTree)) :
    pathsAmong (rules.scanEntries path entries) =
      entries.flatMap fun entry => rules.pathsOf path entry.1 entry.2 := by
  induction entries with
  | nil => rfl
  | cons entry entries ih =>
      obtain ⟨name, tree⟩ := entry
      rw [List.flatMap_cons, ← ih]
      cases tree with
      | file content =>
          rw [scanEntries, pathsOf]
          cases rules.excludes name <;> cases rules.includes name <;> simp [pathsAmong, paths]
      | directory inner =>
          rw [scanEntries, pathsOf]
          cases rules.excludes name <;> simp [pathsAmong]

/-- The entries of a directory are listed by name, which does not matter for what is found. -/
theorem paths_scan_perm (path : FilePath) (entries : List (String × FileTree)) :
    (rules.scan path (.directory entries)).paths.Perm
      (entries.flatMap fun entry => rules.pathsOf path entry.1 entry.2) := by
  rw [scan, paths, pathsAmong_eq, ← pathsAmong_scanEntries, pathsAmong_eq]
  exact (List.mergeSort_perm _ _).flatMap_right _

variable {rules} {path : FilePath} {name : String} {names : List String} {tree : FileTree}
  {entries : List (String × FileTree)} {p : String}

theorem keeps_file_iff {content : ByteArray} : rules.Keeps name (.file content) names ↔
    names = [] ∧ rules.includes name = true ∧ rules.excludes name = false := by
  constructor
  · rintro ⟨⟨found, hfound⟩, hincluded, hkept⟩
    cases names with
    | nil => exact ⟨rfl, hincluded, hkept name (by simp)⟩
    | cons n names => cases hfound
  · rintro ⟨rfl, hincluded, hkept⟩
    exact ⟨⟨content, rfl⟩, hincluded, by simpa using hkept⟩

theorem keeps_directory_iff (distinct : (entries.map (·.1)).Nodup) :
    rules.Keeps name (.directory entries) names ↔ rules.excludes name = false ∧
      ∃ entry ∈ entries, ∃ rest, names = entry.1 :: rest ∧ rules.Keeps entry.1 entry.2 rest := by
  constructor
  · rintro ⟨⟨content, hfound⟩, hincluded, hkept⟩
    cases names with
    | nil => cases hfound
    | cons n rest =>
        obtain ⟨inner, hmem, hrest⟩ := (FileTree.at?_cons_eq_some_iff distinct).mp hfound
        exact ⟨hkept name (by simp), (n, inner), hmem, rest, rfl, ⟨content, hrest⟩,
          by simpa using hincluded, fun m hm => hkept m (List.mem_cons_of_mem _ hm)⟩
  · rintro ⟨hname, entry, hmem, rest, rfl, ⟨content, hrest⟩, hincluded, hkept⟩
    refine ⟨⟨content, ?_⟩, by simpa using hincluded, ?_⟩
    · exact (FileTree.at?_cons_eq_some_iff distinct).mpr ⟨entry.2, hmem, hrest⟩
    · intro m hm
      rcases List.mem_cons.mp hm with rfl | hm
      · exact hname
      · exact hkept m hm

theorem mem_pathsOf_iff (hproper : tree.IsProper) : p ∈ rules.pathsOf path name tree ↔
    ∃ names, rules.Keeps name tree names ∧ p = (path.below (name :: names)).toString := by
  induction hproper generalizing path name with
  | file content =>
      simp only [keeps_file_iff, pathsOf, FilePath.below, FilePath.child]
      cases rules.excludes name <;> cases rules.includes name <;> simp
  | @directory entries distinct named inner ih =>
      simp only [keeps_directory_iff distinct]
      by_cases hexcluded : rules.excludes name = true
      · simp [pathsOf, hexcluded]
      · have hmem : p ∈ rules.pathsOf path name (.directory entries) ↔
            ∃ entry ∈ entries, p ∈ rules.pathsOf (path.child name) entry.1 entry.2 := by
          rw [pathsOf, if_neg hexcluded, (rules.paths_scan_perm _ entries).mem_iff,
            List.mem_flatMap]
        rw [hmem]
        constructor
        · rintro ⟨entry, hentry, hp⟩
          obtain ⟨names, hkeeps, rfl⟩ := (ih entry hentry).mp hp
          exact ⟨entry.1 :: names, ⟨by simpa using hexcluded, entry, hentry, names, rfl, hkeeps⟩,
            by rw [FilePath.below_child]⟩
        · rintro ⟨names, ⟨-, entry, hentry, rest, rfl, hkeeps⟩, rfl⟩
          exact ⟨entry, hentry, (ih entry hentry).mpr ⟨rest, hkeeps, by rw [FilePath.below_child]⟩⟩

/-- The paths of entries of different names are different. -/
theorem disjoint_pathsOf {first second : String × FileTree} (hpath : path.IsNormal)
    (hnames : FilePath.IsSegment first.1 ∧ FilePath.IsSegment second.1)
    (hproper : first.2.IsProper ∧ second.2.IsProper) (hne : first.1 ≠ second.1) :
    (rules.pathsOf path first.1 first.2).Disjoint (rules.pathsOf path second.1 second.2) := by
  intro p hfirst hsecond
  obtain ⟨names, ⟨⟨_, hat⟩, -, -⟩, hp⟩ := (mem_pathsOf_iff hproper.1).mp hfirst
  obtain ⟨others, ⟨⟨_, hother⟩, -, -⟩, hq⟩ := (mem_pathsOf_iff hproper.2).mp hsecond
  have hsame : path.below (first.1 :: names) = path.below (second.1 :: others) := by
    apply FilePath.eq_of_toString_eq _ _ (hp.symm.trans hq)
    · exact hpath.below (List.forall_mem_cons.mpr ⟨hnames.1, hproper.1.isSegment_of_at? hat⟩)
    · exact hpath.below (List.forall_mem_cons.mpr ⟨hnames.2, hproper.2.isSegment_of_at? hother⟩)
  simp only [FilePath.below, FilePath.mk.injEq, List.append_cancel_left_eq, List.cons.injEq,
    true_and] at hsame
  exact hne hsame.1

theorem nodup_flatMap_pathsOf (hpath : path.IsNormal) (distinct : (entries.map (·.1)).Nodup)
    (named : ∀ entry ∈ entries, FilePath.IsSegment entry.1)
    (inner : ∀ entry ∈ entries, entry.2.IsProper)
    (hentries : ∀ entry ∈ entries, (rules.pathsOf path entry.1 entry.2).Nodup) :
    (entries.flatMap fun entry => rules.pathsOf path entry.1 entry.2).Nodup := by
  rw [List.nodup_flatMap]
  refine ⟨hentries, ?_⟩
  apply (List.pairwise_map.mp distinct).imp_of_mem
  intro first second hfirst hsecond hne
  exact disjoint_pathsOf hpath ⟨named first hfirst, named second hsecond⟩
    ⟨inner first hfirst, inner second hsecond⟩ hne

theorem nodup_pathsOf (hproper : tree.IsProper) (hpath : path.IsNormal)
    (hname : FilePath.IsSegment name) : (rules.pathsOf path name tree).Nodup := by
  induction hproper generalizing path name with
  | file content =>
      rw [pathsOf]
      cases rules.excludes name <;> cases rules.includes name <;> simp
  | @directory entries distinct named inner ih =>
      have hchild : (path.child name).IsNormal := hpath.child hname
      rw [pathsOf]
      split
      · exact List.nodup_nil
      · rw [(rules.paths_scan_perm _ entries).nodup_iff]
        exact nodup_flatMap_pathsOf hchild distinct named inner fun entry hentry =>
          ih entry hentry hchild (named entry hentry)

/-- The names on the way to a file below a directory, without the name of the directory. -/
theorem mem_paths_scan_iff (hproper : (FileTree.directory entries).IsProper) :
    p ∈ (rules.scan path (.directory entries)).paths ↔
      ∃ directories name content,
        (FileTree.directory entries).at? (directories ++ [name]) = some (.file content) ∧
        rules.includes name = true ∧ (∀ n ∈ directories ++ [name], rules.excludes n = false) ∧
        p = (path.below (directories ++ [name])).toString := by
  cases hproper with
  | directory distinct named inner =>
      rw [(rules.paths_scan_perm path entries).mem_iff, List.mem_flatMap]
      constructor
      · rintro ⟨entry, hentry, hp⟩
        obtain ⟨names, ⟨⟨content, hat⟩, hincluded, hkept⟩, hp⟩ :=
          (mem_pathsOf_iff (inner entry hentry)).mp hp
        have hnames : entry.1 :: names ≠ [] := by simp
        refine ⟨(entry.1 :: names).dropLast, (entry.1 :: names).getLast hnames, content, ?_,
          hincluded, ?_⟩
        all_goals rw [List.dropLast_append_getLast hnames]
        · exact (FileTree.at?_cons_eq_some_iff distinct).mpr ⟨entry.2, hentry, hat⟩
        · exact ⟨hkept, hp⟩
      · rintro ⟨directories, last, content, hat, hincluded, hkept, hp⟩
        cases hnames : directories ++ [last] with
        | nil => simp at hnames
        | cons first names =>
            rw [hnames] at hat hkept hp
            obtain ⟨tree, hentry, hrest⟩ := (FileTree.at?_cons_eq_some_iff distinct).mp hat
            have hlast : (first :: names).getLast (by simp) = last := by
              simp only [← hnames, List.getLast_append_singleton]
            exact ⟨(first, tree), hentry, (mem_pathsOf_iff (inner _ hentry)).mpr
              ⟨names, ⟨⟨content, hrest⟩, by rwa [hlast], hkept⟩, hp⟩⟩

theorem nodup_paths_scan (hproper : (FileTree.directory entries).IsProper)
    (hpath : path.IsNormal) : (rules.scan path (.directory entries)).paths.Nodup := by
  cases hproper with
  | directory distinct named inner =>
      rw [(rules.paths_scan_perm path entries).nodup_iff]
      exact nodup_flatMap_pathsOf hpath distinct named inner fun entry hentry =>
        nodup_pathsOf (inner entry hentry) hpath (named entry hentry)

/-- A scan of a directory finds every file that is included and not excluded, each of them once
and in the order of their paths, and counts them. -/
theorem scan_exact (fits : String → String → Bool) {includePatterns excludePatterns : List String}
    (hincludes : includePatterns ≠ []) (hexcludes : excludePatterns ≠ []) {disk : Disk}
    {root : String} {entries : List (String × FileTree)}
    (hroot : disk.lookup (.ofString root) = .ok (.directory entries))
    (hproper : (FileTree.directory entries).IsProper) :
    ∃ found,
      ScanRules.scanAt { ScanRules.ofPatterns includePatterns excludePatterns with fits } disk
        root = .ok found ∧
      found.sortedPaths.Pairwise (· < ·) ∧
      (∀ p, p ∈ found.sortedPaths ↔ ∃ directories name content,
        (FileTree.directory entries).at? (directories ++ [name]) = some (.file content) ∧
        (∃ pattern ∈ includePatterns, fits name pattern = true) ∧
        (∀ n ∈ directories ++ [name], ∀ pattern ∈ excludePatterns, fits n pattern = false) ∧
        p = ((FilePath.ofString root).below (directories ++ [name])).toString) ∧
      found.count = found.sortedPaths.length := by
  have hpatterns : ScanRules.ofPatterns includePatterns excludePatterns =
      ⟨includePatterns, excludePatterns, fitsPattern⟩ := by
    simp [ScanRules.ofPatterns, hincludes, hexcludes]
  rw [hpatterns]
  have hpath := FilePath.isNormal_ofString root
  refine ⟨_, by rw [scanAt, hroot], sorted_sortedPaths _ (nodup_paths_scan hproper hpath),
    fun p => ?_, ?_⟩
  · rw [(sortedPaths_perm _).mem_iff, mem_paths_scan_iff hproper]
    simp [includes, ScanRules.excludes, fitsAny]
  · rw [(sortedPaths_perm _).length_eq, length_paths]

/-! ## A directory with an excluded one inside -/

def emptyFile : FileTree := .file .empty

/-- Sources at two depths, a file of another kind, and a source where nothing is looked for. -/
def workTree : List (String × FileTree) :=
  [("src", .directory [("A.java", emptyFile), ("notes.txt", emptyFile)]),
    ("D.java", emptyFile), ("out", .directory [("C.java", emptyFile)])]

theorem isProper_workTree : (FileTree.directory workTree).IsProper := by
  have hfile : emptyFile.IsProper := .file _
  have hsource : ∀ name ∈ ["src", "out", "A.java", "notes.txt", "C.java", "D.java"],
      FilePath.IsSegment name := by
    intro name hname
    constructor <;> revert name <;> decide
  refine .directory (by decide) ?_ ?_
  · simp [workTree, hsource]
  · simp only [workTree, List.forall_mem_cons, hfile, true_and]
    refine ⟨.directory (by decide) (by simp [hsource]) (by simp [hfile]),
      .directory (by decide) (by simp [hsource]) (by simp [hfile]), by simp⟩

def workDisk : Disk := { root := .directory [("repo", .directory workTree)] }

theorem scan_exact_workTree : ∃ found,
    ScanRules.scanAt (.ofPatterns ["*.java"] ["out", "build"]) workDisk "repo" = .ok found ∧
    "repo/src/A.java" ∈ found.sortedPaths ∧ found.count = found.sortedPaths.length := by
  have hroot : workDisk.lookup (.ofString "repo") = .ok (.directory workTree) := by
    simp only [Disk.lookup, Disk.locate, String.contains_char_eq]
    rfl
  have hincludes : ["*.java"] ≠ [] := by decide
  have hexcludes : ["out", "build"] ≠ [] := by decide
  obtain ⟨found, hscan, -, hmem, hcount⟩ :=
    scan_exact fitsPattern hincludes hexcludes hroot isProper_workTree
  refine ⟨found, hscan, (hmem _).mpr ⟨["src"], "A.java", .empty, rfl, ?_⟩, hcount⟩
  decide +kernel

end ScanRules

end EntryPoints

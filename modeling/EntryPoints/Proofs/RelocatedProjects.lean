import EntryPoints.Proofs.NormalPaths
import EntryPoints.Scope

/-!
# Projects in other places

A scope with the root of a project takes that root off the path of a file before it looks for
test roots.  So what a file is depends on the way from the root to it, whatever the path of the
root is: a project below a directory of tests has no more test code than the same project
elsewhere.

What is looked for is said without the scope: a test root of one segment is the first directory
of a file, and a longer one is a run of its directories.
-/

namespace EntryPoints

namespace FilePath

variable {c : Char}

theorem notMem_segmentText {segments : List String} (hslash : c ≠ '/')
    (hsegments : ∀ segment ∈ segments, c ∉ segment.toList) : c ∉ segmentText segments := by
  induction segments with
  | nil => simp [segmentText]
  | cons first more ih =>
      have hfirst := hsegments first (by simp)
      have hmore := ih fun segment hsegment => hsegments segment (by simp [hsegment])
      cases more with
      | nil => simpa [segmentText] using hfirst
      | cons second more =>
          simp only [segmentText, List.map_cons, List.intercalate_cons_cons] at hmore ⊢
          simp [hfirst, hslash, hmore]

/-- A path is written with the characters of its parts, slashes and a dot. -/
theorem notMem_toString {p : FilePath} (hslash : c ≠ '/') (hdot : c ≠ '.')
    (hroot : c ∉ p.root.toList) (hsegments : ∀ segment ∈ p.segments, c ∉ segment.toList) :
    c ∉ p.toString.toList := by
  rw [toString]
  split
  · simpa using hdot
  · rw [String.toList_append, toList_joinWith, List.mem_append, not_or]
    exact ⟨hroot, notMem_segmentText hslash hsegments⟩

theorem notMem_segments {s : String} (hs : c ∉ s.toList) :
    ∀ segment ∈ (ofString s).segments, c ∉ segment.toList := by
  intro segment hsegment
  simp only [ofString, segmentsOf, List.mem_filter, List.mem_map] at hsegment
  obtain ⟨⟨piece, hpiece, rfl⟩, -⟩ := hsegment
  intro hc
  exact hs (Text.mem_of_mem_splitOn hpiece (by simpa using hc))

theorem notMem_root {s : String} (hslash : c ≠ '/') : c ∉ (ofString s).root.toList := by
  rcases rootOf_cases s.toList with hroot | hroot | hroot <;> simp [ofString, hroot, hslash]

theorem notMem_toString_below {root file : String} (hslash : c ≠ '/') (hdot : c ≠ '.')
    (hroot : c ∉ root.toList) (hfile : c ∉ file.toList) :
    c ∉ ((ofString root).below (ofString file).segments).toString.toList := by
  have hsegments : ∀ segment ∈ (ofString root).segments ++ (ofString file).segments,
      c ∉ segment.toList := by
    intro segment hsegment
    rcases List.mem_append.mp hsegment with hsegment | hsegment
    · exact notMem_segments hroot segment hsegment
    · exact notMem_segments hfile segment hsegment
  have hstart : c ∉ (ofString root).root.toList := notMem_root hslash
  exact notMem_toString hslash hdot hstart hsegments

theorem parts_below (p : FilePath) (names : List String) :
    (p.below names).parts = p.parts ++ names := by
  by_cases h : p.root = "" <;> simp [below, parts, h]

theorem parts_of_relative {p : FilePath} (h : p.isAbsolute = false) : p.parts = p.segments := by
  rw [parts, if_pos (by simpa [isAbsolute] using h)]

end FilePath

namespace Scope

open FilePath

variable {root file : String} {testRoots : List String} {includeTests : Bool}

theorem withSlashes_of_notMem {s : String} (h : '\\' ∉ s.toList) : withSlashes s = s := by
  have hkept : (s.toList.map fun c => if c = '\\' then '/' else c) = s.toList.map id := by
    apply List.map_congr_left
    intro c hc
    exact if_neg (by rintro rfl; exact h hc)
  rw [withSlashes, hkept, List.map_id, String.ofList_toList]

/-! ## Directories from the root -/

theorem directories_of_relative (hrelative : (ofString file).isAbsolute = false)
    (hfile : '\\' ∉ file.toList) :
    (ofRoots none testRoots includeTests).directories file =
      (ofString file).segments.dropLast := by
  rw [directories, relativeParts, withSlashes_of_notMem hfile]
  exact congrArg List.dropLast (parts_of_relative hrelative)

/-- What is left of a path below the root of the project is the way from there. -/
theorem directories_below (hne : root ≠ "") (hroot : '\\' ∉ root.toList)
    (hfile : '\\' ∉ file.toList) :
    (ofRoots (some root) testRoots includeTests).directories
        ((ofString root).below (ofString file).segments).toString =
      (ofString file).segments.dropLast := by
  have hplaced : ((ofString root).below (ofString file).segments).IsNormal :=
    (isNormal_ofString root).below (isNormal_ofString file).segments
  have htext := notMem_toString_below (by decide) (by decide) hroot hfile
  have hstripped : stripStart? (ofString root).parts
      ((ofString root).below (ofString file).segments).parts = some (ofString file).segments :=
    stripStart?_eq_some.mpr (parts_below _ _)
  simp only [directories, relativeParts, ofRoots, if_neg hne, withSlashes_of_notMem hroot,
    withSlashes_of_notMem htext, ofString_toString hplaced, hstripped, Option.getD_some]

/-! ## Test roots -/

theorem matchesRoot_iff {run directories : List String} (hrun : run ≠ []) :
    matchesRoot directories run = true ↔
      (∃ top, run = [top] ∧ directories.head? = some top) ∨
        (1 < run.length ∧ run <:+: directories) := by
  match run, hrun with
  | [top], _ => simp [matchesRoot]
  | first :: second :: more, _ =>
      have hinfix : first :: second :: more <:+: directories ↔
          ∃ before after, directories = before ++ (first :: second :: more) ++ after := by
        simp only [List.IsInfix, eq_comm]
      rw [matchesRoot, occurs_iff, ← hinfix]
      · simp
      · simp

/-- Where a project stands does not decide what its test code is: a file below the root is test
code when its way from there begins with the only segment of a test root, or when its directories
contain the segments of a longer one. -/
theorem isTestSource_relocated (includeTests : Bool)
    (htestRoots : ∀ testRoot ∈ testRoots, (ofString testRoot).parts ≠ []) (hne : root ≠ "")
    (hroot : '\\' ∉ root.toList) (hrelative : (ofString file).isAbsolute = false)
    (hfile : '\\' ∉ file.toList) :
    let placed := ((ofString root).below (ofString file).segments).toString
    let directories := (ofString file).segments.dropLast
    ((ofRoots (some root) testRoots includeTests).isTestSource placed =
        (ofRoots none testRoots includeTests).isTestSource file ∧
      (ofRoots (some root) testRoots includeTests).containsFile placed =
        (ofRoots none testRoots includeTests).containsFile file) ∧
      ((ofRoots none testRoots includeTests).isTestSource file = true ↔
        ∃ testRoot ∈ testRoots,
          (∃ top, (ofString testRoot).parts = [top] ∧ directories.head? = some top) ∨
            (1 < (ofString testRoot).parts.length ∧
              (ofString testRoot).parts <:+: directories)) := by
  intro placed directories
  have hsame : (ofRoots (some root) testRoots includeTests).isTestSource placed =
      (ofRoots none testRoots includeTests).isTestSource file := by
    rw [isTestSource, isTestSource, directories_below hne hroot hfile,
      directories_of_relative hrelative hfile]
    rfl
  refine ⟨⟨hsame, ?_⟩, ?_⟩
  · rw [containsFile, containsFile, hsame]
    rfl
  · rw [isTestSource, directories_of_relative hrelative hfile, ofRoots, List.any_map,
      List.any_eq_true]
    apply exists_congr
    intro testRoot
    exact and_congr_right fun hmem => matchesRoot_iff (htestRoots testRoot hmem)

/-- A project below the tests of another one: its own tests are found, and nothing else is. -/
theorem isTestSource_below_tests :
    (ofRoots (some "/home/src/test/app") ["src/test", "test"] false).isTestSource
        "/home/src/test/app/src/main/java/A.java" = false ∧
      (ofRoots (some "/home/src/test/app") ["src/test", "test"] false).isTestSource
        "/home/src/test/app/core/src/test/java/ATest.java" = true := by
  have hrelocated (file : String) := @isTestSource_relocated "/home/src/test/app" file
    ["src/test", "test"] false (by decide) (by decide) (by decide)
  exact ⟨(hrelocated "src/main/java/A.java" (by decide) (by decide)).1.1,
    (hrelocated "core/src/test/java/ATest.java" (by decide) (by decide)).1.1⟩

end Scope

end EntryPoints

import EntryPoints.File.Path
import EntryPoints.Code.Location

/-!
# Production code and test code

Whether a file is test code is read off the directories on its path, taken from
the root of the project.  A test root of one segment names a directory at the top
of the project; a longer one names a run of directories anywhere.  The name of
the file itself never counts.

A scope accepts production files, and all files when tests are included.
-/

namespace EntryPoints

structure Scope where
  root : Option String := none
  testRoots : List (List String)
  includeTests : Bool := false
deriving Repr

namespace Scope

def defaultTestRoots : List String :=
  ["src/test", "src/testFixtures", "src/integrationTest", "src/it", "src/androidTest", "test",
    "tests"]

/-- The scope of a project at `root` with the given test roots. -/
def ofRoots (root : Option String) (testRoots : List String) (includeTests : Bool) : Scope :=
  { root, testRoots := testRoots.map fun r => (FilePath.ofString r).parts, includeTests }

instance : Inhabited Scope := ⟨ofRoots none defaultTestRoots false⟩

/-- Backslashes separate segments too. -/
def withSlashes (s : String) : String :=
  String.ofList (s.toList.map fun c => if c = '\\' then '/' else c)

/-- The segments of a file's path from the root of the project, or all of them
when the file lies elsewhere. -/
def relativeParts (scope : Scope) (file : String) : List String :=
  let parts := (FilePath.ofString (withSlashes file)).parts
  match scope.root with
  | none => parts
  | some root =>
    if root = "" then parts
    else (FilePath.stripStart? (FilePath.ofString (withSlashes root)).parts parts).getD parts

def directories (scope : Scope) (file : String) : List String :=
  (scope.relativeParts file).dropLast

/-- Whether a run of segments occurs in a list of segments. -/
def occurs (run : List String) : List String → Bool
  | [] => run.isEmpty
  | d :: ds => run.isPrefixOf (d :: ds) || occurs run ds

def matchesRoot (directories : List String) : List String → Bool
  | [top] => directories.head? == some top
  | run => occurs run directories

def isTestSource (scope : Scope) (file : String) : Bool :=
  scope.testRoots.any (matchesRoot (scope.directories file))

def containsFile (scope : Scope) (file : String) : Bool :=
  scope.includeTests || !scope.isTestSource file

def contains (scope : Scope) (place : Location) : Bool := scope.containsFile place.file

theorem occurs_iff {run ds : List String} :
    occurs run ds = true ↔ ∃ before after, ds = before ++ run ++ after := by
  induction ds with
  | nil =>
    simp only [occurs, List.isEmpty_iff]
    constructor
    · rintro rfl; exact ⟨[], [], rfl⟩
    · rintro ⟨before, after, h⟩
      have := congrArg List.length h
      simp at this
      exact List.length_eq_zero_iff.1 (by omega)
  | cons d ds ih =>
    simp only [occurs, Bool.or_eq_true, List.isPrefixOf_iff_prefix, ih]
    constructor
    · rintro (⟨after, h⟩ | ⟨before, after, h⟩)
      · exact ⟨[], after, by simpa using h.symm⟩
      · exact ⟨d :: before, after, by simp [h]⟩
    · rintro ⟨before, after, h⟩
      cases before with
      | nil => exact .inl ⟨after, by simpa using h.symm⟩
      | cons b before =>
        simp only [List.cons_append, List.cons.injEq] at h
        exact .inr ⟨before, after, h.2⟩

end Scope

end EntryPoints

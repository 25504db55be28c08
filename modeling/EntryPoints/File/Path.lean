import EntryPoints.Text.Pieces

/-!
# File paths as text

A path is read without looking at any disk.  Its segments are what stands
between slashes; empty segments and `.` vanish, while `..` stays, because what it
leads to depends on the disk.  A path that starts with a slash has a root, and a
root of exactly two slashes is different from the root of one.

`normalized` is the other reading, for paths whose directories are known to be no
links: there `..` takes back the segment before it.
-/

namespace EntryPoints

structure FilePath where
  root : String
  segments : List String
deriving DecidableEq, Repr, Inhabited

namespace FilePath

/-- The root that a run of leading slashes stands for. -/
def rootOf (s : List Char) : String :=
  match (s.takeWhile (· = '/')).length with
  | 0 => ""
  | 2 => "//"
  | _ => "/"

def segmentsOf (s : List Char) : List String :=
  ((Text.splitOn '/' s).map String.ofList).filter fun piece => piece ≠ "" && piece ≠ "."

def ofString (s : String) : FilePath := ⟨rootOf s.toList, segmentsOf s.toList⟩

/-- The root, if there is one, and then the segments. -/
def parts (p : FilePath) : List String :=
  if p.root = "" then p.segments else p.root :: p.segments

/-- The text of a path; the empty path is written as a dot. -/
def toString (p : FilePath) : String :=
  if p.root = "" ∧ p.segments = [] then "." else p.root ++ Text.joinWith "/" p.segments

instance : ToString FilePath := ⟨toString⟩

/-- The last segment; empty when there is none. -/
def name (p : FilePath) : String := p.segments.getLast?.getD ""

def parent (p : FilePath) : FilePath := { p with segments := p.segments.dropLast }

def child (p : FilePath) (name : String) : FilePath := { p with segments := p.segments ++ [name] }

def isAbsolute (p : FilePath) : Bool := p.root ≠ ""

/-- What is left of a list after a given beginning. -/
def stripStart? : List String → List String → Option (List String)
  | [], rest => some rest
  | _ :: _, [] => none
  | a :: start, b :: rest => if a = b then stripStart? start rest else none

theorem stripStart?_eq_some {start xs rest : List String} :
    stripStart? start xs = some rest ↔ xs = start ++ rest := by
  induction start generalizing xs with
  | nil => simp [stripStart?, eq_comm]
  | cons a start ih =>
    cases xs with
    | nil => simp [stripStart?]
    | cons b xs =>
      by_cases h : a = b
      · subst h
        simp [stripStart?, ih]
      · simp [stripStart?, h, Ne.symm h]

/-- Takes back a segment for every `..`; at an absolute root there is nothing to
take back, and a relative path keeps the ones that lead out of it. -/
def collapse (absolute : Bool) : List String → List String → List String
  | done, [] => done.reverse
  | done, seg :: rest =>
    if seg = ".." then
      match done with
      | [] => if absolute then collapse absolute [] rest else collapse absolute [".."] rest
      | top :: below =>
        if top = ".." then collapse absolute (".." :: done) rest else collapse absolute below rest
    else collapse absolute (seg :: done) rest

def normalized (p : FilePath) : FilePath :=
  { p with segments := collapse p.isAbsolute [] p.segments }

/-- The way from one relative path to another, both taken from the same place. -/
def relativeTo (target start : FilePath) : FilePath :=
  go target.normalized.segments start.normalized.segments
where
  go : List String → List String → FilePath
    | a :: target, b :: start =>
      if a = b then go target start else ⟨"", ((b :: start).map fun _ => "..") ++ a :: target⟩
    | target, start => ⟨"", (start.map fun _ => "..") ++ target⟩

end FilePath

end EntryPoints

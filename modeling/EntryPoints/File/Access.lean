import EntryPoints.Failure
import EntryPoints.File.Disk
import EntryPoints.Text.Encoding.Gb18030

/-!
# Reading files inside of a directory

A file is read only if it lies in a given directory, after `..` has been followed.  Its
text is decoded with the first encoding of a list that can.
-/

namespace EntryPoints

namespace FilePath

/-- An absolute path with a single root and no way back. -/
def resolved (p : FilePath) : FilePath := { p.normalized with root := "/" }

/-- Makes sure that an absolute path leads to a directory or to what it holds. -/
def requireWithin (base target : FilePath) : Except Failure Unit :=
  match stripStart? base.resolved.segments target.resolved.segments with
  | some _ => .ok ()
  | none => .error (.outsideBase target.resolved.toString base.resolved.toString)

end FilePath

/-- The encodings in which sources are read, old ones last. -/
def sourceEncodings : List Text.Encoding :=
  [Text.Encoding.utf8, Text.Encoding.gb18030, Text.Encoding.latin1]

namespace Disk

variable (disk : Disk)

/-- Whether a path leads to a directory or to what it holds. -/
def isWithin (base path : FilePath) : Bool :=
  match disk.locate base, disk.locate path with
  | .ok around, .ok way => around.names.isPrefixOf way.names
  | _, _ => false

/-- The text of a source file in a directory; nothing when it cannot be read. -/
def sourceText? (base path : String) : Option String :=
  if disk.isWithin (FilePath.ofString base) (FilePath.ofString path) then
    match disk.read path with
    | .ok content => (Text.Encoding.decodeFirst sourceEncodings content.toList).toOption
    | .error _ => none
  else none

end Disk

end EntryPoints

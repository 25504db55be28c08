import EntryPoints.Text.Quoted

/-!
# Why a path could not be used

The text of a fault names the path as it was given.
-/

namespace EntryPoints

inductive PathFault where
  | missing
  | notDirectory
  | isDirectory
  | taken
  /-- The path holds a character that no name can hold. -/
  | embeddedNull
deriving DecidableEq, Repr, Inhabited

def PathFault.message (path : String) : PathFault → String
  | missing => "[Errno 2] No such file or directory: " ++ Text.quoted path
  | notDirectory => "[Errno 20] Not a directory: " ++ Text.quoted path
  | isDirectory => "[Errno 21] Is a directory: " ++ Text.quoted path
  | taken => "[Errno 17] File exists: " ++ Text.quoted path
  | embeddedNull => "embedded null byte"

end EntryPoints

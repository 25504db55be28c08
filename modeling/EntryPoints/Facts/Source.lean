import EntryPoints.Code.Location
import EntryPoints.Java.Parser
import EntryPoints.Text.Blank
import EntryPoints.Text.Pieces

/-!
# The text behind a tree

A tree knows where its nodes stand; what they say is read from the text of the file.
The text of a type is tidied: runs of blanks become one, none is left inside of angle
brackets next to them, and annotations in front of the type are dropped.
-/

namespace EntryPoints

structure SourceFile where
  path : String
  text : String
deriving Repr, Inhabited

namespace SourceFile

def dropAfterOpening : List Char → List Char
  | '<' :: ' ' :: rest => '<' :: dropAfterOpening rest
  | c :: rest => c :: dropAfterOpening rest
  | [] => []

def dropBeforeClosing : List Char → List Char
  | ' ' :: '>' :: rest => '>' :: dropBeforeClosing rest
  | c :: rest => c :: dropBeforeClosing rest
  | [] => []

def tidy (text : String) : String :=
  let words := Text.words Text.isBlank text.toList
  String.ofList (dropBeforeClosing (dropAfterOpening ([' '].intercalate words)))

variable (file : SourceFile)

def textOf (node : Java.Node) : String := Java.slice file.text node.span

/-- A type without the annotations in front of it. -/
def unannotated (node : Java.Node) : Java.Node :=
  if node.kind = .annotatedType then
    (node.parts.find? fun c => c.kind ≠ .annotationUse).getD node
  else node

def typeText (node : Java.Node) : String := tidy (file.textOf (unannotated node))

/-- The text of the type of a declaration or expression, if it has one. -/
def typeOf? (node : Java.Node) : Option String := (node.child? .type).map file.typeText

def locate (span : Java.Span) : Location := ⟨file.path, span.line, span.start, span.stop⟩

end SourceFile

end EntryPoints

import EntryPoints.Index.Names
import EntryPoints.Walk

/-!
# What types inherit from

The direct supertypes of a declared type are its superclass and its interfaces, those of
a type parameter are its bounds, and a type of the library has none that are known.  A
type is told from others by its id, which is its binary name if it has one.

`ancestors` lists a type and everything above it, nearest first and each id once, also
when types inherit from each other in a circle.  The walk needs one expansion for every
indexed type; type parameters get lighter when they are replaced by their bounds.
-/

namespace EntryPoints

/-- The text by which types are told apart. -/
def TypeSymbol.id (t : TypeSymbol) : String :=
  (firstNonempty [t.binaryName, t.qualifiedName.getD ""]).getD t.name

namespace TypeSymbol

mutual

/-- More than the weight of the bounds of a type parameter, each counted once more. -/
def weight : TypeSymbol → Nat
  | ⟨_, _, _, kind, _, _, bounds, _⟩ => if kind = .typeParameter then weightAll bounds else 0

def weightAll : List TypeSymbol → Nat
  | [] => 0
  | t :: ts => weight t + 1 + weightAll ts

end

theorem load_eq_weightAll (ts : List TypeSymbol) : Walk.load weight ts = weightAll ts := by
  induction ts with
  | nil => rfl
  | cons t ts ih => rw [Walk.load_cons, ih, weightAll]

end TypeSymbol

namespace CodeIndex

variable (index : CodeIndex)

/-- Where the supertypes of a declaration are written: anonymous classes see what the
place of their creation sees. -/
def headView (entry : TypeEntry) : Viewpoint where
  file := entry.file
  owner := if entry.decl.isAnonymous then entry.decl.outer else some entry.decl.binaryName

/-- The supertypes as they are written, the superclass first. -/
def supertypeTexts (decl : TypeDecl) : List String :=
  (decl.superclass.filter (· ≠ "")).toList ++ decl.interfaces

def declaredSupertypes (entry : TypeEntry) : List TypeSymbol :=
  (supertypeTexts entry.decl).filterMap fun text =>
    (index.resolveType text (headView entry)).filter (·.id ≠ entry.decl.binaryName)

def directSupertypes (t : TypeSymbol) : List TypeSymbol :=
  if t.isTypeParameter then t.bounds
  else if t.isExternal then []
  else
    match index.type? t.binaryName with
    | some entry => index.declaredSupertypes entry
    | none => []

/-- A type and its ancestors, nearest first. -/
def ancestors (t : TypeSymbol) : List TypeSymbol :=
  Walk.visit TypeSymbol.id index.directSupertypes TypeSymbol.weight
    (index.types.size + t.weight + 1) [t] []

def isSubtypeOrSelf (sub sup : TypeSymbol) : Bool :=
  (index.ancestors sub).any (·.id == sup.id)

end CodeIndex

end EntryPoints

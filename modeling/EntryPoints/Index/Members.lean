import EntryPoints.Index.Overloads

/-!
# Members of types

The methods of a name that an invocation on a type may call are declared in the type or
in an ancestor.  A declaration hides those above it that it overrides.

The roots of a method are the methods at the top of what it overrides: they are reached
by going from methods to the ones they override directly, and override nothing
themselves.
-/

namespace EntryPoints.CodeIndex

variable (index : CodeIndex)

def declaredMethods (t : TypeSymbol) : List Method :=
  if t.isExternal then (Library.methodOf t).toList else index.methodsDeclaredBy t.binaryName

/-- Whether a candidate from another type overrides a method of the type `t`. -/
def isHidden (t : TypeSymbol) (m : Method) (candidates : List Method) : Bool :=
  candidates.any fun nearer => nearer.owner.id ≠ t.id && index.overrides nearer m

/-- Adds the methods of one type to the candidates from the types below it. -/
def addDeclared (name : String) (count : Option Nat) (candidates : List Method)
    (t : TypeSymbol) : List Method :=
  ((index.declaredMethods t).filter fun m =>
      m.name == name && !m.isConstructor && m.acceptsCount count).foldl
    (fun candidates m =>
      if index.isHidden t m candidates then candidates else candidates ++ [m]) candidates

/-- The methods that an invocation with a name and a number of arguments may call. -/
def members (t : TypeSymbol) (name : String) (count : Option Nat) : List Method :=
  (index.ancestors t).foldl (index.addDeclared name count) []

def constructors (t : TypeSymbol) (count : Option Nat) : List Method :=
  (index.methodsDeclaredBy t.binaryName).filter fun m =>
    m.isConstructor && m.acceptsCount count

/-- The methods that a method overrides directly. -/
def overriddenBy (m : Method) : List Method :=
  let found := (index.directSupertypes m.owner).flatMap fun t =>
    (index.members t m.name (some m.arity)).filter fun above =>
      !above.isStatic && index.overrides m above
  found.foldl (fun result above => if result.contains above then result else result ++ [above]) []

/-- The topmost methods that a method overrides. -/
def roots (m : Method) : List Method :=
  if m.isConstructor || m.isStatic then []
  else
    (Walk.visit (fun above : Method => above) index.overriddenBy (fun _ => 0)
      (index.methods.size + 1) (index.overriddenBy m) [m]).filter fun above =>
        (index.overriddenBy above).isEmpty

end EntryPoints.CodeIndex

import EntryPoints.Index.Inheritance

/-!
# Telling overloads apart

A method overrides another one when their parameter types agree after erasure, where a
type variable of the overridden method agrees with everything.

Arguments fit parameters more or less: exactly, by a conversion, or in a way that cannot
be told.  An overload with an argument that fits in no way is out of the question, and
of the others those with the best sum remain.  When every overload is out of the
question, what was read off the arguments says nothing, and all of them remain.
-/

namespace EntryPoints

/-- How well an argument fits a parameter. -/
inductive Fit where
  | exact
  | convertible
  | unknown
deriving DecidableEq, Repr, Inhabited

def Fit.score : Fit → Nat
  | .exact => 2
  | .convertible => 1
  | .unknown => 0

namespace Method

/-- Whether a method can be called with a number of arguments; without one it can. -/
def acceptsCount (m : Method) : Option Nat → Bool
  | none => true
  | some n => if m.isVarargs then decide (m.arity ≤ n + 1) else n == m.arity

/-- The parameter that takes the argument at a position, where `count` arguments are
given.  The last parameter of a variable arity takes elements, or an array as it is. -/
def parameterAt (m : Method) (count position : Nat) (argument : String) : Option String :=
  let last := m.arity - 1
  (m.parameters[min position last]?).map fun parameter =>
    if m.isVarargs ∧ last ≤ position then
      let element := String.ofList (TypeText.withoutDots parameter.toList)
      if TypeText.isArray argument ∧ count = m.arity then element ++ "[]" else element
    else parameter

end Method

namespace CodeIndex

variable (index : CodeIndex)

/-- The name by which a parameter type could be a type variable. -/
def variableName (text : String) : String :=
  String.ofList (Text.trimRight (fun c => c == '.' || c == '[' || c == ']')
    (TypeText.base text).toList)

def declares (name : String) (parameters : List (String × List String)) : Bool :=
  parameters.any (·.1 == name)

/-- Whether a parameter type of a method is a type variable. -/
def isTypeVariable (text : String) (m : Method) : Bool :=
  let name := variableName text
  match index.entryOf m with
  | none => Library.isTypeVariable name
  | some entry =>
    declares name entry.decl.typeParameters ||
      (index.ownersFrom (some entry.decl.owner)).any fun owner =>
        declares name owner.decl.typeParameters

/-- Whether a method has the signature of an inherited one after erasure. -/
def overrides (m inherited : Method) : Bool :=
  m.arity == inherited.arity && m.isVarargs == inherited.isVarargs &&
    (m.parameters.zip inherited.parameters).all fun (own, other) =>
      TypeText.erase own == TypeText.erase other || index.isTypeVariable other inherited

/-- The type of a parameter, seen from where its method is declared. -/
def parameterType (m : Method) (parameter : String) : Option TypeSymbol :=
  (index.entryOf m).bind fun entry =>
    index.resolveType parameter ⟨entry.file, some entry.decl.owner, some entry.decl⟩

/-- How an argument fits a parameter where neither is primitive or an array. -/
def referenceFit (argument parameter : String) (m : Method) (view : Viewpoint) : Option Fit :=
  match index.resolveType argument view, index.parameterType m parameter with
  | some given, some wanted =>
    if given.isExternal ∨ wanted.isExternal then some .unknown
    else if index.isSubtypeOrSelf given wanted then some .convertible
    else none
  | _, _ => some .unknown

def primitiveFit (argument parameter : String) : Option Fit :=
  let fits :=
    if Library.primitives.contains argument then
      if Library.primitives.contains parameter then
        (Library.widerThan argument).contains parameter
      else
        Library.boxOf argument == some parameter || Library.finalAncestors.contains parameter
    else Library.boxOf parameter == some argument
  if fits then some .convertible else none

/-- How an argument fits a parameter; nothing when it does not. -/
def argumentFit (argument parameter : String) (m : Method) (view : Viewpoint) : Option Fit :=
  let given := TypeText.erase argument
  let wanted := TypeText.erase parameter
  if index.isTypeVariable parameter m then some .unknown
  else if given = wanted then some .exact
  else if argument = "null" then
    if Library.primitives.contains wanted then none else some .convertible
  else if Library.primitives.contains given ∨ Library.primitives.contains wanted then
    primitiveFit given wanted
  else if TypeText.isArray given ∨ TypeText.isArray wanted then
    if TypeText.isArray given ∧ TypeText.isArray wanted ∧ argument.length ≠ 0 then
      argumentFit (TypeText.dropRight 2 argument) (TypeText.dropRight 2 parameter) m view
    else if wanted = "Object" then some .convertible
    else none
  else if wanted = "Object" then some .convertible
  else if Library.finalTypes.contains given then
    if Library.finalAncestors.contains wanted then some .convertible else none
  else index.referenceFit argument parameter m view
termination_by argument.length
decreasing_by
  have nonempty : argument.length ≠ 0 := by simp_all
  have length : argument.toList.length = argument.length := String.length_toList
  simp only [TypeText.dropRight, String.length_ofList, List.length_take]
  omega

/-- The sum of the fits of the arguments; nothing when one does not fit. -/
def argumentScore (m : Method) (arguments : List (Option String)) (view : Viewpoint) :
    Option Nat :=
  (arguments.zipIdx.filterMap fun (argument, position) =>
    argument.bind fun argument =>
      (m.parameterAt arguments.length position argument).map fun parameter =>
        index.argumentFit argument parameter m view).foldr
    (fun fit total => do return (← fit).score + (← total)) (some 0)

/-- The candidates that the arguments leave. -/
def selectOverloads (candidates : List Method) (arguments : List (Option String))
    (view : Viewpoint) : List Method :=
  if candidates.length < 2 ∨ arguments = [] then candidates
  else
    let scored := candidates.filterMap fun m =>
      (index.argumentScore m arguments view).map (·, m)
    match (scored.map (·.1)).max? with
    | none => candidates
    | some best => (scored.filter (·.1 == best)).map (·.2)

end CodeIndex

end EntryPoints

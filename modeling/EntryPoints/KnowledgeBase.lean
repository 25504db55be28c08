import EntryPoints.Code.Symbol
import EntryPoints.Failure
import EntryPoints.Scope

/-!
# Knowledge bases

A search learns about the code only through a knowledge base: where a method is
called, what it overrides, which method encloses a place, and how types are
related.  Each of these queries is a lookup, which may move the state of the
knowledge base and may fail.  A query that yields many results may fail after some
of them, so it answers with what it found and the failure that cut it short.

Two relations between types are derived from the subtype query.  A receiver is
*related* to the type it is expected to refer to when one of the two is the other
or inherits from it; a type parameter is related through its bounds.  A receiver is
*compatible* with an implementation when it could hold an instance of it: nothing
is known of an interface, and a class has to be the implementation or one of its
ancestors.
-/

namespace EntryPoints

inductive CallKind where
  | call
  | methodReference
  | creation
  | documentation
deriving DecidableEq, Repr, Inhabited

def CallKind.label : CallKind → String
  | .call => "call"
  | .methodReference => "method_ref"
  | .creation => "new"
  | .documentation => "doc"

/-- A place where a method is invoked or mentioned. -/
structure CallSite where
  location : Location
  receiver : Option TypeSymbol := none
  kind : CallKind := .call
deriving Repr, Inhabited

inductive FunctionKind where
  | lambda
  | methodReference
deriving DecidableEq, Repr, Inhabited

def FunctionKind.label : FunctionKind → String
  | .lambda => "lambda"
  | .methodReference => "method_ref"

/-- A lambda or method reference with the interface that it implements. -/
structure FunctionalExpression where
  kind : FunctionKind
  location : Location
  target : Option TypeSymbol := none
deriving Repr, Inhabited

/-- What a query yielded, and the failure that ended it early, if one did. -/
structure Found (α : Type) where
  items : List α
  failure : Option Failure := none
deriving Repr, Inhabited

def Found.map {α β : Type} (f : α → β) (found : Found α) : Found β :=
  ⟨found.items.map f, found.failure⟩

/-- A question that may fail and may move the state of whoever answers it. -/
abbrev Lookup (σ α : Type) := ExceptT Failure (StateM σ) α

structure KnowledgeBase (σ : Type) where
  callSites : Method → Scope → StateM σ (Found CallSite)
  overriddenRoots : Method → Lookup σ (List Method)
  functionalImplementations : TypeSymbol → Scope → StateM σ (Found FunctionalExpression)
  enclosingMethod : Location → Lookup σ (Option Method)
  isSubtypeOrSelf : TypeSymbol → TypeSymbol → Lookup σ Bool
  isInDocComment : Location → Lookup σ Bool
  productionScope : Lookup σ Scope
  methodsNamed : String → String → Lookup σ (List Method)
  cancellationRequested : StateM σ Bool

section Relations

variable {σ : Type} (isSubtype : TypeSymbol → TypeSymbol → Lookup σ Bool)

/-- Whether one of two types is the other or inherits from it. -/
def comparable (a b : TypeSymbol) : Lookup σ Bool := do
  if ← isSubtype a b then return true
  isSubtype b a

def anyComparable (a : TypeSymbol) : List TypeSymbol → Lookup σ Bool
  | [] => return false
  | b :: rest => do
    if ← comparable isSubtype a b then return true
    anyComparable a rest

/-- Whether a receiver type could refer to the expected declaring type. -/
def related (expected receiver : TypeSymbol) : Lookup σ Bool := do
  if ← comparable isSubtype expected receiver then return true
  if receiver.isTypeParameter then anyComparable isSubtype expected receiver.bounds
  else return false

mutual

/-- Whether a receiver type could hold an instance of an implementation. -/
def compatible (implementation : TypeSymbol) : TypeSymbol → Lookup σ Bool
  | ⟨qualifiedName, name, binaryName, kind, isAnonymous, isExternal, bounds, location⟩ =>
    if kind = .interfaceType ∨ kind = .annotationType then return true
    else if kind = .typeParameter then
      match bounds with
      | [] => return true
      | bound :: rest => do
        if ← compatible implementation bound then return true
        anyCompatible implementation rest
    else
      isSubtype implementation
        ⟨qualifiedName, name, binaryName, kind, isAnonymous, isExternal, bounds, location⟩

def anyCompatible (implementation : TypeSymbol) : List TypeSymbol → Lookup σ Bool
  | [] => return false
  | bound :: rest => do
    if ← compatible implementation bound then return true
    anyCompatible implementation rest

end

end Relations

namespace KnowledgeBase

variable {σ : Type} (base : KnowledgeBase σ)

def isRelated (a b : TypeSymbol) : Lookup σ Bool := related base.isSubtypeOrSelf a b

def isCompatible (receiver implementation : TypeSymbol) : Lookup σ Bool :=
  compatible base.isSubtypeOrSelf implementation receiver

end KnowledgeBase

end EntryPoints

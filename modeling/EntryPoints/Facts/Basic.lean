import EntryPoints.KnowledgeBase

/-!
# Facts about one file

What a Java file says about itself, before any of its names are resolved: the types and
methods it declares, what it invokes, and where it writes lambdas and method references.
A type is mentioned by its text.  Owners are mentioned by binary name and methods by an
id that is unique within the file.

An invocation knows how its receiver was written, and the receiver may be the result of
another invocation, so the two are defined together.
-/

namespace EntryPoints

structure TypeDecl where
  binaryName : String
  name : String
  kind : TypeKind := .classType
  qualifiedName : Option String := none
  isAnonymous : Bool := false
  /-- The binary name of the type around it. -/
  outer : Option String := none
  superclass : Option String := none
  interfaces : List String := []
  typeParameters : List (String × List String) := []
  fields : List (String × String) := []
  location : Option Location := none
deriving DecidableEq, Repr, Inhabited

structure MethodDecl where
  id : String
  owner : String
  name : String
  parameters : List String := []
  returnType : Option String := none
  isConstructor : Bool := false
  isAbstract : Bool := false
  isStatic : Bool := false
  typeParameters : List (String × List String) := []
  location : Option Location := none
deriving DecidableEq, Repr, Inhabited

mutual

/-- How the receiver of an invocation was written. -/
inductive Receiver where
  /-- A type: that of a variable, or one that is named itself. -/
  | typed (text : String)
  /-- A name that is declared nowhere around the invocation. -/
  | named (name : String)
  | this
  | super
  /-- What another invocation returns. -/
  | result (call : Invocation)
  /-- A new object of a type. -/
  | created (text : String)
  | unknown

structure Invocation where
  kind : CallKind
  name : String
  /-- Absent when any number of arguments may be meant. -/
  argumentCount : Option Nat
  /-- Absent when the invocation is not qualified. -/
  receiver : Option Receiver
  owner : Option String
  method : Option String
  location : Location
  /-- The types of the arguments as far as they can be read off the expressions. -/
  argumentTypes : Option (List (Option String))

end

deriving instance Repr for Receiver, Invocation
deriving instance Inhabited for Receiver, Invocation

namespace Receiver

mutual

def same : Receiver → Receiver → Bool
  | .typed text, .typed text' => text == text'
  | .named name, .named name' => name == name'
  | .this, .this => true
  | .super, .super => true
  | .result call, .result call' => sameCall call call'
  | .created text, .created text' => text == text'
  | .unknown, .unknown => true
  | _, _ => false

def sameCall : Invocation → Invocation → Bool
  | ⟨kind, name, count, receiver, owner, method, location, types⟩,
      ⟨kind', name', count', receiver', owner', method', location', types'⟩ =>
    kind == kind' && name == name' && count == count' && same? receiver receiver' &&
      owner == owner' && method == method' && location == location' && types == types'

def same? : Option Receiver → Option Receiver → Bool
  | none, none => true
  | some receiver, some receiver' => same receiver receiver'
  | _, _ => false

end

mutual

theorem same_iff : ∀ a b : Receiver, a.same b = true ↔ a = b
  | .typed _, b => by cases b <;> simp [same]
  | .named _, b => by cases b <;> simp [same]
  | .this, b => by cases b <;> simp [same]
  | .super, b => by cases b <;> simp [same]
  | .result call, b => by
    cases b with
    | result call' => simp [same, sameCall_iff call call']
    | _ => simp [same]
  | .created _, b => by cases b <;> simp [same]
  | .unknown, b => by cases b <;> simp [same]

theorem sameCall_iff : ∀ a b : Invocation, sameCall a b = true ↔ a = b
  | ⟨_, _, _, receiver, _, _, _, _⟩, ⟨_, _, _, receiver', _, _, _, _⟩ => by
    simp [sameCall, same?_iff receiver receiver', and_assoc]

theorem same?_iff : ∀ a b : Option Receiver, same? a b = true ↔ a = b
  | none, none => by simp [same?]
  | none, some _ => by simp [same?]
  | some _, none => by simp [same?]
  | some a, some b => by simp [same?, same_iff a b]

end

instance : DecidableEq Receiver := fun a b => decidable_of_iff _ (same_iff a b)

instance : DecidableEq Invocation := fun a b => decidable_of_iff _ (sameCall_iff a b)

end Receiver

/-- Where the interface that a lambda implements can be read. -/
inductive TargetHint where
  | typed (text : String)
  /-- The lambda is an argument of an invocation. -/
  | argument (call : Invocation) (position : Nat)
deriving DecidableEq, Repr, Inhabited

/-- A lambda or method reference as it is written. -/
structure FunctionalUse where
  kind : FunctionKind
  target : Option TargetHint
  owner : Option String
  method : Option String
  location : Location
deriving DecidableEq, Repr, Inhabited

structure FileFacts where
  file : String
  relativePath : String
  package : String := ""
  imports : List String := []
  wildcardImports : List String := []
  staticImports : List String := []
  types : List TypeDecl := []
  methods : List MethodDecl := []
  invocations : List Invocation := []
  functionalUses : List FunctionalUse := []
  docComments : List Location := []
deriving DecidableEq, Repr, Inhabited

end EntryPoints

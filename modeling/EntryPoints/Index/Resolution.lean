import EntryPoints.Index.Members
import EntryPoints.Text.Capital

/-!
# What invocations call

An invocation resolves to the type of its receiver and the methods that it may call.
When the type of the receiver is known and declares no such method, the invocation goes
to code outside of the index; when nothing is known about the receiver, the invocation
may call every method of its name.
-/

namespace EntryPoints

structure ResolvedCall where
  receiver : Option TypeSymbol := none
  /-- Whether the receiver is known, be it a type of the index or not. -/
  isKnown : Bool
  /-- Several when the arguments do not decide between overloads. -/
  targets : List Method := []
deriving Inhabited

namespace CodeIndex

variable (index : CodeIndex)

/-- The overloads that are left when the types of the arguments are known. -/
def narrowed (candidates : List Method) (call : Invocation) (view : Viewpoint) : List Method :=
  index.selectOverloads candidates (call.argumentTypes.getD []) view

def membersFor (t : TypeSymbol) (call : Invocation) (view : Viewpoint) : List Method :=
  index.narrowed (index.members t call.name call.argumentCount) call view

def constructorsFor (t : TypeSymbol) (call : Invocation) (view : Viewpoint) : List Method :=
  index.narrowed (index.constructors t call.argumentCount) call view

/-! ## Fields -/

/-- The types among which a field is looked for: a declared type and its ancestors. -/
def fieldOwners (owner : TypeEntry) : List TypeEntry :=
  let above (t : TypeSymbol) : List TypeSymbol :=
    if index.types.contains t.binaryName then index.directSupertypes t else []
  (Walk.visit TypeSymbol.binaryName above (fun _ => 0) (index.types.size + 1)
    [owner.symbol] []).filterMap fun t => index.type? t.binaryName

/-- The type of the nearest field of a name, as it is written where it is declared. -/
def fieldText (name : String) (owner : TypeEntry) : Option (TypeEntry × String) :=
  (index.fieldOwners owner).findSome? fun entry =>
    (((entry.decl.fields.reverse.find? (·.1 == name)).map (·.2)).filter (· ≠ "")).map (entry, ·)

/-- The type of a field that is seen from a place, in the types around or above. -/
def fieldType (name : String) (view : Viewpoint) : Option TypeSymbol :=
  ((index.ownersFrom view.owner).findSome? (index.fieldText name)).bind fun (entry, text) =>
    index.resolveType text ⟨entry.file, some entry.decl.binaryName, none⟩

/-! ## Receivers -/

/-- The type of a receiver, and whether the receiver is known. -/
structure Typed where
  type : Option TypeSymbol := none
  isKnown : Bool
deriving Inhabited

def ownType (view : Viewpoint) : Option TypeEntry := (view.owner.filter (· ≠ "")).bind index.type?

def superOf (entry : TypeEntry) : TypeSymbol :=
  match entry.decl.superclass.filter (· ≠ ""), index.directSupertypes entry.symbol with
  | some _, t :: _ => t
  | _, _ => Library.externalType "java.lang.Object"

def nameType (name : String) (view : Viewpoint) : Typed :=
  match index.fieldType name view <|> index.resolveSimple name view with
  | some t => ⟨some t, true⟩
  | none =>
    if (name.toList.head?.map Text.isCapital).getD false then
      ⟨some (Library.externalType name), true⟩
    else ⟨none, false⟩

/-- The type that the targets of a call return, if they agree. -/
def returnType (targets : List Method) : Typed :=
  match targets with
  | [] => ⟨none, false⟩
  | target :: others =>
    match target.returnType.filter (· ≠ ""), index.entryOf target with
    | some text, some entry =>
      if others.any fun m => TypeText.erase (m.returnType.getD "") ≠ TypeText.erase text then
        ⟨none, false⟩
      else ⟨index.resolveType text ⟨entry.file, some entry.decl.owner, some entry.decl⟩, true⟩
    | _, _ => ⟨none, false⟩

/-! ## Invocations -/

def resolveCreation (call : Invocation) (receiver : Typed) (view : Viewpoint) : ResolvedCall :=
  match receiver.type with
  | none => { isKnown := receiver.isKnown }
  | some t => ⟨some t, true, index.constructorsFor t call view⟩

def resolveQualified (call : Invocation) (receiver : Typed) (view : Viewpoint) : ResolvedCall :=
  match receiver.type with
  | none => { isKnown := receiver.isKnown }
  | some t => ⟨some t, true, index.membersFor t call view⟩

def asCalled (t : TypeSymbol) (targets : List Method) : Option ResolvedCall :=
  if targets.isEmpty then none else some ⟨some t, true, targets⟩

/-- The member that a static import adds to a file, if an invocation may mean it. -/
def staticImport (call : Invocation) (view : Viewpoint) (imported : String) :
    Option ResolvedCall :=
  let name := TypeText.lastSegment imported
  if name = call.name ∨ name = "*" then
    let holder := index.lookupQualified (String.ofList (Text.beforeLast '.' imported.toList))
    asCalled holder (index.membersFor holder call view)
  else none

/-- What a call without a receiver calls: the types around come first, then the static
imports. -/
def resolveUnqualified (call : Invocation) (view : Viewpoint) : ResolvedCall :=
  ((index.ownersFrom view.owner).findSome? fun entry =>
      asCalled entry.symbol (index.membersFor entry.symbol call view))
    <|> view.file.staticImports.findSome? (index.staticImport call view)
    |>.getD { isKnown := true }

mutual

/-- What an invocation calls. -/
def resolve (view : Viewpoint) : Invocation → ResolvedCall
  | ⟨kind, name, count, receiver, owner, method, location, types⟩ =>
    let call : Invocation := ⟨kind, name, count, receiver, owner, method, location, types⟩
    match kind, receiver with
    | .creation, receiver => index.resolveCreation call (receiverType? view receiver) view
    | _, none => index.resolveUnqualified call view
    | _, some receiver => index.resolveQualified call (receiverType view receiver) view

def receiverType? (view : Viewpoint) : Option Receiver → Typed
  | none => ⟨none, false⟩
  | some receiver => receiverType view receiver

def receiverType (view : Viewpoint) : Receiver → Typed
  | .typed text | .created text => ⟨index.resolveType text view, true⟩
  | .this =>
    match index.ownType view with
    | some entry => ⟨some entry.symbol, true⟩
    | none => ⟨none, false⟩
  | .super =>
    match index.ownType view with
    | some entry => ⟨some (index.superOf entry), true⟩
    | none => ⟨none, false⟩
  | .named name => index.nameType name view
  | .result call => index.returnType (resolve view call).targets
  | .unknown => ⟨none, false⟩

end

def viewOf (file : FileFacts) (owner method : Option String) : Viewpoint where
  file
  owner
  method := (method.filter (· ≠ "")).bind fun id => index.declarations[id]?

/-! ## Functional expressions -/

/-- The interface of the parameter to which an argument is passed; variable arity counts
as its element type. -/
def parameterTarget (target : Method) (position : Nat) : Option TypeSymbol :=
  (target.parameters[min position (target.arity - 1)]?).bind fun parameter =>
    let text := if TypeText.isVarargs parameter then TypeText.dropRight 3 parameter else parameter
    index.parameterType target text

/-- The interface that a lambda or method reference implements. -/
def targetType (use : FunctionalUse) (view : Viewpoint) : Option TypeSymbol :=
  match use.target with
  | none => none
  | some (.typed text) => index.resolveType text view
  | some (.argument call position) =>
    let resolved := index.resolve view call
    match resolved.targets with
    | target :: _ => index.parameterTarget target position
    | [] =>
      let receiver := (resolved.receiver.map (·.name)).getD ""
      (Library.callbackOf receiver call.name).map Library.externalType

end CodeIndex

end EntryPoints

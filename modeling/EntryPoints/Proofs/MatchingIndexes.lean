import EntryPoints.Proofs.SharedCalls

/-!
# Indexes that answer alike

What an index knows is read through a few look-ups: types by binary name, by qualified
name and by simple name, methods by their owner and by their file, declarations by id,
and the entry of a method.  Two indexes match when these look-ups agree, up to a change of
the files that leaves alone what names mean in them.  The order in which types and
methods were indexed, and that of the types of one simple name, may differ.

Matching indexes resolve every name, invocation and lambda alike.  The lemmas go in the
order in which the functions of the index are built from each other, so that each of them
needs those before it and no look-up twice.
-/

namespace EntryPoints

/-- A change of files that leaves alone what names mean in them. -/
structure FileFacts.KeepsNames (change : FileFacts → FileFacts) : Prop where
  package : ∀ file, (change file).package = file.package
  imports : ∀ file, (change file).imports = file.imports
  wildcardImports : ∀ file, (change file).wildcardImports = file.wildcardImports
  staticImports : ∀ file, (change file).staticImports = file.staticImports

theorem FileFacts.keepsNames_id : KeepsNames id where
  package _ := rfl
  imports _ := rfl
  wildcardImports _ := rfl
  staticImports _ := rfl

section Change

variable (change : FileFacts → FileFacts)

def TypeEntry.inFile (entry : TypeEntry) : TypeEntry := { entry with file := change entry.file }

def MethodEntry.inFile (entry : MethodEntry) : MethodEntry :=
  { entry with file := change entry.file }

def Viewpoint.inFile (view : Viewpoint) : Viewpoint := { view with file := change view.file }

@[simp] theorem TypeEntry.inFile_decl (entry : TypeEntry) :
    (entry.inFile change).decl = entry.decl := rfl

@[simp] theorem TypeEntry.inFile_symbol (entry : TypeEntry) :
    (entry.inFile change).symbol = entry.symbol := rfl

@[simp] theorem TypeEntry.inFile_file (entry : TypeEntry) :
    (entry.inFile change).file = change entry.file := rfl

@[simp] theorem MethodEntry.inFile_decl (entry : MethodEntry) :
    (entry.inFile change).decl = entry.decl := rfl

@[simp] theorem MethodEntry.inFile_file (entry : MethodEntry) :
    (entry.inFile change).file = change entry.file := rfl

@[simp] theorem Viewpoint.inFile_owner (view : Viewpoint) :
    (view.inFile change).owner = view.owner := rfl

@[simp] theorem Viewpoint.inFile_method (view : Viewpoint) :
    (view.inFile change).method = view.method := rfl

@[simp] theorem Viewpoint.inFile_file (view : Viewpoint) :
    (view.inFile change).file = change view.file := rfl

theorem Viewpoint.mk_inFile (file : FileFacts) (owner : Option String)
    (method : Option MethodDecl) :
    (⟨change file, owner, method⟩ : Viewpoint) =
      (⟨file, owner, method⟩ : Viewpoint).inFile change :=
  rfl

end Change

namespace CodeIndex

/-- Two indexes whose look-ups agree, with the files of the second changed. -/
structure Matches (change : FileFacts → FileFacts) (index other : CodeIndex) : Prop where
  keepsNames : FileFacts.KeepsNames change
  type? : ∀ k, other.type? k = (index.type? k).map (TypeEntry.inFile change)
  qualified : ∀ name : String, other.qualified[name]? = index.qualified[name]?
  simple : ∀ name, (other.simple.getD name []).Perm (index.simple.getD name [])
  declarations : ∀ id : String, other.declarations[id]? = index.declarations[id]?
  methodsDeclaredBy : ∀ k, other.methodsDeclaredBy k = index.methodsDeclaredBy k
  methodsOfFile : ∀ file, other.methodsOfFile file = index.methodsOfFile file
  entryOf : ∀ m, other.entryOf m = (index.entryOf m).map (MethodEntry.inFile change)
  typeCount : other.types.size = index.types.size
  methodCount : other.methods.size = index.methods.size

namespace Matches

variable {change : FileFacts → FileFacts} {index other : CodeIndex}
  (h : Matches change index other)

include h

/-! ## Names -/

theorem qualified? (name : String) :
    other.qualified? name = (index.qualified? name).map (TypeEntry.inFile change) := by
  unfold CodeIndex.qualified?
  rw [h.qualified]
  cases index.qualified[name]? with
  | none => rfl
  | some k => exact h.type? k

theorem outward (steps : Nat) (owner : Option String) :
    other.outward steps owner = (index.outward steps owner).map (TypeEntry.inFile change) := by
  fun_induction index.outward steps owner with
  | case1 => rfl
  | case2 => simp [CodeIndex.outward]
  | case3 => simp [CodeIndex.outward]
  | case4 steps owner hname hmissing => simp [CodeIndex.outward, hname, h.type?, hmissing]
  | case5 steps owner hname found hfound ih =>
      simp [CodeIndex.outward, hname, h.type?, hfound, ih]

theorem ownersFrom (owner : Option String) :
    other.ownersFrom owner = (index.ownersFrom owner).map (TypeEntry.inFile change) := by
  unfold CodeIndex.ownersFrom
  rw [h.typeCount, h.outward]

theorem lookupQualified (name : String) :
    other.lookupQualified name = index.lookupQualified name := by
  unfold CodeIndex.lookupQualified
  rw [h.qualified?]
  cases index.qualified? name <;> rfl

theorem seenFrom (name : String) (owner : TypeEntry) :
    other.seenFrom name (owner.inFile change) = index.seenFrom name owner := by
  unfold CodeIndex.seenFrom
  rw [h.type?, TypeEntry.inFile_decl, TypeEntry.inFile_symbol]
  cases index.type? (owner.decl.binaryName ++ "$" ++ name) <;> rfl

theorem wildcardImport (name package : String) :
    other.wildcardImport name package = index.wildcardImport name package := by
  unfold CodeIndex.wildcardImport
  simp only
  rw [h.qualified?]
  cases index.qualified? (package ++ "." ++ name) <;> rfl

theorem seenInFile (name : String) (file : FileFacts) :
    other.seenInFile name (change file) = index.seenInFile name file := by
  have hwildcard : other.wildcardImport name = index.wildcardImport name :=
    funext (h.wildcardImport name)
  unfold CodeIndex.seenInFile
  simp only
  rw [h.keepsNames.imports, h.keepsNames.package, h.keepsNames.wildcardImports, h.qualified?,
    hwildcard]
  cases file.imports.find? fun imported => TypeText.lastSegment imported == name with
  | some imported => simp only [h.lookupQualified]
  | none =>
      cases index.qualified? (if file.package = "" then name else file.package ++ "." ++ name) <;>
        rfl

/-- A list of one type has no other order. -/
theorem onlyNamed (name : String) : other.onlyNamed name = index.onlyNamed name := by
  have hperm := h.simple name
  unfold CodeIndex.onlyNamed
  cases hnamed : index.simple.getD name [] with
  | nil =>
      rw [hnamed] at hperm
      rw [hperm.eq_nil]
  | cons first rest =>
      rw [hnamed] at hperm
      cases rest with
      | nil =>
          rw [List.perm_singleton.mp hperm]
          simp [h.type?, Function.comp_def]
      | cons second rest =>
          have hlength : 2 ≤ (other.simple.getD name []).length := by simp [hperm.length_eq]
          match hother : other.simple.getD name [] with
          | [] => simp [hother] at hlength
          | [_] => simp [hother] at hlength
          | _ :: _ :: _ => rfl

theorem resolveSimple (name : String) (view : Viewpoint) :
    other.resolveSimple name (view.inFile change) = index.resolveSimple name view := by
  have hseen : other.seenFrom name ∘ TypeEntry.inFile change = index.seenFrom name :=
    funext (h.seenFrom name)
  unfold CodeIndex.resolveSimple
  rw [Viewpoint.inFile_owner, Viewpoint.inFile_file, h.ownersFrom, List.findSome?_map, hseen,
    h.seenInFile, h.onlyNamed]

theorem resolveNested (resolved : TypeSymbol) (rest : String) :
    other.resolveNested resolved rest = index.resolveNested resolved rest := by
  unfold CodeIndex.resolveNested
  simp only [h.type?]
  split
  · rfl
  · cases index.type? (resolved.binaryName ++ "$" ++
      String.ofList (rest.toList.map fun c => if c = '.' then '$' else c)) <;> rfl

theorem resolveName (base : String) (view : Viewpoint) :
    other.resolveName base (view.inFile change) = index.resolveName base view := by
  unfold CodeIndex.resolveName
  simp only [h.qualified?, h.resolveSimple, h.resolveNested]
  cases index.qualified? base <;> rfl

theorem resolveBound (text : String) (view : Viewpoint) :
    other.resolveBound text (view.inFile change) = index.resolveBound text view := by
  unfold CodeIndex.resolveBound
  simp only [h.resolveName]

theorem parameterScopes (view : Viewpoint) :
    other.parameterScopes (view.inFile change) = index.parameterScopes view := by
  unfold CodeIndex.parameterScopes
  rw [Viewpoint.inFile_owner, Viewpoint.inFile_method, h.ownersFrom, List.map_map]
  rfl

theorem typeParameter (name : String) (view : Viewpoint) :
    other.typeParameter name (view.inFile change) = index.typeParameter name view := by
  unfold CodeIndex.typeParameter
  simp only [h.parameterScopes, h.resolveBound]

theorem resolveType (text : String) (view : Viewpoint) :
    other.resolveType text (view.inFile change) = index.resolveType text view := by
  unfold CodeIndex.resolveType
  simp only [h.typeParameter, h.resolveName]

/-! ## Inheritance -/

theorem declaredSupertypes (entry : TypeEntry) :
    other.declaredSupertypes (entry.inFile change) = index.declaredSupertypes entry := by
  have hview : headView (entry.inFile change) = (headView entry).inFile change := rfl
  unfold CodeIndex.declaredSupertypes
  apply List.filterMap_congr
  intro text _
  rw [hview, h.resolveType]
  rfl

theorem directSupertypes (t : TypeSymbol) :
    other.directSupertypes t = index.directSupertypes t := by
  unfold CodeIndex.directSupertypes
  rw [h.type?]
  cases index.type? t.binaryName with
  | none => rfl
  | some entry => simp only [Option.map_some, h.declaredSupertypes]

theorem ancestors (t : TypeSymbol) : other.ancestors t = index.ancestors t := by
  unfold CodeIndex.ancestors
  rw [h.typeCount, funext h.directSupertypes]

theorem isSubtypeOrSelf (sub sup : TypeSymbol) :
    other.isSubtypeOrSelf sub sup = index.isSubtypeOrSelf sub sup := by
  unfold CodeIndex.isSubtypeOrSelf
  rw [h.ancestors]

/-! ## Overloads -/

theorem isTypeVariable (text : String) (m : Method) :
    other.isTypeVariable text m = index.isTypeVariable text m := by
  unfold CodeIndex.isTypeVariable
  simp only
  rw [h.entryOf]
  cases index.entryOf m with
  | none => rfl
  | some entry =>
      simp only [Option.map_some, MethodEntry.inFile_decl, h.ownersFrom, List.any_map]
      rfl

theorem overrides (m inherited : Method) :
    other.overrides m inherited = index.overrides m inherited := by
  unfold CodeIndex.overrides
  simp only [h.isTypeVariable]

theorem parameterType (m : Method) (parameter : String) :
    other.parameterType m parameter = index.parameterType m parameter := by
  unfold CodeIndex.parameterType
  rw [h.entryOf]
  cases index.entryOf m with
  | none => simp only [Option.map_none, Option.bind_none]
  | some entry =>
      simp only [Option.map_some, Option.bind_some, MethodEntry.inFile_decl,
        MethodEntry.inFile_file, Viewpoint.mk_inFile, h.resolveType]

theorem referenceFit (argument parameter : String) (m : Method) (view : Viewpoint) :
    other.referenceFit argument parameter m (view.inFile change) =
      index.referenceFit argument parameter m view := by
  unfold CodeIndex.referenceFit
  simp only [h.resolveType, h.parameterType, h.isSubtypeOrSelf]

theorem argumentFit (argument parameter : String) (m : Method) (view : Viewpoint) :
    other.argumentFit argument parameter m (view.inFile change) =
      index.argumentFit argument parameter m view := by
  -- By induction on the length of the argument: its element type is shorter.
  induction hlength : argument.length using Nat.strong_induction_on
    generalizing argument parameter with
  | h length ih =>
  rw [argumentFit.eq_def other, argumentFit.eq_def index]
  simp only
  rw [h.isTypeVariable, h.referenceFit]
  by_cases harrays : TypeText.isArray (TypeText.erase argument) = true ∧
      TypeText.isArray (TypeText.erase parameter) = true ∧ argument.length ≠ 0
  · have hshorter := Codebase.length_dropRight_lt (Nat.zero_lt_two) harrays.2.2
    rw [ih _ (hlength ▸ hshorter) _ _ rfl]
  · rw [if_neg harrays, if_neg harrays]

theorem argumentScore (m : Method) (arguments : List (Option String)) (view : Viewpoint) :
    other.argumentScore m arguments (view.inFile change) =
      index.argumentScore m arguments view := by
  unfold CodeIndex.argumentScore
  simp only [h.argumentFit]

theorem selectOverloads (candidates : List Method) (arguments : List (Option String))
    (view : Viewpoint) :
    other.selectOverloads candidates arguments (view.inFile change) =
      index.selectOverloads candidates arguments view := by
  unfold CodeIndex.selectOverloads
  simp only [h.argumentScore]

/-! ## Members -/

theorem declaredMethods (t : TypeSymbol) : other.declaredMethods t = index.declaredMethods t := by
  unfold CodeIndex.declaredMethods
  rw [h.methodsDeclaredBy]

theorem addDeclared (name : String) (count : Option Nat) (candidates : List Method)
    (t : TypeSymbol) :
    other.addDeclared name count candidates t = index.addDeclared name count candidates t := by
  unfold CodeIndex.addDeclared CodeIndex.isHidden
  simp only [h.declaredMethods, h.overrides]

theorem members (t : TypeSymbol) (name : String) (count : Option Nat) :
    other.members t name count = index.members t name count := by
  have hadd : other.addDeclared name count = index.addDeclared name count :=
    funext fun candidates => funext fun t => h.addDeclared name count candidates t
  unfold CodeIndex.members
  rw [h.ancestors, hadd]

theorem constructors (t : TypeSymbol) (count : Option Nat) :
    other.constructors t count = index.constructors t count := by
  unfold CodeIndex.constructors
  rw [h.methodsDeclaredBy]

theorem overriddenBy (m : Method) : other.overriddenBy m = index.overriddenBy m := by
  unfold CodeIndex.overriddenBy
  simp only [h.directSupertypes, h.members, h.overrides]

theorem roots (m : Method) : other.roots m = index.roots m := by
  unfold CodeIndex.roots
  simp only [funext h.overriddenBy, h.methodCount]

/-! ## Invocations -/

theorem membersFor (t : TypeSymbol) (call : Invocation) (view : Viewpoint) :
    other.membersFor t call (view.inFile change) = index.membersFor t call view := by
  unfold CodeIndex.membersFor CodeIndex.narrowed
  rw [h.members, h.selectOverloads]

theorem constructorsFor (t : TypeSymbol) (call : Invocation) (view : Viewpoint) :
    other.constructorsFor t call (view.inFile change) = index.constructorsFor t call view := by
  unfold CodeIndex.constructorsFor CodeIndex.narrowed
  rw [h.constructors, h.selectOverloads]

theorem contains_types (k : String) : other.types.contains k = index.types.contains k := by
  have hisSome : (other.type? k).isSome = (index.type? k).isSome := by
    rw [h.type?, Option.isSome_map]
  rw [Table.contains_eq_isSome, Table.contains_eq_isSome]
  exact hisSome

theorem fieldOwners (owner : TypeEntry) :
    other.fieldOwners (owner.inFile change) =
      (index.fieldOwners owner).map (TypeEntry.inFile change) := by
  unfold CodeIndex.fieldOwners
  simp only [h.contains_types, h.directSupertypes, h.typeCount, h.type?, TypeEntry.inFile_symbol,
    List.map_filterMap]

theorem fieldText (name : String) (owner : TypeEntry) :
    other.fieldText name (owner.inFile change) =
      (index.fieldText name owner).map fun found => (found.1.inFile change, found.2) := by
  unfold CodeIndex.fieldText
  rw [h.fieldOwners, List.findSome?_map, List.map_findSome?]
  congr 1
  funext entry
  simp [Function.comp_def]

theorem fieldType (name : String) (view : Viewpoint) :
    other.fieldType name (view.inFile change) = index.fieldType name view := by
  have htext : other.fieldText name ∘ TypeEntry.inFile change = fun owner =>
      (index.fieldText name owner).map fun found => (found.1.inFile change, found.2) :=
    funext (h.fieldText name)
  unfold CodeIndex.fieldType
  rw [Viewpoint.inFile_owner, h.ownersFrom, List.findSome?_map, htext]
  have hfound := List.map_findSome? (f := index.fieldText name)
    (g := fun found => (found.1.inFile change, found.2)) (l := index.ownersFrom view.owner)
  simp only [Function.comp_def] at hfound
  rw [← hfound, Option.bind_map]
  simp only [Function.comp_def, TypeEntry.inFile_decl, TypeEntry.inFile_file,
    Viewpoint.mk_inFile, h.resolveType]

theorem ownType (view : Viewpoint) :
    other.ownType (view.inFile change) = (index.ownType view).map (TypeEntry.inFile change) := by
  unfold CodeIndex.ownType
  rw [Viewpoint.inFile_owner, funext h.type?, Option.map_bind]
  rfl

theorem superOf (entry : TypeEntry) :
    other.superOf (entry.inFile change) = index.superOf entry := by
  unfold CodeIndex.superOf
  rw [TypeEntry.inFile_decl, TypeEntry.inFile_symbol, h.directSupertypes]

theorem nameType (name : String) (view : Viewpoint) :
    other.nameType name (view.inFile change) = index.nameType name view := by
  unfold CodeIndex.nameType
  rw [h.fieldType, h.resolveSimple]

theorem returnType (targets : List Method) :
    other.returnType targets = index.returnType targets := by
  cases targets with
  | nil => rfl
  | cons target others =>
      unfold CodeIndex.returnType
      simp only
      rw [h.entryOf]
      cases target.returnType.filter (· ≠ "") with
      | none => simp only
      | some text =>
          cases index.entryOf target with
          | none => simp only [Option.map_none]
          | some entry =>
              simp only [Option.map_some, MethodEntry.inFile_decl, MethodEntry.inFile_file,
                Viewpoint.mk_inFile, h.resolveType]

theorem resolveCreation (call : Invocation) (receiver : Typed) (view : Viewpoint) :
    other.resolveCreation call receiver (view.inFile change) =
      index.resolveCreation call receiver view := by
  unfold CodeIndex.resolveCreation
  simp only [h.constructorsFor]

theorem resolveQualified (call : Invocation) (receiver : Typed) (view : Viewpoint) :
    other.resolveQualified call receiver (view.inFile change) =
      index.resolveQualified call receiver view := by
  unfold CodeIndex.resolveQualified
  simp only [h.membersFor]

theorem staticImport (call : Invocation) (view : Viewpoint) (imported : String) :
    other.staticImport call (view.inFile change) imported =
      index.staticImport call view imported := by
  unfold CodeIndex.staticImport
  simp only [h.lookupQualified, h.membersFor]

theorem resolveUnqualified (call : Invocation) (view : Viewpoint) :
    other.resolveUnqualified call (view.inFile change) = index.resolveUnqualified call view := by
  have himport : other.staticImport call (view.inFile change) = index.staticImport call view :=
    funext (h.staticImport call view)
  unfold CodeIndex.resolveUnqualified
  rw [Viewpoint.inFile_owner, Viewpoint.inFile_file, h.ownersFrom, List.findSome?_map, himport,
    h.keepsNames.staticImports]
  simp only [Function.comp_def, TypeEntry.inFile_symbol, h.membersFor]

omit h in
mutual

theorem resolve (h : Matches change index other) (view : Viewpoint) : ∀ call,
    other.resolve (view.inFile change) call = index.resolve view call
  | ⟨kind, name, count, receiver, owner, method, location, types⟩ => by
    unfold CodeIndex.resolve
    cases kind with
    | creation => simp only [h.receiverType? view receiver, h.resolveCreation]
    | _ =>
        cases receiver with
        | none => simp only [h.resolveUnqualified]
        | some receiver => simp only [h.receiverType view receiver, h.resolveQualified]

theorem receiverType? (h : Matches change index other) (view : Viewpoint) : ∀ receiver,
    other.receiverType? (view.inFile change) receiver = index.receiverType? view receiver
  | none => rfl
  | some receiver => h.receiverType view receiver

theorem receiverType (h : Matches change index other) (view : Viewpoint) : ∀ receiver,
    other.receiverType (view.inFile change) receiver = index.receiverType view receiver
  | .typed text | .created text => by
    unfold CodeIndex.receiverType
    rw [h.resolveType]
  | .this => by
    unfold CodeIndex.receiverType
    rw [h.ownType]
    cases index.ownType view <;> rfl
  | .super => by
    unfold CodeIndex.receiverType
    rw [h.ownType]
    cases index.ownType view with
    | none => rfl
    | some entry => simp only [Option.map_some, h.superOf]
  | .named name => by
    unfold CodeIndex.receiverType
    exact h.nameType name view
  | .result call => by
    unfold CodeIndex.receiverType
    rw [h.resolve view call, h.returnType]
  | .unknown => rfl

end

theorem viewOf (file : FileFacts) (owner method : Option String) :
    other.viewOf (change file) owner method = (index.viewOf file owner method).inFile change := by
  unfold CodeIndex.viewOf
  simp only [h.declarations]
  rfl

theorem parameterTarget (target : Method) (position : Nat) :
    other.parameterTarget target position = index.parameterTarget target position := by
  unfold CodeIndex.parameterTarget
  simp only [h.parameterType]

theorem targetType (use : FunctionalUse) (view : Viewpoint) :
    other.targetType use (view.inFile change) = index.targetType use view := by
  unfold CodeIndex.targetType
  simp only [h.resolveType, h.resolve, h.parameterTarget]

end Matches

end CodeIndex

end EntryPoints

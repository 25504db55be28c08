import EntryPoints.Facts.Survey
import EntryPoints.Proofs.TargetCallers

/-!
# Lambdas that are passed to undecided calls

A lambda that is an argument of a call implements the type of the parameter that takes it.  A
call that the arguments do not decide has several targets, and its site counts for each of them.
The lambda is recorded once, with the parameter of the first target.  So the methods of the
interfaces that the other targets ask for do not find it, unless they ask for the same one.

Where the lambda is found, the method around it stands in for the methods of the interface.
-/

namespace EntryPoints

variable {σ ρ : Type} {files : List FileFacts} {scope : Scope}

namespace Answers

variable {answers : Answers} {names : List String}

/-- The method around an implementation of the interface is among the owners of lambdas. -/
theorem mem_keys_lambdaOwners {m owner : Method} {expression : FunctionalExpression}
    (hexpression : expression ∈
      answers.functionalImplementations m.owner answers.productionScope)
    (howner : answers.expressionOwner expression = some owner) :
    owner.key ∈ (answers.lambdaOwners m).map Method.key := by
  unfold lambdaOwners
  rw [mem_keys_firstOfKeys]
  exact List.mem_map_of_mem (List.mem_filterMap.mpr ⟨expression, hexpression, howner⟩)

theorem substitutes_of_isFunctional {m : Method} (hcreator : answers.creatorOf m = none)
    (hfunctional : answers.isFunctional names m = true) (howners : answers.lambdaOwners m ≠ []) :
    answers.substitutes names m = some (answers.lambdaOwners m) := by
  unfold substitutes
  rw [hcreator, hfunctional]
  simp [howners]

end Answers

namespace CodeIndex

theorem targetType_of_argument {index : CodeIndex} {use : FunctionalUse} {view : Viewpoint}
    {call : Invocation} {position : Nat} {first : Method} {others : List Method}
    (hargument : use.target = some (.argument call position))
    (htargets : (index.resolve view call).targets = first :: others) :
    index.targetType use view = index.parameterTarget first position := by
  unfold targetType
  simp only [hargument, htargets]

end CodeIndex

namespace Snapshot

/-- The place where a functional expression is written, which decides what its types mean. -/
def viewOfUse (files : List FileFacts) (file : FileFacts) (use : FunctionalUse) : Viewpoint :=
  (CodeIndex.ofFiles files).viewOf file use.owner use.method

/-- A functional expression as a snapshot records it. -/
def expressionOf (files : List FileFacts) (file : FileFacts) (use : FunctionalUse) :
    FunctionalExpression :=
  ⟨use.kind, use.location, (CodeIndex.ofFiles files).targetType use (viewOfUse files file use)⟩

/-- A lambda or method reference in scope that is passed as an argument of a call. -/
structure Passes (files : List FileFacts) (scope : Scope) (file : FileFacts) (use : FunctionalUse)
    (call : Invocation) (position : Nat) : Prop where
  inFiles : file ∈ files
  recorded : use ∈ file.functionalUses
  inScope : scope.contains use.location = true
  argument : use.target = some (.argument call position)

/-- An expression in scope is found exactly for the type that it is recorded with. -/
theorem expressionOf_mem_iff {file : FileFacts} {use : FunctionalUse} (hfile : file ∈ files)
    (huse : use ∈ file.functionalUses) (hscope : scope.contains use.location = true)
    (t : TypeSymbol) :
    expressionOf files file use ∈ (ofFiles files scope).functionalImplementations t scope ↔
      ∃ u, (expressionOf files file use).target = some u ∧ u.id = t.id := by
  have hrecorded : expressionOf files file use ∈ (ofFiles files scope).functional :=
    List.mem_flatMap.mpr ⟨file, hfile, List.mem_map.mpr ⟨use, huse, rfl⟩⟩
  unfold functionalImplementations
  rw [List.mem_filter, and_iff_right hrecorded, Bool.and_eq_true,
    and_iff_right (show scope.contains (expressionOf files file use).location = true from hscope),
    Option.any_eq_true]
  exact exists_congr fun u => and_congr_right fun _ => beq_iff_eq

/-- A lambda that is passed to a call with targets is found for the type of the parameter that
takes it in the first target, and for no type with another id.  Where it is found, the method
around it is among the substitutes of every functional method of that type. -/
theorem functional_of_argument_iff {file : FileFacts} {use : FunctionalUse} {call : Invocation}
    {position : Nat} (hpasses : Passes files scope file use call position) {first : Method}
    {others : List Method}
    (htargets : ((CodeIndex.ofFiles files).resolve (viewOfUse files file use) call).targets =
      first :: others) (finder : Finder)
    {watcher : Watcher ρ}
    (hwatcher : Undisturbed ((ofFiles files scope).knowledgeBase : KnowledgeBase σ) watcher)
    {s : RunState σ ρ} (hempty : ∀ key, s.cache.get? key = none) (t : TypeSymbol) :
    (expressionOf files file use ∈ (ofFiles files scope).functionalImplementations t scope ↔
      ∃ u, (CodeIndex.ofFiles files).parameterTarget first position = some u ∧ u.id = t.id) ∧
    (expressionOf files file use ∈ (ofFiles files scope).functionalImplementations t scope →
      ∀ g, (ofFiles files scope).isInDocComment use.location = false →
        (ofFiles files scope).enclosingMethod use.location = some g →
        ∀ m : Method, m.owner.id = t.id → (ofFiles files scope).answers.creatorOf m = none →
          (ofFiles files scope).answers.isFunctional finder.functional m = true →
          ∃ owners,
            ((finder.setting (ofFiles files scope).knowledgeBase scope
              (Run.checkpoint (ofFiles files scope).knowledgeBase watcher)).substitutes m s).1 =
                .ok (some owners) ∧
            g.key ∈ owners.map Method.key) := by
  have hfound := expressionOf_mem_iff hpasses.inFiles hpasses.recorded hpasses.inScope
  have htype : (expressionOf files file use).target =
      (CodeIndex.ofFiles files).parameterTarget first position :=
    CodeIndex.targetType_of_argument hpasses.argument htargets
  refine ⟨htype ▸ hfound t, fun hmem g hcomment hg m hm hcreator hfunctional => ?_⟩
  obtain ⟨u, hu, hut⟩ := (hfound t).mp hmem
  have howned : expressionOf files file use ∈
      (ofFiles files scope).functionalImplementations m.owner scope :=
    (hfound m.owner).mpr ⟨u, hu, hut.trans hm.symm⟩
  have howner : (ofFiles files scope).answers.expressionOwner (expressionOf files file use) =
      some g := by
    unfold Answers.expressionOwner
    rw [show (ofFiles files scope).answers.isInDocComment (expressionOf files file use).location =
      false from hcomment]
    exact hg
  have hkey : g.key ∈ ((ofFiles files scope).answers.lambdaOwners m).map Method.key :=
    Answers.mem_keys_lambdaOwners howned howner
  have howners : (ofFiles files scope).answers.lambdaOwners m ≠ [] :=
    fun hnil => List.not_mem_nil (hnil ▸ hkey)
  refine ⟨_, ?_, hkey⟩
  rw [← Answers.substitutes_of_isFunctional hcreator hfunctional howners]
  exact (hwatcher.parts_eq finder (ofFiles files scope).follows_answers m hempty).1

end Snapshot

/-! ## A lambda with a choice of two interfaces -/

namespace TwoCallbacks

open CodeIndex

def runnerDecl : TypeDecl where
  binaryName := "R"
  name := "R"
  kind := .interfaceType
  qualifiedName := some "R"
  location := some ⟨"A.java", 1, 0, 22⟩

def setterDecl : TypeDecl where
  binaryName := "S"
  name := "S"
  kind := .interfaceType
  qualifiedName := some "S"
  location := some ⟨"A.java", 1, 22, 49⟩

def userDecl : TypeDecl where
  binaryName := "A"
  name := "A"
  qualifiedName := some "A"
  location := some ⟨"A.java", 1, 49, 104⟩

def methodDecl (id owner name : String) (parameters : List String) (isAbstract : Bool)
    (start stop : Int) : MethodDecl where
  id
  owner
  name
  parameters
  isAbstract
  returnType := some "void"
  location := some ⟨"A.java", 1, start, stop⟩

def runDecl : MethodDecl := methodDecl "R#a@12" "R" "a" [] true 12 21

def setDecl : MethodDecl := methodDecl "S#b@34" "S" "b" ["int"] true 34 48

def takesSetterDecl : MethodDecl := methodDecl "A#f@57" "A" "f" ["S"] false 57 70

def takesRunnerDecl : MethodDecl := methodDecl "A#f@70" "A" "f" ["R"] false 70 83

def callerDecl : MethodDecl := methodDecl "A#g@83" "A" "g" [] false 83 103

def call : Invocation :=
  ⟨.call, "f", some 1, none, some "A", some "A#g@83", ⟨"A.java", 1, 92, 101⟩, some [none]⟩

def lambda : FunctionalUse where
  kind := .lambda
  target := some (.argument call 0)
  owner := some "A"
  method := some "A#g@83"
  location := ⟨"A.java", 1, 94, 100⟩

/-- The method `g` passes a lambda without parameters to an `f` that takes an `S`, or an `R`. -/
def source : FileFacts where
  file := "A.java"
  relativePath := "A.java"
  types := [runnerDecl, setterDecl, userDecl]
  methods := [runDecl, setDecl, takesSetterDecl, takesRunnerDecl, callerDecl]
  invocations := [call]
  functionalUses := [lambda]

set_option maxRecDepth 100000 in
theorem ofText_source : FileFacts.ofText "A.java"
    ("interface R\x7bvoid a();\x7dinterface S\x7bvoid b(int n);\x7d" ++
      "class A\x7bvoid f(S s)\x7b\x7dvoid f(R r)\x7b\x7dvoid g()\x7bf(()->\x7b\x7d);\x7d\x7d")
    none = source := by
  decide +kernel

def index : CodeIndex := ofFiles [source]

def snapshot : Snapshot := Snapshot.ofFiles [source] { testRoots := [] }

def runner : TypeEntry := ⟨symbolOf runnerDecl, runnerDecl, source⟩

def setter : TypeEntry := ⟨symbolOf setterDecl, setterDecl, source⟩

def user : TypeEntry := ⟨symbolOf userDecl, userDecl, source⟩

def setMethod : Method := methodOf setter.symbol setDecl

def takesSetter : Method := methodOf user.symbol takesSetterDecl

def takesRunner : Method := methodOf user.symbol takesRunnerDecl

def caller : Method := methodOf user.symbol callerDecl

theorem type?_eq : index.type? "R" = some runner ∧ index.type? "S" = some setter ∧
    index.type? "A" = some user := by
  simp only [index, type?_ofFiles]
  exact ⟨rfl, rfl, rfl⟩

theorem methodEntries_eq : methodEntries (typesOf [source]) [source] =
    [(methodOf runner.symbol runDecl, ⟨runDecl, source⟩), (setMethod, ⟨setDecl, source⟩),
      (takesSetter, ⟨takesSetterDecl, source⟩), (takesRunner, ⟨takesRunnerDecl, source⟩),
      (caller, ⟨callerDecl, source⟩)] := by
  obtain ⟨hrunner, hsetter, huser⟩ := type?_eq
  change (typesOf [source]).get? "R" = some runner at hrunner
  change (typesOf [source]).get? "S" = some setter at hsetter
  change (typesOf [source]).get? "A" = some user at huser
  generalize typesOf [source] = types at hrunner hsetter huser ⊢
  unfold methodEntries
  rw [List.flatMap_cons, List.flatMap_nil, List.append_nil]
  unfold source
  simp only [List.filterMap_cons, runDecl, setDecl, takesSetterDecl, takesRunnerDecl, callerDecl,
    methodDecl, hrunner, hsetter, huser]
  rfl

theorem resolveType_eq (view : Viewpoint)
    (hview : ∀ decl, view.method = some decl → decl.typeParameters = []) :
    index.resolveType "R" view = some runner.symbol ∧
      index.resolveType "S" view = some setter.symbol := by
  obtain ⟨hrunner, hsetter, -⟩ := type?_eq
  have hplain : ∀ entry ∈ typeEntries [source], entry.decl.typeParameters = [] := by decide
  have hparameter : ∀ name, index.typeParameter name view = none :=
    typeParameter_eq_none (fun _ _ hentry => hplain _ (mem_typeEntries_of_type? hentry)) hview
  have hqualified : index.qualified? "R" = some runner ∧ index.qualified? "S" = some setter := by
    simp only [index, qualified?_ofFiles]
    exact ⟨hrunner, hsetter⟩
  exact ⟨resolveType_of_qualified? (by decide) hparameter hqualified.1,
    resolveType_of_qualified? (by decide) hparameter hqualified.2⟩

theorem parameterTarget_eq : index.parameterTarget takesSetter 0 = some setter.symbol ∧
    index.parameterTarget takesRunner 0 = some runner.symbol := by
  have hentry : index.entryOf takesSetter = some ⟨takesSetterDecl, source⟩ ∧
      index.entryOf takesRunner = some ⟨takesRunnerDecl, source⟩ := by
    change (Table.ofList (methodEntries (typesOf [source]) [source])).get? _ = _ ∧
      (Table.ofList (methodEntries (typesOf [source]) [source])).get? _ = _
    rw [methodEntries_eq, Table.get?_ofList, Table.get?_ofList]
    exact ⟨rfl, rfl⟩
  have hplain (decl : MethodDecl) (hdecl : decl.typeParameters = []) :
      ∀ d, some decl = some d → d.typeParameters = [] := by
    rintro d ⟨⟩
    exact hdecl
  constructor
  · change index.parameterType takesSetter "S" = _
    unfold parameterType
    rw [hentry.1]
    exact (resolveType_eq _ (hplain takesSetterDecl rfl)).2
  · change index.parameterType takesRunner "R" = _
    unfold parameterType
    rw [hentry.2]
    exact (resolveType_eq _ (hplain takesRunnerDecl rfl)).1

theorem declaredMethods_eq :
    index.declaredMethods user.symbol = [takesSetter, takesRunner, caller] := by
  unfold declaredMethods
  rw [if_neg (by decide)]
  simp only [index, methodsDeclaredBy_ofFiles, methodEntries_eq]
  rfl

theorem members_eq : index.members user.symbol "f" (some 1) = [takesSetter, takesRunner] := by
  have hsupertypes : index.directSupertypes user.symbol = [] :=
    directSupertypes_symbol type?_eq.2.2 (by decide)
  have hancestors : index.ancestors user.symbol = [user.symbol] := by
    unfold ancestors
    simp [Walk.visit, Walk.load, hsupertypes]
  unfold members
  rw [hancestors]
  simp only [List.foldl_cons, List.foldl_nil, addDeclared, declaredMethods_eq]
  rfl

theorem targets_eq : (index.resolve (Snapshot.viewOfUse [source] source lambda) call).targets =
    [takesSetter, takesRunner] := by
  have howners : index.ownersFrom (some "A") = [user] :=
    ownersFrom_of_outermost type?_eq.2.2 (by decide) rfl
  rw [resolve_of_unqualified (by decide) rfl]
  unfold resolveUnqualified
  rw [show (Snapshot.viewOfUse [source] source lambda).owner = some "A" from rfl, howners,
    List.findSome?_cons]
  unfold membersFor narrowed
  rw [show call.name = "f" from rfl, show call.argumentCount = some 1 from rfl, members_eq]
  rfl

theorem passes : Snapshot.Passes [source] { testRoots := [] } source lambda call 0 where
  inFiles := List.mem_singleton_self source
  recorded := List.mem_singleton_self lambda
  inScope := by decide
  argument := rfl

theorem enclosingMethod_eq : snapshot.enclosingMethod lambda.location = some caller := by
  change narrowestAround _ (index.methodsOfFile "A.java") = _
  rw [index, methodsOfFile_ofFiles, methodEntries_eq]
  rfl

theorem isInDocComment_eq : snapshot.isInDocComment lambda.location = false := by
  unfold Snapshot.isInDocComment snapshot Snapshot.ofFiles
  simp [source]

end TwoCallbacks

open TwoCallbacks in
/-- The lambda counts for `S`, which the first `f` takes, so `g` stands in for its method. -/
theorem lambda_of_first_target :
    Snapshot.expressionOf [source] source lambda ∈
        snapshot.functionalImplementations setter.symbol snapshot.scope ∧
      ∃ owners,
        ((({ functional := ["S.b"] } : Finder).setting snapshot.knowledgeBase snapshot.scope
          (Run.checkpoint snapshot.knowledgeBase Watcher.idle)).substitutes setMethod
            (⟨(), (), {}⟩ : RunState Unit Unit)).1 = .ok (some owners) ∧
        caller.key ∈ owners.map Method.key := by
  have hundisturbed : Undisturbed (snapshot.knowledgeBase : KnowledgeBase Unit)
      (Watcher.idle : Watcher Unit) := undisturbed_idle fun _ => rfl
  obtain ⟨hfound, hstands⟩ := Snapshot.functional_of_argument_iff passes targets_eq
    { functional := ["S.b"] } hundisturbed (s := ⟨(), (), {}⟩) CallerCache.get?_new setter.symbol
  have hmem := hfound.mpr ⟨setter.symbol, parameterTarget_eq.1, rfl⟩
  exact ⟨hmem, hstands hmem caller isInDocComment_eq enclosingMethod_eq setMethod rfl rfl rfl⟩

open TwoCallbacks CodeIndex in
/-- Nothing counts for `R`, although the call may mean the second `f` as well, which takes it. -/
theorem lambda_missed_for_second_target :
    snapshot = Snapshot.ofFiles [FileFacts.ofText "A.java"
      ("interface R\x7bvoid a();\x7dinterface S\x7bvoid b(int n);\x7d" ++
        "class A\x7bvoid f(S s)\x7b\x7dvoid f(R r)\x7b\x7dvoid g()\x7bf(()->\x7b\x7d);\x7d\x7d")
      none] { testRoots := [] } ∧
    Snapshot.Passes [source] snapshot.scope source lambda call 0 ∧
    (index.resolve (Snapshot.viewOfUse [source] source lambda) call).targets =
      [takesSetter, takesRunner] ∧
    index.parameterTarget takesRunner 0 = some runner.symbol ∧
    runner.symbol.kind = .interfaceType ∧
    snapshot.functionalImplementations runner.symbol snapshot.scope = [] := by
  refine ⟨by rw [ofText_source]; rfl, passes, targets_eq, parameterTarget_eq.2, rfl, ?_⟩
  rw [List.eq_nil_iff_forall_not_mem]
  intro expression hmem
  have hsame : expression = Snapshot.expressionOf [source] source lambda :=
    List.mem_singleton.mp (List.mem_filter.mp hmem).1
  rw [hsame] at hmem
  obtain ⟨u, hu, hid⟩ := (Snapshot.expressionOf_mem_iff passes.inFiles passes.recorded
    passes.inScope runner.symbol).mp hmem
  have htarget : index.targetType lambda (Snapshot.viewOfUse [source] source lambda) =
      some setter.symbol :=
    (targetType_of_argument passes.argument targets_eq).trans parameterTarget_eq.1
  cases htarget.symm.trans hu
  exact absurd hid (by decide)

end EntryPoints

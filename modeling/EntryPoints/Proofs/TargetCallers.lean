import EntryPoints.Proofs.OverrideDispatch

/-!
# The callers of a resolved target

A call that resolves to several targets is recorded once, under the name that it
writes and with one receiver.  For a call on a receiver this is the type of the
receiver, to which the owner of every target is related.  A call without a receiver
is recorded with the owner of its first target, and the owners of the others need
not be related to that: then the caller is missing from the callers of the others.
-/

namespace EntryPoints

variable {σ ρ : Type} {files : List FileFacts}

namespace CodeIndex

/-! ## Receivers -/

theorem isResolved_of_superOf {entry : TypeEntry} {k : String}
    (hentry : (ofFiles files).type? k = some entry) :
    (ofFiles files).IsResolved ((ofFiles files).superOf entry) := by
  unfold superOf
  split
  next _ t rest _ hsupertypes =>
    have hmem : t ∈ (ofFiles files).directSupertypes entry.symbol := by
      rw [hsupertypes]
      exact List.mem_cons_self
    exact isResolved_of_mem_directSupertypes (.inl (isNamed_symbol hentry)) hmem
  next => exact .inl (isNamed_externalType _)

theorem isResolved_of_nameType {index : CodeIndex} {name : String} {view : Viewpoint}
    {t : TypeSymbol} (ht : (index.nameType name view).type = some t) : index.IsResolved t := by
  unfold nameType at ht
  split at ht
  next found hfound =>
    cases ht
    simp only [Option.orElse_eq_orElse, Option.orElse_eq_or, Option.or_eq_some_iff] at hfound
    rcases hfound with hfield | ⟨-, hsimple⟩
    · obtain ⟨⟨entry, text⟩, -, htext⟩ := Option.bind_eq_some_iff.mp hfield
      exact isResolved_of_resolveType htext
    · exact .inl (isNamed_of_resolveSimple hsimple)
  next =>
    split at ht
    · cases ht
      exact .inl (isNamed_externalType name)
    · cases ht

theorem isResolved_of_returnType {index : CodeIndex} {targets : List Method} {t : TypeSymbol}
    (ht : (index.returnType targets).type = some t) : index.IsResolved t := by
  unfold returnType at ht
  split at ht
  · cases ht
  · split at ht
    · split at ht
      · cases ht
      · simp only at ht
        exact isResolved_of_resolveType ht
    · cases ht

theorem isResolved_of_receiverType {view : Viewpoint} {receiver : Receiver} {t : TypeSymbol}
    (ht : ((ofFiles files).receiverType view receiver).type = some t) :
    (ofFiles files).IsResolved t := by
  cases receiver with
  | typed text =>
      simp only [receiverType] at ht
      exact isResolved_of_resolveType ht
  | created text =>
      simp only [receiverType] at ht
      exact isResolved_of_resolveType ht
  | named name => exact isResolved_of_nameType ht
  | result call => exact isResolved_of_returnType ht
  | unknown => cases ht
  | this =>
      unfold receiverType at ht
      split at ht
      next entry hentry =>
        cases ht
        obtain ⟨k, -, hk⟩ := Option.bind_eq_some_iff.mp hentry
        exact .inl (isNamed_symbol hk)
      next => cases ht
  | super =>
      unfold receiverType at ht
      split at ht
      next entry hentry =>
        cases ht
        obtain ⟨k, -, hk⟩ := Option.bind_eq_some_iff.mp hentry
        exact isResolved_of_superOf hk
      next => cases ht

/-! ## Where a target is declared -/

theorem resolve_of_unqualified {index : CodeIndex} {call : Invocation} {view : Viewpoint}
    (hkind : call.kind ≠ .creation) (hreceiver : call.receiver = none) :
    index.resolve view call = index.resolveUnqualified call view := by
  cases call
  subst hreceiver
  rw [resolve]
  exact hkind

/-- A target is a constructor that the receiver's type declares, or a member of that type. -/
def IsTargetIn (index : CodeIndex) (call : Invocation) (u : TypeSymbol) (t : Method) : Prop :=
  if call.kind = .creation then t ∈ index.constructors u call.argumentCount
  else t ∈ index.members u call.name call.argumentCount

variable {index : CodeIndex} {call : Invocation} {view : Viewpoint} {t : Method}

theorem isTargetIn_of_asCalled {u : TypeSymbol} {found : ResolvedCall}
    (hkind : call.kind ≠ .creation)
    (hfound : asCalled u (index.membersFor u call view) = some found)
    (ht : t ∈ found.targets) :
    found.receiver = some u ∧ index.IsTargetIn call u t := by
  unfold asCalled at hfound
  split at hfound
  · cases hfound
  · cases hfound
    refine ⟨rfl, ?_⟩
    rw [IsTargetIn, if_neg hkind]
    exact mem_of_mem_selectOverloads ht

theorem isTargetIn_of_resolveUnqualified (hkind : call.kind ≠ .creation)
    (ht : t ∈ (index.resolveUnqualified call view).targets) :
    ∃ u, (index.resolveUnqualified call view).receiver = some u ∧ index.IsNamed u ∧
      index.IsTargetIn call u t := by
  unfold resolveUnqualified at ht ⊢
  simp only [Option.orElse_eq_orElse, Option.orElse_eq_or] at ht ⊢
  cases hfound : ((index.ownersFrom view.owner).findSome? fun entry =>
      asCalled entry.symbol (index.membersFor entry.symbol call view)).or
      (view.file.staticImports.findSome? (index.staticImport call view)) with
  | none =>
      rw [hfound] at ht
      cases ht
  | some found =>
      rw [hfound] at ht
      have hcase := Option.or_eq_some_iff.mp hfound
      rcases hcase with howner | ⟨-, himport⟩
      · obtain ⟨entry, hentry, hcalled⟩ := List.exists_of_findSome?_eq_some howner
        obtain ⟨k, hk⟩ := exists_type?_of_mem_outward hentry
        have htarget := isTargetIn_of_asCalled hkind hcalled ht
        exact ⟨entry.symbol, htarget.1, isNamed_symbol hk, htarget.2⟩
      · obtain ⟨imported, -, hstatic⟩ := List.exists_of_findSome?_eq_some himport
        unfold staticImport at hstatic
        simp only at hstatic
        split at hstatic
        · have htarget := isTargetIn_of_asCalled hkind hstatic ht
          exact ⟨_, htarget.1, isNamed_lookupQualified _, htarget.2⟩
        · cases hstatic

/-- Whatever a call resolves to is declared in the type of its receiver or above. -/
theorem isTargetIn_of_resolve (ht : t ∈ ((ofFiles files).resolve view call).targets) :
    ∃ u, ((ofFiles files).resolve view call).receiver = some u ∧
      (ofFiles files).IsResolved u ∧ (ofFiles files).IsTargetIn call u t := by
  by_cases hkind : call.kind = .creation
  · rw [resolve_of_creation hkind] at ht ⊢
    unfold resolveCreation at ht ⊢
    cases htype : ((ofFiles files).receiverType? view call.receiver).type with
    | none =>
        rw [htype] at ht
        cases ht
    | some u =>
        rw [htype] at ht
        refine ⟨u, rfl, ?_, ?_⟩
        · cases hreceiver : call.receiver with
          | none =>
              rw [hreceiver] at htype
              cases htype
          | some receiver =>
              rw [hreceiver] at htype
              exact isResolved_of_receiverType htype
        · rw [IsTargetIn, if_pos hkind]
          exact mem_of_mem_selectOverloads ht
  · cases hreceiver : call.receiver with
    | none =>
        rw [resolve_of_unqualified hkind hreceiver] at ht ⊢
        obtain ⟨u, hu, hnamed, htarget⟩ := isTargetIn_of_resolveUnqualified hkind ht
        exact ⟨u, hu, .inl hnamed, htarget⟩
    | some receiver =>
        rw [resolve_of_receiver hkind hreceiver] at ht ⊢
        unfold resolveQualified at ht ⊢
        cases htype : ((ofFiles files).receiverType view receiver).type with
        | none =>
            rw [htype] at ht
            cases ht
        | some u =>
            rw [htype] at ht
            refine ⟨u, rfl, isResolved_of_receiverType htype, ?_⟩
            rw [IsTargetIn, if_neg hkind]
            exact mem_of_mem_selectOverloads ht

theorem isSubtypeOrSelf_of_id_eq {t u : TypeSymbol} (hid : t.id = u.id) :
    index.isSubtypeOrSelf t u = true := by
  unfold isSubtypeOrSelf ancestors
  unfold Walk.visit
  simp only [List.contains_nil, Bool.false_eq_true, if_false]
  split
  · simp [hid]
  · simp [hid]

/-- A target is known, and it is declared in the type of the receiver or above. -/
theorem IsTargetIn.owner {u : TypeSymbol} (hu : (ofFiles files).IsResolved u)
    (hnames : ∀ k entry, (ofFiles files).type? k = some entry → k ≠ "")
    (ht : (ofFiles files).IsTargetIn call u t) :
    (ofFiles files).IsKnown t ∧ (ofFiles files).isSubtypeOrSelf u t.owner = true := by
  unfold IsTargetIn at ht
  split at ht
  · have hdeclared := (List.mem_filter.mp ht).1
    obtain ⟨⟨entry, hentry, howner⟩, hindexed⟩ := owner_of_mem_methodsDeclaredBy hdeclared
    have hbinary : t.owner.binaryName = u.binaryName := by
      rw [howner, (symbol_of_type? hentry).2]
      exact (symbol_of_type? hentry).1
    have hname := hnames _ _ hentry
    refine ⟨⟨howner ▸ isNamed_symbol hentry, .inr hindexed⟩, isSubtypeOrSelf_of_id_eq ?_⟩
    rw [id_eq_binaryName hname, id_eq_binaryName (hbinary ▸ hname), hbinary]
  · obtain ⟨above, habove, hdeclared, -⟩ := mem_members ht
    have hresolved := isResolved_of_mem_ancestors hu habove
    obtain ⟨hid, hknown⟩ := owner_of_mem_declaredMethods hresolved hdeclared
    exact ⟨hknown, List.any_eq_true.mpr ⟨above, habove, beq_iff_eq.mpr hid.symm⟩⟩

theorem IsTargetIn.kind {u : TypeSymbol} (ht : index.IsTargetIn call u t) :
    (call.kind == .creation) = t.isConstructor := by
  unfold IsTargetIn at ht
  split at ht
  next hkind =>
    have hconstructor := (List.mem_filter.mp ht).2
    simp only [Bool.and_eq_true] at hconstructor
    rw [hkind, hconstructor.1]
    rfl
  next hkind =>
    obtain ⟨-, -, -, -, hconstructor⟩ := mem_members ht
    rw [hconstructor]
    exact beq_false_of_ne hkind

end CodeIndex

namespace Snapshot

variable {scope : Scope}

/-- A recorded call in scope that may call `t`. -/
structure Resolves (files : List FileFacts) (scope : Scope) (call : IndexedCall)
    (t : Method) : Prop where
  recorded : call ∈ files.flatMap (resolveCalls (CodeIndex.ofFiles files))
  inScope : scope.contains call.call.location = true
  target : t ∈ call.resolved.targets

namespace Resolves

variable {call : IndexedCall} {t : Method}

theorem isTargetIn (h : Resolves files scope call t) :
    ∃ u, call.resolved.receiver = some u ∧ (CodeIndex.ofFiles files).IsResolved u ∧
      (CodeIndex.ofFiles files).IsTargetIn call.call u t := by
  obtain ⟨file, -, hcall⟩ := List.mem_flatMap.mp h.recorded
  obtain ⟨invocation, -, rfl⟩ := List.mem_map.mp hcall
  exact CodeIndex.isTargetIn_of_resolve h.target

theorem mem_calls (h : Resolves files scope call t) {m : Method} :
    call ∈ (ofFiles files scope).calls.getD m.name [] ↔ call.call.name = m.name := by
  rw [calls_getD, List.mem_filter, beq_iff_eq, and_iff_right h.recorded]

/-- A method is called by its name; a constructor goes by the name of its type, which a
creation may write in another way. -/
theorem name_eq (h : Resolves files scope call t) (hkind : call.call.kind ≠ .creation) :
    call.call.name = t.name := by
  obtain ⟨u, -, -, htarget⟩ := h.isTargetIn
  rw [CodeIndex.IsTargetIn, if_neg hkind] at htarget
  obtain ⟨-, -, -, hname, -⟩ := CodeIndex.mem_members htarget
  exact hname.symm

theorem accepts_self (h : Resolves files scope call t) :
    (ofFiles files scope).accepts t none call =
      (!(ofFiles files scope).isInDocComment call.call.location &&
        (receiverOf call).all ((ofFiles files scope).answers.related t.owner)) := by
  obtain ⟨u, -, -, htarget⟩ := h.isTargetIn
  have hmay : mayCall t call = true :=
    mayCall_of_contains (List.contains_iff_exists_mem_beq.mpr ⟨t, h.target, BEq.rfl⟩)
  have hscope : (ofFiles files scope).scope.contains call.call.location = true := h.inScope
  unfold accepts Answers.accepts
  rw [htarget.kind, hscope, hmay, BEq.rfl]
  simp [toCallSite, answers]

/-- The receiver of a call on an object or a type is related to the owner of every target. -/
theorem related_of_receiver (h : Resolves files scope call t)
    (hnames : ∀ k entry, (CodeIndex.ofFiles files).type? k = some entry → k ≠ "")
    (hqualified : call.call.receiver.isSome = true) :
    (receiverOf call).all ((ofFiles files scope).answers.related t.owner) = true := by
  obtain ⟨u, hu, hresolved, htarget⟩ := h.isTargetIn
  obtain ⟨receiver, hreceiver⟩ := Option.isSome_iff_exists.mp hqualified
  have hsubtype := (htarget.owner hresolved hnames).2
  unfold receiverOf
  rw [hreceiver]
  simp only [hu, Option.all_some]
  exact related_of_isSubtypeOrSelf (.inr hsubtype)

theorem related_of_targets (h : Resolves files scope call t)
    (hqualified : call.call.receiver = none)
    (htargets : ∀ other ∈ call.resolved.targets,
      (ofFiles files scope).index.isSubtypeOrSelf t.owner other.owner = true ∨
        (ofFiles files scope).index.isSubtypeOrSelf other.owner t.owner = true) :
    (receiverOf call).all ((ofFiles files scope).answers.related t.owner) = true := by
  -- A call without a receiver is reported with the owner of its first target.
  cases hresolved : call.resolved.targets with
  | nil =>
      have ht := h.target
      rw [hresolved] at ht
      cases ht
  | cons first others =>
      have hfirst : first ∈ call.resolved.targets := by
        rw [hresolved]
        exact List.mem_cons_self
      unfold receiverOf
      rw [hqualified, hresolved]
      simp only [Option.all_some]
      exact related_of_isSubtypeOrSelf (htargets first hfirst)

/-- The call counts for a target when it is recorded under the name of the target, and its
receiver is related to the owner of the target or the call passes for one of its roots. -/
theorem countsFor_iff (h : Resolves files scope call t)
    (hnames : ∀ k entry, (CodeIndex.ofFiles files).type? k = some entry → k ≠ "") :
    (ofFiles files scope).CountsFor t call ↔
      (ofFiles files scope).isInDocComment call.call.location = false ∧
        call.call.name = t.name ∧
        ((receiverOf call).all ((ofFiles files scope).answers.related t.owner) = true ∨
          ∃ root ∈ (ofFiles files scope).index.roots t,
            (ofFiles files scope).accepts root (some t.owner) call = true) := by
  obtain ⟨u, -, hresolved, htarget⟩ := h.isTargetIn
  have hknown := (htarget.owner hresolved hnames).1
  have hname : ∀ root ∈ (ofFiles files scope).index.roots t, root.name = t.name := fun root hroot =>
    (CodeIndex.isKnown_of_overrides hknown (CodeIndex.overrides_of_mem_roots hroot).1).2.1
  unfold CountsFor
  constructor
  · rintro ⟨place, hplace, hcall, haccepts⟩
    rw [h.mem_calls] at hcall
    rcases List.mem_cons.mp hplace with rfl | hplace
    · simp only [h.accepts_self, Bool.and_eq_true, Bool.not_eq_true'] at haccepts
      exact ⟨haccepts.1, hcall, .inl haccepts.2⟩
    · obtain ⟨root, hroot, rfl⟩ := List.mem_map.mp hplace
      have hcomment := haccepts
      simp only [accepts, Answers.accepts, Bool.and_eq_true, Bool.not_eq_true'] at hcomment
      exact ⟨hcomment.2.1, hcall.trans (hname root hroot), .inr ⟨root, hroot, haccepts⟩⟩
  · rintro ⟨hcomment, hcall, hself | ⟨root, hroot, haccepts⟩⟩
    · refine ⟨(t, none), List.mem_cons_self, h.mem_calls.mpr hcall, ?_⟩
      rw [h.accepts_self, hcomment, hself]
      rfl
    · have hplace : (root, some t.owner) ∈ (t, none) ::
          ((ofFiles files scope).index.roots t).map fun root => (root, some t.owner) :=
        List.mem_cons_of_mem _ (List.mem_map.mpr ⟨root, hroot, rfl⟩)
      exact ⟨(root, some t.owner), hplace, h.mem_calls.mpr (hcall.trans (hname root hroot).symm),
        haccepts⟩

/-- A call outside of comments counts for a target that bears the name it writes, if it is
made on a receiver or the owners of its targets are related to that of this target. -/
theorem countsFor (h : Resolves files scope call t)
    (hnames : ∀ k entry, (CodeIndex.ofFiles files).type? k = some entry → k ≠ "")
    (hcomment : (ofFiles files scope).isInDocComment call.call.location = false)
    (hname : call.call.kind = .creation → call.call.name = t.name)
    (htargets : call.call.receiver = none → ∀ other ∈ call.resolved.targets,
      (ofFiles files scope).index.isSubtypeOrSelf t.owner other.owner = true ∨
        (ofFiles files scope).index.isSubtypeOrSelf other.owner t.owner = true) :
    (ofFiles files scope).CountsFor t call := by
  refine (h.countsFor_iff hnames).mpr ⟨hcomment, ?_, .inl ?_⟩
  · by_cases hkind : call.call.kind = .creation
    · exact hname hkind
    · exact h.name_eq hkind
  · cases hqualified : call.call.receiver with
    | none => exact h.related_of_targets hqualified (htargets hqualified)
    | some receiver =>
        exact h.related_of_receiver hnames (by rw [hqualified]; rfl)

end Resolves

/-- A call in a method `g` that may call `t`.  Collecting the callers of `t` succeeds, and they
are the methods around the calls that count for `t`.  This call is one of them exactly when it
stands in no comment, is recorded under the name of `t`, and has a receiver that is related to
the owner of `t` or passes for one of the roots of `t`.  In particular `g` is among the callers
when the call is made on a receiver, or has no targets in types that are unrelated to that
owner. -/
theorem callersOf_target_iff {call : IndexedCall} {t g : Method}
    (hresolves : Resolves files scope call t)
    (hnames : ∀ k entry, (CodeIndex.ofFiles files).type? k = some entry → k ≠ "")
    (hg : (ofFiles files scope).enclosingMethod call.call.location = some g) (finder : Finder)
    {watcher : Watcher ρ}
    (hwatcher : Undisturbed ((ofFiles files scope).knowledgeBase : KnowledgeBase σ) watcher)
    {s : RunState σ ρ} (hempty : ∀ key, s.cache.get? key = none) :
    ((ofFiles files scope).CountsFor t call ↔
      (ofFiles files scope).isInDocComment call.call.location = false ∧
        call.call.name = t.name ∧
        ((receiverOf call).all ((ofFiles files scope).answers.related t.owner) = true ∨
          ∃ root ∈ (ofFiles files scope).index.roots t,
            (ofFiles files scope).accepts root (some t.owner) call = true)) ∧
    ∃ callers,
      ((finder.setting (ofFiles files scope).knowledgeBase scope
        (Run.checkpoint (ofFiles files scope).knowledgeBase watcher)).callersOf t none s).1 =
          .ok callers ∧
      (∀ key, key ∈ callers.map Method.key ↔
        ∃ other, (ofFiles files scope).CountsFor t other ∧
          ∃ caller, (ofFiles files scope).enclosingMethod other.call.location = some caller ∧
            caller.key = key) ∧
      ((ofFiles files scope).CountsFor t call → g.key ∈ callers.map Method.key) ∧
      ((ofFiles files scope).isInDocComment call.call.location = false →
        (call.call.kind = .creation → call.call.name = t.name) →
        (call.call.receiver = none → ∀ other ∈ call.resolved.targets,
          (ofFiles files scope).index.isSubtypeOrSelf t.owner other.owner = true ∨
            (ofFiles files scope).index.isSubtypeOrSelf other.owner t.owner = true) →
        g.key ∈ callers.map Method.key) := by
  have hfound : (ofFiles files scope).CountsFor t call →
      g.key ∈ ((ofFiles files scope).answers.callers t).map Method.key :=
    fun hcall => mem_keys_callers.mpr ⟨call, hcall, g, hg, rfl⟩
  refine ⟨hresolves.countsFor_iff hnames, (ofFiles files scope).answers.callers t, ?_,
    fun _ => mem_keys_callers, hfound, fun hcomment hname htargets => ?_⟩
  · exact (hwatcher.parts_eq finder (ofFiles files scope).follows_answers t hempty).2.1
  · exact hfound (hresolves.countsFor hnames hcomment hname htargets)

end Snapshot

/-! ## A class with two unrelated parents -/

namespace TwoParents

open CodeIndex

def typeDecl (name : String) (superclass : Option String) (interfaces : List String) :
    TypeDecl where
  binaryName := name
  name
  qualifiedName := some name
  superclass
  interfaces

def methodDecl (owner name : String) (parameters : List String) (location : Option Location) :
    MethodDecl where
  id := owner ++ "." ++ name
  owner
  name
  parameters
  location

def callDecl : Invocation :=
  ⟨.call, "f", some 1, none, some "Child", none, ⟨"Parents.java", 3, 50, 58⟩, some [none]⟩

def around : Option Location := some ⟨"Parents.java", 3, 40, 60⟩

/-- `Child` inherits an `f` from either parent, and its method `g` calls `f` with an argument
of which nothing is known. -/
def facts : FileFacts where
  file := "Parents.java"
  relativePath := "Parents.java"
  types := [typeDecl "Base" none [], typeDecl "Side" none [],
    typeDecl "Child" (some "Base") ["Side"]]
  methods := [methodDecl "Base" "f" ["String"] none, methodDecl "Side" "f" ["Integer"] none,
    methodDecl "Child" "g" [] around]
  invocations := [callDecl]

def base : TypeEntry := ⟨symbolOf (typeDecl "Base" none []), typeDecl "Base" none [], facts⟩

def side : TypeEntry := ⟨symbolOf (typeDecl "Side" none []), typeDecl "Side" none [], facts⟩

def child : TypeEntry :=
  ⟨symbolOf (typeDecl "Child" (some "Base") ["Side"]), typeDecl "Child" (some "Base") ["Side"],
    facts⟩

def baseMethod : Method := methodOf base.symbol (methodDecl "Base" "f" ["String"] none)

def sideMethod : Method := methodOf side.symbol (methodDecl "Side" "f" ["Integer"] none)

def caller : Method := methodOf child.symbol (methodDecl "Child" "g" [] around)

def call : IndexedCall := ⟨callDecl, ⟨some child.symbol, true, [baseMethod, sideMethod]⟩⟩

def index : CodeIndex := ofFiles [facts]

def snapshot : Snapshot := Snapshot.ofFiles [facts] { testRoots := [] }

theorem type?_eq : index.type? "Base" = some base ∧ index.type? "Side" = some side ∧
    index.type? "Child" = some child := by
  simp only [index, type?_ofFiles]
  exact ⟨rfl, rfl, rfl⟩

theorem size_eq : index.types.size = 3 := by
  change (typesOf [facts]).keys.length = 3
  rw [typesOf, Table.keys_ofList (by decide)]
  rfl

theorem qualified?_eq : index.qualified? "Base" = some base ∧
    index.qualified? "Side" = some side := by
  obtain ⟨hbase, hside, -⟩ := type?_eq
  simp only [index, qualified?_ofFiles]
  exact ⟨hbase, hside⟩

theorem declared_of_type? {k : String} {entry : TypeEntry}
    (hentry : index.type? k = some entry) :
    entry.decl.binaryName ∈ ["Base", "Side", "Child"] ∧ entry.decl.typeParameters = [] := by
  rw [index, type?_ofFiles] at hentry
  have hmem := List.mem_of_find?_eq_some hentry
  simp only [typeEntries, facts, List.flatMap_cons, List.flatMap_nil, List.map_cons,
    List.map_nil, List.append_nil, List.mem_reverse, List.mem_cons, List.not_mem_nil,
    or_false] at hmem
  rcases hmem with rfl | rfl | rfl
  · simp [typeDecl]
  · simp [typeDecl]
  · simp [typeDecl]

theorem methodEntries_eq : methodEntries (typesOf [facts]) [facts] =
    [(baseMethod, ⟨methodDecl "Base" "f" ["String"] none, facts⟩),
      (sideMethod, ⟨methodDecl "Side" "f" ["Integer"] none, facts⟩),
      (caller, ⟨methodDecl "Child" "g" [] around, facts⟩)] := by
  obtain ⟨hbase, hside, hchild⟩ := type?_eq
  change (typesOf [facts]).get? "Base" = some base at hbase
  change (typesOf [facts]).get? "Side" = some side at hside
  change (typesOf [facts]).get? "Child" = some child at hchild
  generalize typesOf [facts] = types at hbase hside hchild ⊢
  unfold methodEntries
  rw [List.flatMap_cons, List.flatMap_nil, List.append_nil]
  unfold facts
  simp only [List.filterMap_cons, methodDecl, hbase, hside, hchild]
  rfl

theorem isTypeVariable_eq {text : String} {m : Method}
    (htext : Library.isTypeVariable (variableName text) = false) :
    index.isTypeVariable text m = false := by
  unfold isTypeVariable
  cases hentry : index.entryOf m with
  | none => exact htext
  | some entry =>
      have hplain : entry.decl.typeParameters = [] := by
        change (Table.ofList (methodEntries (typesOf [facts]) [facts])).get? m = _ at hentry
        rw [methodEntries_eq, Table.get?_ofList, Option.map_eq_some_iff] at hentry
        obtain ⟨found, hfound, rfl⟩ := hentry
        have hmem := List.mem_of_find?_eq_some hfound
        simp only [List.mem_reverse, List.mem_cons, List.not_mem_nil, or_false] at hmem
        rcases hmem with rfl | rfl | rfl
        · rfl
        · rfl
        · rfl
      have houter : ((index.ownersFrom (some entry.decl.owner)).any fun owner =>
          declares (variableName text) owner.decl.typeParameters) = false := by
        rw [List.any_eq_false]
        intro owner howner
        obtain ⟨k, hk⟩ := exists_type?_of_mem_outward howner
        rw [(declared_of_type? hk).2]
        simp [declares]
      simp only [hplain, houter]
      rfl

theorem directSupertypes_eq : index.directSupertypes base.symbol = [] ∧
    index.directSupertypes side.symbol = [] ∧
    index.directSupertypes child.symbol = [base.symbol, side.symbol] := by
  obtain ⟨hbase, hside, hchild⟩ := type?_eq
  have hparameter : ∀ name, index.typeParameter name (headView child) = none :=
    typeParameter_eq_none (fun k entry hentry => (declared_of_type? hentry).2)
      (by simp [headView])
  have hresolveBase : index.resolveType "Base" (headView child) = some base.symbol :=
    resolveType_of_qualified? (by decide) hparameter qualified?_eq.1
  have hresolveSide : index.resolveType "Side" (headView child) = some side.symbol :=
    resolveType_of_qualified? (by decide) hparameter qualified?_eq.2
  refine ⟨directSupertypes_symbol hbase (by decide), directSupertypes_symbol hside (by decide),
    ?_⟩
  rw [index, directSupertypes_symbol hchild (by decide), ← index]
  unfold declaredSupertypes
  rw [show supertypeTexts child.decl = ["Base", "Side"] by decide, List.filterMap_cons,
    hresolveBase, List.filterMap_cons, hresolveSide]
  rfl

theorem ancestors_eq : index.ancestors base.symbol = [base.symbol] ∧
    index.ancestors side.symbol = [side.symbol] ∧
    index.ancestors child.symbol = [child.symbol, base.symbol, side.symbol] := by
  obtain ⟨hbase, hside, hchild⟩ := directSupertypes_eq
  have hids : base.symbol.id = "Base" ∧ side.symbol.id = "Side" ∧
      child.symbol.id = "Child" := by decide
  have hweights : base.symbol.weight = 0 ∧ side.symbol.weight = 0 ∧
      child.symbol.weight = 0 := ⟨rfl, rfl, rfl⟩
  unfold ancestors
  rw [size_eq]
  simp [Walk.visit, Walk.load, hbase, hside, hchild, hids, hweights]

theorem declaredMethods_eq : index.declaredMethods base.symbol = [baseMethod] ∧
    index.declaredMethods side.symbol = [sideMethod] ∧
    index.declaredMethods child.symbol = [caller] := by
  unfold declaredMethods
  rw [if_neg (by decide), if_neg (by decide), if_neg (by decide)]
  simp only [index, methodsDeclaredBy_ofFiles, methodEntries_eq]
  exact ⟨rfl, rfl, rfl⟩

theorem overrides_eq : index.overrides baseMethod sideMethod = false := by
  have hvariable : index.isTypeVariable "Integer" sideMethod = false :=
    isTypeVariable_eq (by decide)
  change (_ && ((_ || index.isTypeVariable "Integer" sideMethod) && true)) = false
  rw [hvariable]
  decide

theorem members_eq : index.members child.symbol "f" (some 1) = [baseMethod, sideMethod] := by
  obtain ⟨hbase, hside, hchild⟩ := declaredMethods_eq
  have hhidden : index.isHidden side.symbol sideMethod [baseMethod] = false := by
    simp [isHidden, overrides_eq]
  unfold members
  rw [ancestors_eq.2.2]
  simp only [List.foldl_cons, List.foldl_nil, addDeclared, hbase, hside, hchild]
  change (if index.isHidden side.symbol sideMethod [baseMethod] = true then _ else _) = _
  rw [hhidden]
  rfl

theorem resolveCalls_eq : [facts].flatMap (Snapshot.resolveCalls index) = [call] := by
  have howners (view : Viewpoint) (hview : view.owner = some "Child") :
      ∃ outer, index.ownersFrom view.owner = child :: outer := by
    rw [hview, ownersFrom, size_eq]
    unfold outward
    rw [if_neg (by decide), type?_eq.2.2]
    exact ⟨_, rfl⟩
  have hfor (view : Viewpoint) :
      index.membersFor child.symbol callDecl view = [baseMethod, sideMethod] := by
    unfold membersFor narrowed
    rw [show callDecl.name = "f" from rfl, show callDecl.argumentCount = some 1 from rfl,
      members_eq]
    rfl
  rw [List.flatMap_cons, List.flatMap_nil, List.append_nil]
  unfold Snapshot.resolveCalls
  change [(⟨callDecl, index.resolve _ callDecl⟩ : IndexedCall)] = [call]
  rw [resolve_of_unqualified (by decide) rfl]
  obtain ⟨outer, houter⟩ := howners (index.viewOf facts callDecl.owner callDecl.method) rfl
  unfold resolveUnqualified
  rw [houter, List.findSome?_cons, hfor]
  rfl

theorem enclosingMethod_eq : snapshot.enclosingMethod call.call.location = some caller := by
  change narrowestAround _ (index.methodsOfFile "Parents.java") = _
  rw [index, methodsOfFile_ofFiles, methodEntries_eq]
  rfl

theorem resolves : Snapshot.Resolves [facts] { testRoots := [] } call sideMethod where
  recorded := by
    change call ∈ [facts].flatMap (Snapshot.resolveCalls index)
    rw [resolveCalls_eq]
    exact List.mem_singleton_self call
  inScope := rfl
  target := by simp [call]

theorem type?_ne_empty : ∀ k entry, index.type? k = some entry → k ≠ "" := by
  intro k entry hentry
  have hmem := (declared_of_type? hentry).1
  rw [(symbol_of_type? hentry).1] at hmem
  rintro rfl
  simp at hmem

theorem roots_eq : index.roots sideMethod = [] := by
  have hoverridden : index.overriddenBy sideMethod = [] := by
    unfold overriddenBy
    rw [show sideMethod.owner = side.symbol from rfl, directSupertypes_eq.2.1]
    rfl
  unfold roots
  rw [hoverridden]
  simp [Walk.visit]

theorem related_eq :
    (Snapshot.receiverOf call).all (snapshot.answers.related sideMethod.owner) = false := by
  change (index.isSubtypeOrSelf side.symbol base.symbol ||
    index.isSubtypeOrSelf base.symbol side.symbol || _) = false
  unfold isSubtypeOrSelf
  rw [ancestors_eq.1, ancestors_eq.2.1]
  decide

end TwoParents

open TwoParents in
/-- The call in `g` may mean either `f`, but `g` is among the callers of the first alone. -/
theorem undecided_call_missed :
    (∃ u, call.resolved = ⟨u, true, [baseMethod, sideMethod]⟩) ∧
    ∃ callers,
      (((default : Finder).setting snapshot.knowledgeBase snapshot.scope
        (Run.checkpoint snapshot.knowledgeBase Watcher.idle)).callersOf sideMethod none
          (⟨(), (), {}⟩ : RunState Unit Unit)).1 = .ok callers ∧
      caller.key ∉ callers.map Method.key := by
  have hundisturbed : Undisturbed (snapshot.knowledgeBase : KnowledgeBase Unit)
      (Watcher.idle : Watcher Unit) := undisturbed_idle fun _ => rfl
  obtain ⟨hcounts, callers, hcallers, hkeys, -⟩ :=
    Snapshot.callersOf_target_iff resolves type?_ne_empty enclosingMethod_eq default hundisturbed
      (s := ⟨(), (), {}⟩) CallerCache.get?_new
  refine ⟨⟨_, rfl⟩, callers, hcallers, ?_⟩
  rw [hkeys]
  rintro ⟨other, hother, -⟩
  have hsame : other = call := by
    have hmem : other ∈ [facts].flatMap (Snapshot.resolveCalls index) := hother.recorded
    rw [resolveCalls_eq] at hmem
    exact List.mem_singleton.mp hmem
  rw [hsame, hcounts] at hother
  obtain ⟨-, -, hrelated | ⟨root, hroot, -⟩⟩ := hother
  · change (Snapshot.receiverOf call).all (snapshot.answers.related sideMethod.owner) = true
      at hrelated
    rw [related_eq] at hrelated
    cases hrelated
  · change root ∈ index.roots sideMethod at hroot
    rw [roots_eq] at hroot
    cases hroot

end EntryPoints

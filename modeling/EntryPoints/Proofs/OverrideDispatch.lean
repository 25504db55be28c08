import EntryPoints.Proofs.CallTargets
import EntryPoints.Proofs.OverrideRoots
import EntryPoints.Proofs.SearchReplay

/-!
# Calls that reach an overriding method

A call on a receiver reaches every method that overrides its target and that the
receiver may hold.  The callers of a method are looked for at the call sites of the
method itself and at those of its roots, so the call counts exactly when one of
these is among its targets.  A target in the middle, which the method overrides and
which overrides others itself, is at neither end, and the caller is lost.
-/

namespace EntryPoints

variable {σ ρ : Type}

/-! ## Where callers are looked for -/

namespace Snapshot

variable (snapshot : Snapshot)

def answers : Answers where
  callSites m scope := snapshot.callSites m scope
  overriddenRoots m := snapshot.index.roots m
  functionalImplementations t scope := snapshot.functionalImplementations t scope
  enclosingMethod place := snapshot.enclosingMethod place
  isSubtypeOrSelf sub sup := snapshot.index.isSubtypeOrSelf sub sup
  isInDocComment place := snapshot.isInDocComment place
  productionScope := snapshot.scope
  methodsNamed owner name := snapshot.methodsNamed owner name

theorem follows_answers :
    (snapshot.knowledgeBase : KnowledgeBase σ).Follows snapshot.answers where
  callSites _ _ _ := rfl
  overriddenRoots _ _ := rfl
  functionalImplementations _ _ _ := rfl
  enclosingMethod _ _ := rfl
  isSubtypeOrSelf _ _ _ := rfl
  isInDocComment _ _ := rfl
  productionScope _ := rfl
  methodsNamed _ _ _ := rfl

/-- Whether a recorded call passes for a call of `m`, on behalf of an implementation if one
is given. -/
def accepts (m : Method) (implementation : Option TypeSymbol) (call : IndexedCall) : Bool :=
  (call.call.kind == .creation) == m.isConstructor &&
    snapshot.scope.contains call.call.location && mayCall m call &&
    snapshot.answers.accepts m.owner implementation (toCallSite call)

/-- The call is found when the callers of `m` are looked for, at `m` or at one of its roots. -/
def CountsFor (m : Method) (call : IndexedCall) : Prop :=
  ∃ place ∈ (m, none) :: (snapshot.index.roots m).map fun root => (root, some m.owner),
    call ∈ snapshot.calls.getD place.1.name [] ∧
      snapshot.accepts place.1 place.2 call = true

variable {snapshot}

theorem mem_directCallers {m caller : Method} {implementation : Option TypeSymbol} :
    caller ∈ snapshot.answers.directCallers m implementation ↔
      ∃ call ∈ snapshot.calls.getD m.name [], snapshot.accepts m implementation call = true ∧
        snapshot.enclosingMethod call.call.location = some caller := by
  unfold Answers.directCallers
  rw [List.mem_filterMap]
  change (∃ site ∈ snapshot.callSites m snapshot.scope, _) ↔ _
  simp only [callSites, List.mem_map, List.mem_filter, Bool.and_eq_true]
  constructor
  · rintro ⟨_, ⟨call, ⟨hcall, htest⟩, rfl⟩, hcaller⟩
    unfold Answers.callerAt at hcaller
    split at hcaller
    next haccepts =>
      refine ⟨call, hcall, ?_, hcaller⟩
      simp only [accepts, Bool.and_eq_true]
      exact ⟨htest, haccepts⟩
    next => cases hcaller
  · rintro ⟨call, hcall, haccepts, hcaller⟩
    simp only [accepts, Bool.and_eq_true] at haccepts
    refine ⟨toCallSite call, ⟨call, ⟨hcall, haccepts.1⟩, rfl⟩, ?_⟩
    unfold Answers.callerAt
    rw [if_pos haccepts.2]
    exact hcaller

theorem mem_keys_callers {m : Method} {key : String} :
    key ∈ (snapshot.answers.callers m).map Method.key ↔
      ∃ call, snapshot.CountsFor m call ∧
        ∃ caller, snapshot.enclosingMethod call.call.location = some caller ∧
          caller.key = key := by
  unfold Answers.callers
  rw [mem_keys_firstOfKeys, List.mem_map]
  simp only [List.mem_append, List.mem_flatMap, mem_directCallers, CountsFor, List.mem_cons,
    List.mem_map]
  constructor
  · rintro ⟨caller, ⟨call, hcall, haccepts, hcaller⟩ |
      ⟨root, hroot, call, hcall, haccepts, hcaller⟩, hkey⟩
    · exact ⟨call, ⟨(m, none), .inl rfl, hcall, haccepts⟩, caller, hcaller, hkey⟩
    · exact ⟨call, ⟨(root, some m.owner), .inr ⟨root, hroot, rfl⟩, hcall, haccepts⟩, caller,
        hcaller, hkey⟩
  · rintro ⟨call, ⟨_, rfl | ⟨root, hroot, rfl⟩, hcall, haccepts⟩, caller, hcaller, hkey⟩
    · exact ⟨caller, .inl ⟨call, hcall, haccepts, hcaller⟩, hkey⟩
    · exact ⟨caller, .inr ⟨root, hroot, call, hcall, haccepts, hcaller⟩, hkey⟩

/-! ## Which sites count -/

theorem related_of_isSubtypeOrSelf {expected receiver : TypeSymbol}
    (hsubtype : snapshot.index.isSubtypeOrSelf expected receiver = true ∨
      snapshot.index.isSubtypeOrSelf receiver expected = true) :
    snapshot.answers.related expected receiver = true := by
  unfold Answers.related Answers.comparable answers
  rcases hsubtype with h | h
  · simp [h]
  · simp [h]

/-- A type that is no type parameter with bounds may hold an object of every subtype. -/
theorem compatible_of_isSubtypeOrSelf {implementation receiver : TypeSymbol}
    (hbounds : receiver.bounds = [])
    (hsubtype : snapshot.index.isSubtypeOrSelf implementation receiver = true) :
    snapshot.answers.compatible implementation receiver = true := by
  cases receiver
  subst hbounds
  unfold Answers.compatible
  split
  · rfl
  · split
    · rfl
    · exact hsubtype

/-- A call on a receiver that the relations between types let pass is accepted unless it stands
in a comment or calls something else. -/
theorem accepts_eq {m : Method} {implementation : Option TypeSymbol} {call : IndexedCall}
    {t : TypeSymbol} (hscope : snapshot.scope.contains call.call.location = true)
    (hqualified : call.call.receiver.isSome = true) (ht : call.resolved.receiver = some t)
    (hrelated : snapshot.answers.related m.owner t = true)
    (hcompatible : (implementation.all fun owner => snapshot.answers.compatible owner t) = true) :
    snapshot.accepts m implementation call =
      ((call.call.kind == .creation) == m.isConstructor && mayCall m call &&
        !snapshot.isInDocComment call.call.location) := by
  have hreceiver : (toCallSite call).receiver = some t := by
    obtain ⟨receiver, hreceiver⟩ := Option.isSome_iff_exists.mp hqualified
    unfold toCallSite receiverOf
    rw [hreceiver]
    exact ht
  unfold accepts Answers.accepts
  rw [hreceiver, hscope, Option.all_some, hrelated, hcompatible, Bool.and_true, Bool.and_true,
    Bool.and_true]
  rfl

/-! ## Calls that an overriding method may receive -/

theorem calls_getD (files : List FileFacts) (scope : Scope) (name : String) :
    (ofFiles files scope).calls.getD name [] =
      (files.flatMap (resolveCalls (CodeIndex.ofFiles files))).filter (·.call.name == name) :=
  groupBy_getD _ _ _

theorem CountsFor.recorded {files : List FileFacts} {scope : Scope} {m : Method}
    {call : IndexedCall} (hcall : (ofFiles files scope).CountsFor m call) :
    call ∈ files.flatMap (resolveCalls (CodeIndex.ofFiles files)) := by
  obtain ⟨place, -, hrecorded, -⟩ := hcall
  rw [calls_getD] at hrecorded
  exact (List.mem_filter.mp hrecorded).1

/-- A recorded call in scope on a receiver of an indexed type `t` that may call `target`, and
an instance method `m` that overrides the target, directly or through others, in a subtype
of `t`. -/
structure Dispatch (files : List FileFacts) (scope : Scope) (call : IndexedCall)
    (t : TypeSymbol) (target m : Method) : Prop where
  recorded : call ∈ files.flatMap (resolveCalls (CodeIndex.ofFiles files))
  inScope : scope.contains call.call.location = true
  qualified : call.call.receiver.isSome = true
  receiver : call.resolved.receiver = some t
  indexedType : t ∈ (ofFiles files scope).types
  resolves : call.resolved.targets.contains target = true
  indexed : m ∈ (ofFiles files scope).methods
  notStatic : m.isStatic = false
  overrides : Relation.TransGen (ofFiles files scope).index.DirectlyOverrides m target
  subtype : (ofFiles files scope).index.isSubtypeOrSelf m.owner t = true

namespace Dispatch

variable {files : List FileFacts} {scope : Scope} {call : IndexedCall} {t : TypeSymbol}
  {target m : Method}

theorem isKnown (h : Dispatch files scope call t target m) :
    (CodeIndex.ofFiles files).IsKnown m := by
  obtain ⟨k, entry, hentry, howner⟩ := CodeIndex.owner_of_mem_allMethods h.indexed
  refine ⟨howner ▸ CodeIndex.isNamed_symbol hentry, .inr ?_⟩
  exact List.contains_iff_exists_mem_beq.mpr ⟨m, h.indexed, BEq.rfl⟩

theorem isNamed (h : Dispatch files scope call t target m) :
    (CodeIndex.ofFiles files).IsNamed t := by
  obtain ⟨k, entry, hentry, rfl⟩ := CodeIndex.exists_type?_of_mem_allTypes h.indexedType
  exact CodeIndex.isNamed_symbol hentry

theorem exists_target (h : Dispatch files scope call t target m) :
    ∃ found ∈ call.resolved.targets, found.name = m.name ∧ found.isConstructor = false := by
  obtain ⟨found, hfound, hsame⟩ := List.contains_iff_exists_mem_beq.mp h.resolves
  have hidentity := Method.beq_iff.mp hsame
  simp only [Method.identity, Prod.mk.injEq] at hidentity
  obtain ⟨-, hname, hconstructor⟩ := CodeIndex.isKnown_of_overrides h.isKnown h.overrides
  exact ⟨found, hfound, hidentity.2.1.symm.trans hname,
    hidentity.2.2.2.2.1.symm.trans hconstructor⟩

theorem targets_ne_nil (h : Dispatch files scope call t target m) :
    call.resolved.targets ≠ [] := by
  obtain ⟨found, hfound, -⟩ := h.exists_target
  exact List.ne_nil_of_mem hfound

theorem members (h : Dispatch files scope call t target m) :
    call.call.kind ≠ .creation ∧ ∀ n ∈ call.resolved.targets,
      n ∈ (CodeIndex.ofFiles files).members t call.call.name call.call.argumentCount := by
  obtain ⟨found, hfound, -, hconstructor⟩ := h.exists_target
  obtain ⟨file, -, hcall⟩ := List.mem_flatMap.mp h.recorded
  obtain ⟨invocation, -, rfl⟩ := List.mem_map.mp hcall
  exact CodeIndex.members_of_resolve h.qualified h.receiver hfound hconstructor

/-- Everything that shares its owner with a target is declared in the type of the receiver or
above. -/
theorem isSubtypeOrSelf_owner (h : Dispatch files scope call t target m) {n : Method}
    (hn : mayCall n call = true) :
    (CodeIndex.ofFiles files).isSubtypeOrSelf t n.owner = true := by
  obtain ⟨found, hfound, hid⟩ := exists_target_of_mayCall h.targets_ne_nil hn
  obtain ⟨u, hu, hdeclared, -⟩ := CodeIndex.mem_members (h.members.2 found hfound)
  have hresolved := CodeIndex.isResolved_of_mem_ancestors (.inl h.isNamed) hu
  refine List.any_eq_true.mpr ⟨u, hu, beq_iff_eq.mpr ?_⟩
  rw [← (CodeIndex.owner_of_mem_declaredMethods hresolved hdeclared).1, hid]

theorem name_eq (h : Dispatch files scope call t target m) : m.name = call.call.name := by
  obtain ⟨found, hfound, hname, -⟩ := h.exists_target
  obtain ⟨u, -, -, hmember, -⟩ := CodeIndex.mem_members (h.members.2 found hfound)
  rw [← hname, hmember]

theorem mem_calls (h : Dispatch files scope call t target m) :
    call ∈ (ofFiles files scope).calls.getD m.name [] := by
  rw [calls_getD, h.name_eq]
  exact List.mem_filter.mpr ⟨h.recorded, BEq.rfl⟩

theorem accepts_self (h : Dispatch files scope call t target m) :
    (ofFiles files scope).accepts m none call =
      (!m.isConstructor && mayCall m call &&
        !(ofFiles files scope).isInDocComment call.call.location) := by
  have hrelated : (ofFiles files scope).answers.related m.owner t = true :=
    related_of_isSubtypeOrSelf (.inl h.subtype)
  rw [accepts_eq h.inScope h.qualified h.receiver hrelated rfl, beq_false_of_ne h.members.1]
  cases m.isConstructor <;> rfl

/-- On behalf of `m`, a call passes for one of what `m` overrides when it may call it. -/
theorem accepts_overridden (h : Dispatch files scope call t target m) {top : Method}
    (htop : Relation.TransGen (CodeIndex.ofFiles files).DirectlyOverrides m top)
    (hcall : mayCall top call = true) :
    (ofFiles files scope).accepts top (some m.owner) call =
      !(ofFiles files scope).isInDocComment call.call.location := by
  have hrelated : (ofFiles files scope).answers.related top.owner t = true :=
    related_of_isSubtypeOrSelf (.inr (h.isSubtypeOrSelf_owner hcall))
  have hcompatible : ((some m.owner).all fun owner =>
      (ofFiles files scope).answers.compatible owner t) = true :=
    compatible_of_isSubtypeOrSelf (CodeIndex.bounds_eq_nil_of_isNamed h.isNamed) h.subtype
  rw [accepts_eq h.inScope h.qualified h.receiver hrelated hcompatible,
    beq_false_of_ne h.members.1, (CodeIndex.isKnown_of_overrides h.isKnown htop).2.2, hcall]
  rfl

/-- The call counts for `m` when `m` itself or something at the top of what it overrides is
among the targets; what lies in the middle does not help. -/
theorem countsFor_iff (h : Dispatch files scope call t target m) :
    (ofFiles files scope).CountsFor m call ↔
      m.isConstructor = false ∧
        (ofFiles files scope).isInDocComment call.call.location = false ∧
        (mayCall m call = true ∨
          ∃ top, Relation.TransGen (ofFiles files scope).index.DirectlyOverrides m top ∧
            (ofFiles files scope).index.overriddenBy top = [] ∧ mayCall top call = true) := by
  unfold CountsFor
  constructor
  · rintro ⟨_, hplace, hcall, haccepts⟩
    rcases List.mem_cons.mp hplace with rfl | hplace
    · simp only [h.accepts_self, Bool.and_eq_true, Bool.not_eq_true'] at haccepts
      exact ⟨haccepts.1.1, haccepts.2, .inl haccepts.1.2⟩
    · obtain ⟨root, hroot, rfl⟩ := List.mem_map.mp hplace
      obtain ⟨hoverrides, htop⟩ := CodeIndex.overrides_of_mem_roots hroot
      have hmay : mayCall root call = true := by
        simp only [accepts, Bool.and_eq_true] at haccepts
        exact haccepts.1.2
      rw [h.accepts_overridden hoverrides hmay, Bool.not_eq_true'] at haccepts
      exact ⟨CodeIndex.isConstructor_of_mem_roots hroot, haccepts,
        .inr ⟨root, hoverrides, htop, hmay⟩⟩
  · rintro ⟨hconstructor, hcomment, hmay | ⟨top, hoverrides, htop, hmay⟩⟩
    · refine ⟨(m, none), List.mem_cons_self, h.mem_calls, ?_⟩
      rw [h.accepts_self, hconstructor, hcomment, hmay]
      rfl
    · obtain ⟨root, hroot, hsame⟩ := CodeIndex.exists_mem_roots_of_overrides h.isKnown
        ⟨hconstructor, h.notStatic⟩ hoverrides htop
      have hreach := (CodeIndex.overrides_of_mem_roots hroot).1
      have hname : root.name = m.name := (CodeIndex.isKnown_of_overrides h.isKnown hreach).2.1
      refine ⟨(root, some m.owner), List.mem_cons_of_mem _ (List.mem_map.mpr ⟨root, hroot, rfl⟩),
        hname ▸ h.mem_calls, ?_⟩
      rw [h.accepts_overridden hreach ((mayCall_congr hsame call h.targets_ne_nil).trans hmay),
        hcomment]
      rfl

end Dispatch

/-- A call on a receiver, in a method `g`, that may call something which `m` overrides.
Collecting the callers of `m` succeeds, and they are the methods around the calls that count for
`m`.  The call is one of these exactly when it stands in no comment and may call `m` itself
or a method at the top of what `m` overrides; then `g` is among the callers.  In particular
this is so when the target itself overrides nothing. -/
theorem callersOf_override_iff {files : List FileFacts} {scope : Scope} {call : IndexedCall}
    {t : TypeSymbol} {target m g : Method} (hdispatch : Dispatch files scope call t target m)
    (hg : (ofFiles files scope).enclosingMethod call.call.location = some g) (finder : Finder)
    {watcher : Watcher ρ}
    (hwatcher : Undisturbed ((ofFiles files scope).knowledgeBase : KnowledgeBase σ) watcher)
    {s : RunState σ ρ} (hempty : ∀ key, s.cache.get? key = none) :
    ((ofFiles files scope).CountsFor m call ↔
      m.isConstructor = false ∧
        (ofFiles files scope).isInDocComment call.call.location = false ∧
        (mayCall m call = true ∨
          ∃ top, Relation.TransGen (ofFiles files scope).index.DirectlyOverrides m top ∧
            (ofFiles files scope).index.overriddenBy top = [] ∧ mayCall top call = true)) ∧
    ∃ callers,
      ((finder.setting (ofFiles files scope).knowledgeBase scope
        (Run.checkpoint (ofFiles files scope).knowledgeBase watcher)).callersOf m none s).1 =
          .ok callers ∧
      (∀ key, key ∈ callers.map Method.key ↔
        ∃ other, (ofFiles files scope).CountsFor m other ∧
          ∃ caller, (ofFiles files scope).enclosingMethod other.call.location = some caller ∧
            caller.key = key) ∧
      ((ofFiles files scope).CountsFor m call → g.key ∈ callers.map Method.key) ∧
      ((ofFiles files scope).index.overriddenBy target = [] → m.isConstructor = false →
        (ofFiles files scope).isInDocComment call.call.location = false →
          g.key ∈ callers.map Method.key) := by
  have hcounts := hdispatch.countsFor_iff
  have hfound : (ofFiles files scope).CountsFor m call →
      g.key ∈ ((ofFiles files scope).answers.callers m).map Method.key :=
    fun hcall => mem_keys_callers.mpr ⟨call, hcall, g, hg, rfl⟩
  refine ⟨hcounts, (ofFiles files scope).answers.callers m, ?_, fun _ => mem_keys_callers,
    hfound, fun htop hconstructor hcomment => hfound (hcounts.mpr ?_)⟩
  · exact (hwatcher.parts_eq finder (ofFiles files scope).follows_answers m hempty).2.1
  · exact ⟨hconstructor, hcomment, .inr ⟨target, hdispatch.overrides, htop,
      mayCall_of_contains hdispatch.resolves⟩⟩

end Snapshot

/-! ## A chain of three levels -/

namespace Levels

open CodeIndex

def typeDecl (name : String) (superclass : Option String) : TypeDecl where
  binaryName := name
  name
  qualifiedName := some name
  superclass

def methodDecl (owner name : String) (location : Option Location) : MethodDecl where
  id := owner ++ "." ++ name
  owner
  name
  location

def callDecl : Invocation :=
  ⟨.call, "f", some 0, some .this, some "Middle", none, ⟨"Levels.java", 3, 50, 58⟩, none⟩

/-- `Middle` and `Bottom` override the method `f` of the level above, and the method `g` of
`Middle` calls `f` on its own object. -/
def facts : FileFacts where
  file := "Levels.java"
  relativePath := "Levels.java"
  types := [typeDecl "Top" none, typeDecl "Middle" (some "Top"),
    typeDecl "Bottom" (some "Middle")]
  methods := [methodDecl "Top" "f" none, methodDecl "Middle" "f" none,
    methodDecl "Bottom" "f" none, methodDecl "Middle" "g" (some ⟨"Levels.java", 3, 40, 60⟩)]
  invocations := [callDecl]

def entry (name : String) (superclass : Option String) : TypeEntry :=
  ⟨symbolOf (typeDecl name superclass), typeDecl name superclass, facts⟩

def top : TypeEntry := entry "Top" none

def middle : TypeEntry := entry "Middle" (some "Top")

def bottom : TypeEntry := entry "Bottom" (some "Middle")

def method (level : TypeEntry) : Method :=
  methodOf level.symbol (methodDecl level.decl.name "f" none)

def caller : Method :=
  methodOf middle.symbol (methodDecl "Middle" "g" (some ⟨"Levels.java", 3, 40, 60⟩))

def call : IndexedCall := ⟨callDecl, ⟨some middle.symbol, true, [method middle]⟩⟩

def index : CodeIndex := ofFiles [facts]

def snapshot : Snapshot := Snapshot.ofFiles [facts] { testRoots := [] }

theorem type?_eq : index.type? "Top" = some top ∧ index.type? "Middle" = some middle ∧
    index.type? "Bottom" = some bottom := by
  simp only [index, type?_ofFiles]
  exact ⟨rfl, rfl, rfl⟩

theorem methodEntries_eq : methodEntries (typesOf [facts]) [facts] =
    [(method top, ⟨methodDecl "Top" "f" none, facts⟩),
      (method middle, ⟨methodDecl "Middle" "f" none, facts⟩),
      (method bottom, ⟨methodDecl "Bottom" "f" none, facts⟩),
      (caller, ⟨methodDecl "Middle" "g" (some ⟨"Levels.java", 3, 40, 60⟩), facts⟩)] := by
  obtain ⟨htop, hmiddle, hbottom⟩ := type?_eq
  change (typesOf [facts]).get? "Top" = some top at htop
  change (typesOf [facts]).get? "Middle" = some middle at hmiddle
  change (typesOf [facts]).get? "Bottom" = some bottom at hbottom
  generalize typesOf [facts] = types at htop hmiddle hbottom ⊢
  unfold methodEntries
  rw [List.flatMap_cons, List.flatMap_nil, List.append_nil]
  unfold facts
  simp only [List.filterMap_cons, methodDecl, htop, hmiddle, hbottom]
  rfl

theorem declaredMethods_eq : index.declaredMethods top.symbol = [method top] ∧
    index.declaredMethods middle.symbol = [method middle, caller] := by
  unfold declaredMethods
  rw [if_neg (by decide), if_neg (by decide)]
  simp only [index, methodsDeclaredBy_ofFiles, methodEntries_eq]
  exact ⟨rfl, rfl⟩

theorem directSupertypes_entry {name above : String} {found : TypeEntry}
    (htype : index.type? name = some (entry name (some above)))
    (habove : index.qualified? above = some found)
    (htext : TypeText.base above = above ∧ namesNoType above = false)
    (hother : above ≠ "" ∧ found.symbol.id ≠ name) :
    index.directSupertypes (entry name (some above)).symbol = [found.symbol] := by
  have hplain : ∀ k e, index.type? k = some e → e.decl.typeParameters = [] := by
    intro k e he
    rw [index, type?_ofFiles] at he
    have hmem := List.mem_of_find?_eq_some he
    simp only [typeEntries, facts, List.flatMap_cons, List.flatMap_nil, List.map_cons,
      List.map_nil, List.append_nil, List.mem_reverse, List.mem_cons, List.not_mem_nil,
      or_false] at hmem
    rcases hmem with rfl | rfl | rfl <;> rfl
  have hresolve : index.resolveType above (headView (entry name (some above))) =
      some found.symbol :=
    resolveType_of_qualified? htext (typeParameter_eq_none hplain (by simp [headView])) habove
  have htexts : supertypeTexts (entry name (some above)).decl = [above] := by
    simp [supertypeTexts, entry, typeDecl, hother.1]
  rw [index, directSupertypes_symbol htype (by simp [entry, typeDecl]), ← index]
  unfold declaredSupertypes
  rw [htexts, List.filterMap_cons, hresolve, Option.filter_some_pos]
  · rfl
  · exact decide_eq_true hother.2

theorem directSupertypes_eq : index.directSupertypes top.symbol = [] ∧
    index.directSupertypes middle.symbol = [top.symbol] ∧
    index.directSupertypes bottom.symbol = [middle.symbol] := by
  obtain ⟨htop, hmiddle, hbottom⟩ := type?_eq
  have hnamedTop : index.qualified? "Top" = some top := by
    rw [index, qualified?_ofFiles]
    exact htop
  have hnamedMiddle : index.qualified? "Middle" = some middle := by
    rw [index, qualified?_ofFiles]
    exact hmiddle
  exact ⟨directSupertypes_symbol htop (by decide),
    directSupertypes_entry hmiddle hnamedTop (by decide) (by decide),
    directSupertypes_entry hbottom hnamedMiddle (by decide) (by decide)⟩

theorem ancestors_eq : index.ancestors top.symbol = [top.symbol] ∧
    index.ancestors middle.symbol = [middle.symbol, top.symbol] ∧
    index.ancestors bottom.symbol = [bottom.symbol, middle.symbol, top.symbol] := by
  obtain ⟨htop, hmiddle, hbottom⟩ := directSupertypes_eq
  have hsize : index.types.size = 3 := by
    change (typesOf [facts]).keys.length = 3
    rw [typesOf, Table.keys_ofList (by decide)]
    rfl
  have hids : top.symbol.id = "Top" ∧ middle.symbol.id = "Middle" ∧
      bottom.symbol.id = "Bottom" := by decide
  have hweights : top.symbol.weight = 0 ∧ middle.symbol.weight = 0 ∧
      bottom.symbol.weight = 0 := ⟨rfl, rfl, rfl⟩
  unfold ancestors
  rw [hsize]
  simp [Walk.visit, Walk.load, htop, hmiddle, hbottom, hids, hweights]

theorem members_eq : index.members top.symbol "f" (some 0) = [method top] ∧
    index.members middle.symbol "f" (some 0) = [method middle] := by
  obtain ⟨htop, hmiddle, -⟩ := ancestors_eq
  obtain ⟨hdeclaredTop, hdeclaredMiddle⟩ := declaredMethods_eq
  unfold members
  rw [htop, hmiddle]
  simp only [List.foldl_cons, List.foldl_nil, addDeclared, hdeclaredTop, hdeclaredMiddle]
  exact ⟨rfl, rfl⟩

theorem overriddenBy_method {level above : TypeEntry}
    (hsuper : index.directSupertypes level.symbol = [above.symbol])
    (hmembers : index.members above.symbol "f" (some 0) = [method above]) :
    index.overriddenBy (method level) = [method above] := by
  unfold overriddenBy
  rw [show (method level).owner = level.symbol from rfl, hsuper, List.flatMap_cons,
    show (method level).name = "f" from rfl, show (method level).arity = 0 from rfl, hmembers]
  rfl

theorem overriddenBy_eq : index.overriddenBy (method top) = [] ∧
    index.overriddenBy (method middle) = [method top] ∧
    index.overriddenBy (method bottom) = [method middle] := by
  obtain ⟨htop, hmiddle, hbottom⟩ := directSupertypes_eq
  obtain ⟨hmembersTop, hmembersMiddle⟩ := members_eq
  refine ⟨?_, overriddenBy_method hmiddle hmembersTop,
    overriddenBy_method hbottom hmembersMiddle⟩
  unfold overriddenBy
  rw [show (method top).owner = top.symbol from rfl, htop]
  rfl

theorem eq_of_overrides {m : Method}
    (hm : Relation.TransGen index.DirectlyOverrides (method bottom) m) :
    m = method middle ∨ m = method top := by
  obtain ⟨htop, hmiddle, hbottom⟩ := overriddenBy_eq
  induction hm with
  | single hstep =>
      rw [DirectlyOverrides, hbottom, List.mem_singleton] at hstep
      exact .inl hstep
  | tail _ hstep ih =>
      rcases ih with rfl | rfl
      · rw [DirectlyOverrides, hmiddle, List.mem_singleton] at hstep
        exact .inr hstep
      · rw [DirectlyOverrides, htop] at hstep
        cases hstep

theorem resolveCalls_eq : [facts].flatMap (Snapshot.resolveCalls index) = [call] := by
  have hthis (view : Viewpoint) (hview : view.owner = some "Middle") :
      index.receiverType view .this = ⟨some middle.symbol, true⟩ := by
    have hown : index.ownType view = some middle := by
      rw [ownType, hview]
      exact type?_eq.2.1
    rw [receiverType, hown]
  rw [List.flatMap_cons, List.flatMap_nil, List.append_nil]
  unfold Snapshot.resolveCalls
  change [(⟨callDecl, index.resolve _ callDecl⟩ : IndexedCall)] = [call]
  rw [resolve_of_receiver (by decide) rfl, hthis _ rfl]
  simp only [resolveQualified, membersFor]
  rw [show callDecl.name = "f" from rfl, show callDecl.argumentCount = some 0 from rfl,
    members_eq.2]
  rfl

theorem enclosingMethod_eq : snapshot.enclosingMethod call.call.location = some caller := by
  change narrowestAround _ (index.methodsOfFile "Levels.java") = _
  rw [index, methodsOfFile_ofFiles, methodEntries_eq]
  rfl

theorem dispatch : Snapshot.Dispatch [facts] { testRoots := [] } call middle.symbol
    (method middle) (method bottom) where
  recorded := by
    change call ∈ [facts].flatMap (Snapshot.resolveCalls index)
    rw [resolveCalls_eq]
    exact List.mem_singleton_self call
  inScope := rfl
  qualified := rfl
  receiver := rfl
  indexedType := symbol_mem_allTypes type?_eq.2.1
  resolves := by decide
  indexed := by
    change method bottom ∈ (Table.ofList (methodEntries (typesOf [facts]) [facts])).keys
    rw [methodEntries_eq, Table.keys_ofList (by decide)]
    simp
  notStatic := rfl
  overrides := by
    refine .single ?_
    change method middle ∈ index.overriddenBy (method bottom)
    rw [overriddenBy_eq.2.2]
    exact List.mem_singleton_self _
  subtype := by
    change index.isSubtypeOrSelf bottom.symbol middle.symbol = true
    rw [isSubtypeOrSelf, ancestors_eq.2.2]
    rfl

end Levels

open Levels in
/-- `g` calls the `f` of `Middle`, and at run time that of `Bottom` if the object is one; but
it is not among the callers of the latter. -/
theorem caller_lost_between_levels :
    ∃ callers,
      (((default : Finder).setting snapshot.knowledgeBase snapshot.scope
        (Run.checkpoint snapshot.knowledgeBase Watcher.idle)).callersOf (method bottom) none
          (⟨(), (), {}⟩ : RunState Unit Unit)).1 = .ok callers ∧
      caller.key ∉ callers.map Method.key := by
  have hundisturbed : Undisturbed (snapshot.knowledgeBase : KnowledgeBase Unit)
      (Watcher.idle : Watcher Unit) := undisturbed_idle fun _ => rfl
  obtain ⟨hcounts, callers, hcallers, hkeys, -⟩ :=
    Snapshot.callersOf_override_iff dispatch enclosingMethod_eq default hundisturbed
      (s := ⟨(), (), {}⟩) CallerCache.get?_new
  refine ⟨callers, hcallers, ?_⟩
  rw [hkeys]
  rintro ⟨other, hother, -⟩
  have hsame : other = call := by
    have hmem : other ∈ [facts].flatMap (Snapshot.resolveCalls index) := hother.recorded
    rw [resolveCalls_eq] at hmem
    exact List.mem_singleton.mp hmem
  rw [hsame, hcounts] at hother
  obtain ⟨-, -, hself | ⟨m, hreach, htop, hmay⟩⟩ := hother
  · exact absurd hself (by decide)
  · rcases eq_of_overrides hreach with rfl | rfl
    · change index.overriddenBy (method middle) = [] at htop
      rw [overriddenBy_eq.2.1] at htop
      cases htop
    · exact absurd hmay (by decide)

end EntryPoints

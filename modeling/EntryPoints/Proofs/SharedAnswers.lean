import EntryPoints.Proofs.ScopeConfinement
import EntryPoints.Proofs.SharedCalls

/-!
# Answers that are the same with and without the tests

A snapshot of all files and a snapshot of the production files answer the questions of a
search in production scope.  Where the names of production code mean the same in both,
they answer alike: they have the same call sites and lambdas in scope, since those of test
files are left out, and the types that a search compares are common to both indexes.
-/

namespace EntryPoints

namespace Codebase

variable (code : Codebase)

/-- The snapshot of all files. -/
def snapshot : Snapshot := .ofFiles code.files code.scope

/-- The snapshot of the production files. -/
def productionSnapshot : Snapshot := .ofFiles code.production code.scope

variable {code}

/-! ## Calls and lambdas -/

theorem samePlace {file : FileFacts} (hfile : file ∈ code.production) {owner : Option String}
    (howner : ∀ name, owner = some name → name ∈ file.types.map (·.binaryName))
    (method : Option String) :
    code.SamePlace (code.whole.viewOf file owner method) (code.part.viewOf file owner method) where
  file := rfl
  owner := rfl
  production := hfile
  declared name hname := ⟨file, hfile, howner name hname⟩

theorem resolveCalls_eq (h : code.NamesAgree) {file : FileFacts} (hfile : file ∈ code.production) :
    Snapshot.resolveCalls code.whole file = Snapshot.resolveCalls code.part file ∧
      ∀ call ∈ Snapshot.resolveCalls code.part file, code.CommonCall call.resolved := by
  have hself := isSelfContained (mem_production.mp hfile).1
  have hcall (call : Invocation) (hmem : call ∈ file.invocations) :=
    resolve_eq h (samePlace hfile (hself.invocations call hmem).2 call.method) call
      (h.calls file hfile call hmem)
  constructor
  · apply List.map_congr_left
    intro call hmem
    rw [(hcall call hmem).1]
  · intro indexed hindexed
    obtain ⟨call, hmem, rfl⟩ := List.mem_map.mp hindexed
    exact (hcall call hmem).2

theorem resolveUses_eq (h : code.NamesAgree) {file : FileFacts} (hfile : file ∈ code.production) :
    Snapshot.resolveUses code.whole file = Snapshot.resolveUses code.part file := by
  have hself := isSelfContained (mem_production.mp hfile).1
  apply List.map_congr_left
  intro use hmem
  rw [targetType_eq h (samePlace hfile (hself.functionalUses use hmem).2 use.method)
    (h.uses file hfile use hmem)]

/-- The calls of production code are those in scope. -/
theorem flatMap_resolveCalls (h : code.NamesAgree) :
    code.production.flatMap (Snapshot.resolveCalls code.part) =
      (code.files.flatMap (Snapshot.resolveCalls code.whole)).filter fun call =>
        code.scope.contains call.call.location := by
  apply flatMap_filter_eq
  · intro file hfile hscope
    exact (resolveCalls_eq h (mem_production.mpr ⟨hfile, hscope⟩)).1.symm
  · intro file hfile indexed hindexed
    obtain ⟨call, hmem, rfl⟩ := List.mem_map.mp hindexed
    exact congrArg code.scope.containsFile ((isSelfContained hfile).invocations call hmem).1

theorem flatMap_resolveUses (h : code.NamesAgree) :
    code.production.flatMap (Snapshot.resolveUses code.part) =
      (code.files.flatMap (Snapshot.resolveUses code.whole)).filter fun expression =>
        code.scope.contains expression.location := by
  apply flatMap_filter_eq
  · intro file hfile hscope
    exact (resolveUses_eq h (mem_production.mpr ⟨hfile, hscope⟩)).symm
  · intro file hfile expression hexpression
    obtain ⟨use, hmem, rfl⟩ := List.mem_map.mp hexpression
    exact congrArg code.scope.containsFile ((isSelfContained hfile).functionalUses use hmem).1

theorem callSites_eq (h : code.NamesAgree) (m : Method) :
    code.productionSnapshot.callSites m code.scope = code.snapshot.callSites m code.scope := by
  have hpart : code.productionSnapshot.calls.getD m.name [] =
      (code.production.flatMap (Snapshot.resolveCalls code.part)).filter (·.call.name == m.name) :=
    Snapshot.calls_getD _ _ _
  have hwhole : code.snapshot.calls.getD m.name [] =
      (code.files.flatMap (Snapshot.resolveCalls code.whole)).filter (·.call.name == m.name) :=
    Snapshot.calls_getD _ _ _
  unfold Snapshot.callSites
  rw [hpart, hwhole, flatMap_resolveCalls h, List.filter_filter, List.filter_filter,
    List.filter_filter]
  congr 1
  apply List.filter_congr
  intro call _
  cases code.scope.contains call.call.location with
  | false => simp
  | true => simp

theorem functionalImplementations_eq (h : code.NamesAgree) (t : TypeSymbol) :
    code.productionSnapshot.functionalImplementations t code.scope =
      code.snapshot.functionalImplementations t code.scope := by
  change (code.production.flatMap (Snapshot.resolveUses code.part)).filter _ =
    (code.files.flatMap (Snapshot.resolveUses code.whole)).filter _
  rw [flatMap_resolveUses h, List.filter_filter]
  apply List.filter_congr
  intro expression _
  cases code.scope.contains expression.location with
  | false => simp
  | true => simp

theorem enclosingMethod_eq {place : Location} (hplace : code.scope.contains place = true) :
    code.productionSnapshot.enclosingMethod place = code.snapshot.enclosingMethod place :=
  congrArg (narrowestAround place) (methodsOfFile_eq hplace).symm

theorem isInDocComment_eq {place : Location} (hplace : code.scope.contains place = true) :
    code.productionSnapshot.isInDocComment place = code.snapshot.isInDocComment place := by
  have hcomments : code.productionSnapshot.docComments[place.file]? =
      code.snapshot.docComments[place.file]? := by
    change (Std.HashMap.ofList _)[place.file]? = (Std.HashMap.ofList _)[place.file]?
    rw [getElem?_ofList, getElem?_ofList, ← List.map_reverse, ← List.map_reverse, List.find?_map,
      List.find?_map, production, List.filter_filter, ← List.filter_reverse, ← List.filter_reverse,
      List.find?_filter, List.find?_filter]
    congr 2
    apply List.find?_congr
    intro file _
    cases hfile : file.file == place.file with
    | false => simp [hfile]
    | true =>
        have hscope : code.scope.containsFile file.file = true := by
          rw [beq_iff_eq.mp hfile]
          exact hplace
        simp [hfile, hscope]
  unfold Snapshot.isInDocComment
  rw [Std.HashMap.getD_eq_getD_getElem?, Std.HashMap.getD_eq_getD_getElem?, hcomments]

/-! ## What a search asks -/

section Relations

variable {t u : TypeSymbol}

theorem comparable_eq (h : code.NamesAgree) (ht : code.Common t) (hu : code.Common u) :
    code.productionSnapshot.answers.comparable t u = code.snapshot.answers.comparable t u := by
  change (code.part.isSubtypeOrSelf t u || code.part.isSubtypeOrSelf u t) =
    (code.whole.isSubtypeOrSelf t u || code.whole.isSubtypeOrSelf u t)
  rw [isSubtypeOrSelf_eq h ht, isSubtypeOrSelf_eq h hu]

theorem related_eq (h : code.NamesAgree) (ht : code.Common t) (hu : code.Common u) :
    code.productionSnapshot.answers.related t u = code.snapshot.answers.related t u := by
  have hbounds : u.bounds.any (code.productionSnapshot.answers.comparable t) =
      u.bounds.any (code.snapshot.answers.comparable t) := by
    rw [Bool.eq_iff_iff, List.any_eq_true, List.any_eq_true]
    apply exists_congr
    intro b
    apply and_congr_right
    intro hb
    rw [comparable_eq h ht (hu.bound hb)]
  unfold Answers.related
  rw [comparable_eq h ht hu, hbounds]

mutual

theorem compatible_eq (h : code.NamesAgree) (ht : code.Common t) : ∀ receiver,
    code.productionSnapshot.answers.compatible t receiver =
      code.snapshot.answers.compatible t receiver
  | ⟨qualifiedName, name, binaryName, kind, isAnonymous, isExternal, bounds, location⟩ => by
    unfold Answers.compatible
    rw [anyCompatible_eq h ht bounds]
    have hsubtype (sup : TypeSymbol) : code.productionSnapshot.answers.isSubtypeOrSelf t sup =
        code.snapshot.answers.isSubtypeOrSelf t sup :=
      (isSubtypeOrSelf_eq h ht sup).symm
    rw [hsubtype]

theorem anyCompatible_eq (h : code.NamesAgree) (ht : code.Common t) : ∀ bounds,
    code.productionSnapshot.answers.anyCompatible t bounds =
      code.snapshot.answers.anyCompatible t bounds
  | [] => by
    unfold Answers.anyCompatible
    rfl
  | bound :: rest => by
    unfold Answers.anyCompatible
    rw [compatible_eq h ht bound, anyCompatible_eq h ht rest]

end

end Relations

theorem common_of_receiverOf {call : IndexedCall} (hcall : code.CommonCall call.resolved)
    {t : TypeSymbol} (ht : Snapshot.receiverOf call = some t) : code.Common t := by
  unfold Snapshot.receiverOf at ht
  split at ht
  next target others _ htargets =>
    cases ht
    have hfirst : target ∈ call.resolved.targets := by
      rw [htargets]
      exact List.mem_cons_self
    exact (hcall.targets target hfirst).owner
  next => exact hcall.receiver t ht

/-- Every site that production code has lies in scope and has a common receiver, if any. -/
theorem of_mem_callSites (h : code.NamesAgree) {m : Method} {site : CallSite}
    (hsite : site ∈ code.productionSnapshot.callSites m code.scope) :
    code.scope.contains site.location = true ∧
      ∀ t, site.receiver = some t → code.Common t := by
  obtain ⟨call, hcall, rfl⟩ := List.mem_map.mp hsite
  obtain ⟨hnamed, htest⟩ := List.mem_filter.mp hcall
  simp only [Bool.and_eq_true] at htest
  have hrecorded : call ∈ code.production.flatMap (Snapshot.resolveCalls code.part) := by
    have hcalls : code.productionSnapshot.calls.getD m.name [] =
        (code.production.flatMap (Snapshot.resolveCalls code.part)).filter
          (·.call.name == m.name) :=
      Snapshot.calls_getD _ _ _
    rw [hcalls] at hnamed
    exact (List.mem_filter.mp hnamed).1
  obtain ⟨file, hfile, hmem⟩ := List.mem_flatMap.mp hrecorded
  exact ⟨htest.1.2, fun t ht => common_of_receiverOf ((resolveCalls_eq h hfile).2 call hmem) ht⟩

theorem directCallers_eq (h : code.NamesAgree) {m : Method} (hm : code.Common m.owner)
    {implementation : Option TypeSymbol}
    (himplementation : ∀ t, implementation = some t → code.Common t) :
    code.productionSnapshot.answers.directCallers m implementation =
      code.snapshot.answers.directCallers m implementation := by
  have haccepts (site : CallSite) (hscope : code.scope.contains site.location = true)
      (hcommon : ∀ t, site.receiver = some t → code.Common t) :
      code.productionSnapshot.answers.accepts m.owner implementation site =
        code.snapshot.answers.accepts m.owner implementation site := by
    unfold Answers.accepts
    have hcomment : code.productionSnapshot.answers.isInDocComment site.location =
        code.snapshot.answers.isInDocComment site.location := isInDocComment_eq hscope
    rw [hcomment]
    congr 1
    cases hreceiver : site.receiver with
    | none => simp only [Option.all_none]
    | some t =>
        rw [Option.all_some, Option.all_some, related_eq h hm (hcommon t hreceiver)]
        cases howner : implementation with
        | none => simp only [Option.all_none]
        | some owner =>
            rw [Option.all_some, Option.all_some, compatible_eq h (himplementation owner howner)]
  have hsites : code.productionSnapshot.answers.callSites m code.scope =
      code.snapshot.answers.callSites m code.scope := callSites_eq h m
  change (code.productionSnapshot.answers.callSites m code.scope).filterMap _ =
    (code.snapshot.answers.callSites m code.scope).filterMap _
  rw [← hsites]
  apply List.filterMap_congr
  intro site hsite
  obtain ⟨hscope, hcommon⟩ := of_mem_callSites h hsite
  have henclosing : code.productionSnapshot.answers.enclosingMethod site.location =
      code.snapshot.answers.enclosingMethod site.location := enclosingMethod_eq hscope
  unfold Answers.callerAt
  rw [haccepts site hscope hcommon, henclosing]

theorem callers_eq (h : code.NamesAgree) {m : Method} (hm : code.CommonMethod m) :
    code.productionSnapshot.answers.callers m = code.snapshot.answers.callers m := by
  obtain ⟨hroots, hcommon⟩ := roots_eq h hm
  have hsameRoots : code.snapshot.answers.overriddenRoots m =
      code.productionSnapshot.answers.overriddenRoots m := hroots
  unfold Answers.callers
  rw [hsameRoots, directCallers_eq h hm.owner (fun t ht => by cases ht)]
  congr 2
  apply List.flatMap_congr
  intro root hroot
  apply directCallers_eq h (hcommon root hroot).owner
  intro t ht
  cases ht
  exact hm.owner

theorem isFunctional_eq (h : code.NamesAgree) {m : Method} (hm : code.CommonMethod m)
    (names : List String) :
    code.productionSnapshot.answers.isFunctional names m =
      code.snapshot.answers.isFunctional names m := by
  have hroots : code.snapshot.answers.overriddenRoots m =
      code.productionSnapshot.answers.overriddenRoots m := (roots_eq h hm).1
  unfold Answers.isFunctional
  rw [hroots]

theorem lambdaOwners_eq (h : code.NamesAgree) (m : Method) :
    code.productionSnapshot.answers.lambdaOwners m = code.snapshot.answers.lambdaOwners m := by
  have hexpressions : code.productionSnapshot.answers.functionalImplementations m.owner
        code.scope =
      code.snapshot.answers.functionalImplementations m.owner code.scope :=
    functionalImplementations_eq h m.owner
  change firstOfKeys ((code.productionSnapshot.answers.functionalImplementations m.owner
      code.scope).filterMap _) =
    firstOfKeys ((code.snapshot.answers.functionalImplementations m.owner code.scope).filterMap _)
  rw [hexpressions]
  congr 1
  apply List.filterMap_congr
  intro expression hexpression
  have htest := (List.mem_filter.mp hexpression).2
  simp only [Bool.and_eq_true] at htest
  have hcomment : code.productionSnapshot.answers.isInDocComment expression.location =
      code.snapshot.answers.isInDocComment expression.location := isInDocComment_eq htest.1
  have henclosing : code.productionSnapshot.answers.enclosingMethod expression.location =
      code.snapshot.answers.enclosingMethod expression.location := enclosingMethod_eq htest.1
  unfold Answers.expressionOwner
  rw [hcomment, henclosing]

theorem substitutes_eq (h : code.NamesAgree) {m : Method} (hm : code.CommonMethod m)
    (hcreator : Snapshot.HasCreatorIn code.scope m) (names : List String) :
    code.productionSnapshot.answers.substitutes names m =
      code.snapshot.answers.substitutes names m := by
  -- The type of `m` is declared in scope, where the same methods enclose a place.
  have hcreated : code.productionSnapshot.answers.creatorOf m =
      code.snapshot.answers.creatorOf m := by
    unfold Answers.creatorOf
    split
    next hnameless =>
      cases hplace : m.owner.location with
      | none => simp only [Option.bind_none]
      | some place =>
          exact enclosingMethod_eq (hcreator hnameless place hplace)
    next => rfl
  unfold Answers.substitutes
  rw [hcreated, isFunctional_eq h hm, lambdaOwners_eq h]

end Codebase

end EntryPoints

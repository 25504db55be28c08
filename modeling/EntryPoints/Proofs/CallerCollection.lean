import EntryPoints.Proofs.InterruptedRun

/-!
# What a search finds at one method

Over a knowledge base that follows a record of answers, every part of a search
gives what the record determines, or it is stopped: the callers of a method,
its substitutes, and the expansion that combines them.

The caller cache takes part in this only through one invariant.  It holds the
complete callers of every method that the search may meet and that it has an
entry for.  An entry is written only after a collection that nothing cut short,
so the invariant also survives the runs that are stopped.
-/

namespace EntryPoints

variable {σ ρ : Type}

/-! ## Sets of methods -/

theorem MethodSet.containsKey_insert (s : MethodSet) (m : Method) (k : String) :
    (s.insert m).containsKey k = (s.containsKey k || m.key == k) := by
  rw [Bool.eq_iff_iff, Bool.or_eq_true, beq_iff_eq, mem_keys_iff, toList_insert]
  by_cases hm : s.containsKey m.key = true
  · rw [if_pos hm, ← mem_keys_iff]
    constructor
    · exact .inl
    · rintro (hk | rfl)
      · exact hk
      · exact hm
  · rw [if_neg hm, mem_keys_iff]
    simp only [List.mem_append, List.mem_singleton, or_and_right, exists_or, exists_eq_left]

/-- Adding methods one by one adds the first of every key that is new. -/
theorem MethodSet.toList_foldl_insert (s : MethodSet) (ms : List Method) :
    (ms.foldl MethodSet.insert s).toList =
      s.toList ++ (firstOfKeys ms).filter fun m => !s.containsKey m.key := by
  induction ms generalizing s with
  | nil => simp [firstOfKeys]
  | cons m ms ih =>
      rw [List.foldl_cons, ih, firstOfKeys, List.filter_cons, List.filter_filter, toList_insert]
      by_cases hm : s.containsKey m.key = true
      · simp only [hm, if_true, Bool.not_true, Bool.false_eq_true, if_false]
        congr 1
        apply List.filter_congr
        intro n _
        rw [containsKey_insert]
        by_cases hn : m.key = n.key
        · simp [← hn, hm]
        · simp [hn, Ne.symm hn]
      · simp only [hm, Bool.false_eq_true, if_false, Bool.not_false, if_true,
          List.append_assoc, List.singleton_append]
        congr 2
        apply List.filter_congr
        intro n _
        rw [containsKey_insert]
        by_cases hn : m.key = n.key
        · simp [hn]
        · simp [hn, Ne.symm hn]

theorem MethodSet.toList_foldl_insert_empty (ms : List Method) :
    (ms.foldl MethodSet.insert .empty).toList = firstOfKeys ms := by
  rw [toList_foldl_insert, toList_empty, List.nil_append]
  apply List.filter_eq_self.mpr
  intro m _
  have hempty : ¬ MethodSet.empty.containsKey m.key = true := by
    rw [mem_keys_iff]
    simp
  simpa using hempty

/-! ## Relations between types -/

section Relations

variable {answers : Answers} {isSubtype : TypeSymbol → TypeSymbol → Lookup σ Bool}

theorem settles_comparable
    (hsubtype : ∀ a b, Settles (isSubtype a b) (answers.isSubtypeOrSelf a b))
    (a b : TypeSymbol) :
    Settles (comparable isSubtype a b) (answers.comparable a b) := by
  unfold comparable Answers.comparable
  refine Settles.bind (hsubtype a b) ?_
  cases answers.isSubtypeOrSelf a b with
  | true => exact settles_pure true
  | false => exact hsubtype b a

theorem settles_anyComparable
    (hsubtype : ∀ a b, Settles (isSubtype a b) (answers.isSubtypeOrSelf a b))
    (a : TypeSymbol) (bounds : List TypeSymbol) :
    Settles (anyComparable isSubtype a bounds) (bounds.any (answers.comparable a)) := by
  induction bounds with
  | nil => exact settles_pure false
  | cons b rest ih =>
      unfold anyComparable
      refine Settles.bind (settles_comparable hsubtype a b) ?_
      rw [List.any_cons]
      cases answers.comparable a b with
      | true => exact settles_pure true
      | false => exact ih

theorem settles_related
    (hsubtype : ∀ a b, Settles (isSubtype a b) (answers.isSubtypeOrSelf a b))
    (expected receiver : TypeSymbol) :
    Settles (related isSubtype expected receiver) (answers.related expected receiver) := by
  unfold related Answers.related
  refine Settles.bind (settles_comparable hsubtype expected receiver) ?_
  cases answers.comparable expected receiver with
  | true => exact settles_pure true
  | false =>
      cases receiver.isTypeParameter with
      | true => exact settles_anyComparable hsubtype expected receiver.bounds
      | false => exact settles_pure false

mutual

theorem settles_compatible
    (hsubtype : ∀ a b, Settles (isSubtype a b) (answers.isSubtypeOrSelf a b))
    (implementation : TypeSymbol) : ∀ receiver : TypeSymbol,
      Settles (compatible isSubtype implementation receiver)
        (answers.compatible implementation receiver)
  | ⟨qualifiedName, name, binaryName, kind, isAnonymous, isExternal, bounds, location⟩ => by
    unfold compatible Answers.compatible
    by_cases hinterface : kind = .interfaceType ∨ kind = .annotationType
    · simp only [if_pos hinterface]
      exact settles_pure true
    · simp only [if_neg hinterface]
      by_cases hparameter : kind = .typeParameter
      · simp only [if_pos hparameter]
        cases bounds with
        | nil => exact settles_pure true
        | cons bound rest =>
            exact settles_anyCompatible hsubtype implementation (bound :: rest)
      · simp only [if_neg hparameter]
        exact hsubtype _ _

theorem settles_anyCompatible
    (hsubtype : ∀ a b, Settles (isSubtype a b) (answers.isSubtypeOrSelf a b))
    (implementation : TypeSymbol) : ∀ bounds : List TypeSymbol,
      Settles (anyCompatible isSubtype implementation bounds)
        (answers.anyCompatible implementation bounds)
  | [] => settles_pure false
  | bound :: rest => by
    unfold anyCompatible Answers.anyCompatible
    refine Settles.bind (settles_compatible hsubtype implementation bound) ?_
    cases answers.compatible implementation bound with
    | true => exact settles_pure true
    | false => exact settles_anyCompatible hsubtype implementation rest

end

end Relations

/-! ## Call sites -/

theorem settles_callerAt {base : KnowledgeBase σ} {answers : Answers}
    (hbase : base.Follows answers) (expected : TypeSymbol)
    (implementation : Option TypeSymbol) (site : CallSite) :
    Settles (callerAt base expected implementation site)
      (answers.callerAt expected implementation site) := by
  unfold callerAt Answers.callerAt Answers.accepts
  refine Settles.bind (hbase.isInDocComment site.location) ?_
  cases answers.isInDocComment site.location with
  | true => exact settles_pure none
  | false =>
      cases site.receiver with
      | none => exact hbase.enclosingMethod site.location
      | some receiver =>
          refine Settles.bind
            (settles_related hbase.isSubtypeOrSelf expected receiver) ?_
          by_cases hrelated : answers.related expected receiver = true
          · cases implementation with
            | none =>
                simpa [hrelated] using hbase.enclosingMethod site.location
            | some owner =>
                simp only [hrelated, if_true]
                refine Settles.bind
                  (settles_compatible hbase.isSubtypeOrSelf owner receiver) ?_
                by_cases hcompatible : answers.compatible owner receiver = true
                · simpa [hrelated, hcompatible] using
                    hbase.enclosingMethod site.location
                · simpa [hrelated, hcompatible] using settles_pure none
          · simpa [hrelated] using settles_pure none

/-- A setting asks a knowledge base that follows the answers, about production code. -/
structure Setting.Follows (setting : Setting σ ρ) (answers : Answers) (names : List String) :
    Prop where
  base : setting.base.Follows answers
  scope : setting.scope = answers.productionScope
  functional : setting.functional = names

/-- Every method that a search may meet has all of its callers in the cache, if it has an
entry there. -/
def CallerCache.Complete (answers : Answers) (known : Method → Prop)
    (cache : CallerCache) : Prop :=
  ∀ m callers, known m → cache.get? m.key = some callers → callers = answers.callers m

section Collection

variable {answers : Answers} {names : List String} {setting : Setting σ ρ}
  {Sound : CallerCache → Prop} {stops : Failure → Prop}

theorem gathers_gatherSites (hsetting : setting.Follows answers names)
    (hcheck : Run.Gives Sound stops setting.checkpoint ())
    (expected : TypeSymbol) (implementation : Option TypeSymbol)
    (sites : List CallSite) (callers : MethodSet) :
    Run.Gathers Sound stops (setting.gatherSites expected implementation sites callers)
      ((sites.filterMap (answers.callerAt expected implementation)).foldl
        MethodSet.insert callers) := by
  induction sites generalizing callers with
  | nil => exact Run.keeps_pure rfl
  | cons site sites ih =>
      unfold Setting.gatherSites
      refine Run.Keeps.bind hcheck ?_
      intro result hresult
      cases result with
      | error failure => exact Run.keeps_pure hresult
      | ok value =>
          refine Run.Keeps.bind
            (Run.gives_lookup
              (settles_callerAt hsetting.base expected implementation site)).keeps ?_
          rintro _ rfl
          rw [List.filterMap_cons]
          cases answers.callerAt expected implementation site with
          | none => exact ih callers
          | some caller => exact ih (callers.insert caller)

theorem gathers_gatherDirect (hsetting : setting.Follows answers names)
    (hcheck : Run.Gives Sound stops setting.checkpoint ())
    (m : Method) (implementation : Option TypeSymbol) (callers : MethodSet) :
    Run.Gathers Sound stops (setting.gatherDirect m implementation callers)
      ((answers.directCallers m implementation).foldl MethodSet.insert callers) := by
  unfold Setting.gatherDirect
  refine Run.Keeps.bind hcheck ?_
  intro result hresult
  cases result with
  | error failure => exact Run.keeps_pure hresult
  | ok value =>
      refine Run.Keeps.bind
        (Run.keeps_withBase (· = _)
          (hsetting.base.callSites m setting.scope)) ?_
      rintro sites rfl
      refine Run.Keeps.bind
        (gathers_gatherSites hsetting hcheck m.owner implementation _ callers) ?_
      rintro ⟨collected, failure⟩ hcollected
      cases failure with
      | none =>
          rw [hsetting.scope] at hcollected
          exact Run.keeps_pure hcollected
      | some failure => exact Run.keeps_pure hcollected

theorem gathers_gatherRoots (hsetting : setting.Follows answers names)
    (hcheck : Run.Gives Sound stops setting.checkpoint ())
    (owner : TypeSymbol) (roots : List Method) (callers : MethodSet) :
    Run.Gathers Sound stops (setting.gatherRoots owner roots callers)
      ((roots.flatMap fun root => answers.directCallers root (some owner)).foldl
        MethodSet.insert callers) := by
  induction roots generalizing callers with
  | nil => exact Run.keeps_pure rfl
  | cons root roots ih =>
      unfold Setting.gatherRoots
      refine Run.Keeps.bind hcheck ?_
      intro result hresult
      cases result with
      | error failure => exact Run.keeps_pure hresult
      | ok value =>
          refine Run.Keeps.bind
            (gathers_gatherDirect hsetting hcheck root (some owner) callers) ?_
          rintro ⟨collected, failure⟩ hcollected
          cases failure with
          | none =>
              obtain rfl := hcollected
              rw [List.flatMap_cons, List.foldl_append]
              exact ih _
          | some failure => exact Run.keeps_pure hcollected

theorem gathers_gather (hsetting : setting.Follows answers names)
    (hcheck : Run.Gives Sound stops setting.checkpoint ()) (m : Method) :
    Run.Gathers Sound stops (setting.gather m none)
      ((answers.directCallers m none ++
        (answers.overriddenRoots m).flatMap fun root =>
          answers.directCallers root (some m.owner)).foldl MethodSet.insert .empty) := by
  unfold Setting.gather
  refine Run.Keeps.bind (gathers_gatherDirect hsetting hcheck m none .empty) ?_
  rintro ⟨collected, failure⟩ hcollected
  cases failure with
  | some failure => exact Run.keeps_pure hcollected
  | none =>
      obtain rfl := hcollected
      refine Run.Keeps.bind (Run.gives_lookup (hsetting.base.overriddenRoots m)).keeps ?_
      rintro _ rfl
      rw [List.foldl_append]
      exact gathers_gatherRoots hsetting hcheck m.owner _ _

end Collection

/-! ## The cache of callers -/

namespace Setting

variable (setting : Setting σ ρ)

/-- What a search does about a method whose callers are not in the cache. -/
def collect (m : Method) (implementation : Option TypeSymbol) : Run σ ρ (List Method) := do
  setting.checkpoint
  match ← ExceptT.lift (setting.gather m implementation) with
  | (callers, none) =>
    modify fun s => { s with cache := s.cache.put m.key callers.toList }
    return callers.toList
  | (callers, some failure) =>
    if failure.isCancellation then throw failure else return callers.toList

theorem callersOf_of_cached {s : RunState σ ρ} {m : Method} {callers : List Method}
    (implementation : Option TypeSymbol) (hentry : s.cache.get? m.key = some callers) :
    setting.callersOf m implementation s = (.ok callers, s) := by
  unfold callersOf
  rw [Run.bind_apply, Run.get_apply]
  simp only [hentry]
  rfl

theorem callersOf_of_uncached {s : RunState σ ρ} {m : Method}
    (implementation : Option TypeSymbol) (hentry : s.cache.get? m.key = none) :
    setting.callersOf m implementation s = setting.collect m implementation s := by
  unfold callersOf
  rw [Run.bind_apply, Run.get_apply]
  simp only [hentry]
  rfl

end Setting

/-! ## Substitutes and expansion -/

section Expansion

variable {answers : Answers} {names : List String} {setting : Setting σ ρ}
  {known : Method → Prop} {Sound : CallerCache → Prop} {stops : Failure → Prop}

theorem CallerCache.Complete.put {cache : CallerCache}
    (hcomplete : cache.Complete answers known)
    (happart : answers.ToldApart names known) {m : Method} (hm : known m) :
    (cache.put m.key (answers.callers m)).Complete answers known := by
  intro n callers hn hentry
  rw [CallerCache.get?_put] at hentry
  by_cases hkey : m.key = n.key
  · rw [if_pos hkey, Option.some.injEq] at hentry
    rw [← hentry, (happart m n hm hn hkey).2.1]
  · rw [if_neg hkey] at hentry
    exact hcomplete n callers hn hentry

theorem CallerCache.get?_new (key : String) : ({} : CallerCache).get? key = none := by
  simp [get?]

theorem CallerCache.complete_of_empty {cache : CallerCache}
    (hempty : ∀ key, cache.get? key = none) : cache.Complete answers known := by
  intro m callers _ hentry
  rw [hempty] at hentry
  cases hentry

theorem CallerCache.Complete.trim {cache : CallerCache}
    (hcomplete : cache.Complete answers known) : cache.trim.Complete answers known := by
  intro m callers hm hentry
  rw [CallerCache.get?_trim] at hentry
  split at hentry
  · cases hentry
  · exact hcomplete m callers hm hentry

/-- The callers are all of those that the record determines, whether they come from the
cache or not. -/
theorem gives_callersOf (hsetting : setting.Follows answers names)
    (happart : answers.ToldApart names known)
    (hcheck : Run.Gives (CallerCache.Complete answers known) stops setting.checkpoint ())
    (hcancel : ∀ failure, stops failure → failure.isCancellation = true)
    {m : Method} (hm : known m) :
    Run.Gives (CallerCache.Complete answers known) stops (setting.callersOf m)
      (answers.callers m) := by
  have hcollect : Run.Gives (CallerCache.Complete answers known) stops
      (setting.collect m none) (answers.callers m) := by
    unfold Setting.collect
    refine Run.Gives.bind hcheck ?_
    refine Run.Keeps.bindLift (gathers_gather hsetting hcheck m) ?_
    rintro ⟨collected, failure⟩ hcollected
    cases failure with
    | some failure =>
        simp only [hcancel failure hcollected, if_true]
        exact Run.yields_throw hcollected
    | none =>
        obtain rfl := hcollected
        simp only [MethodSet.toList_foldl_insert_empty]
        refine Run.Yields.bind (Run.yields_modify ?_) (fun _ _ => Run.gives_pure _)
        exact fun s hs => hs.put happart hm
  intro s hs
  cases hentry : s.cache.get? m.key with
  | some callers =>
      rw [setting.callersOf_of_cached none hentry]
      exact ⟨hs, hs m callers hm hentry⟩
  | none =>
      rw [setting.callersOf_of_uncached none hentry]
      exact hcollect s hs

theorem gives_creatorOf (hsetting : setting.Follows answers names)
    (hcancel : ∀ failure, stops failure → failure.isCancellation = true) (m : Method) :
    Run.Gives Sound stops (setting.creatorOf m)
      (answers.creatorOf m) := by
  unfold Setting.creatorOf Answers.creatorOf
  split
  · cases m.owner.location with
    | none => exact Run.gives_pure none
    | some place =>
        exact Run.Gives.recover hcancel
          (Run.gives_lookup (hsetting.base.enclosingMethod place))
  · exact Run.gives_pure none

theorem gives_isFunctional (hsetting : setting.Follows answers names)
    (hcancel : ∀ failure, stops failure → failure.isCancellation = true) (m : Method) :
    Run.Gives Sound stops (setting.isFunctional m)
      (answers.isFunctional names m) := by
  unfold Setting.isFunctional Answers.isFunctional
  rw [hsetting.functional]
  split
  next hlisted =>
    rw [hlisted, Bool.true_or]
    exact Run.gives_pure true
  next hlisted =>
    rw [Bool.not_eq_true] at hlisted
    rw [hlisted, Bool.false_or]
    refine Run.Gives.recover hcancel ?_
    exact Run.Gives.bind (Run.gives_lookup (hsetting.base.overriddenRoots m))
      (Run.gives_pure _)

theorem gives_expressionOwner (hsetting : setting.Follows answers names)
    (expression : FunctionalExpression) :
    Run.Gives Sound stops
      (setting.expressionOwner expression) (answers.expressionOwner expression) := by
  unfold Setting.expressionOwner Answers.expressionOwner
  refine Run.Gives.bind
    (Run.gives_lookup (hsetting.base.isInDocComment expression.location)) ?_
  cases answers.isInDocComment expression.location with
  | true => exact Run.gives_pure none
  | false => exact Run.gives_lookup (hsetting.base.enclosingMethod expression.location)

theorem gathers_gatherExpressions (hsetting : setting.Follows answers names)
    (hcheck : Run.Gives Sound stops setting.checkpoint ())
    (expressions : List FunctionalExpression) (owners : MethodSet) :
    Run.Gathers Sound stops
      (setting.gatherExpressions expressions owners)
      ((expressions.filterMap answers.expressionOwner).foldl MethodSet.insert owners) := by
  induction expressions generalizing owners with
  | nil => exact Run.keeps_pure rfl
  | cons expression rest ih =>
      unfold Setting.gatherExpressions
      refine Run.Keeps.bind hcheck ?_
      intro result hresult
      cases result with
      | error failure => exact Run.keeps_pure hresult
      | ok value =>
          refine Run.Keeps.bind (gives_expressionOwner hsetting expression).keeps ?_
          rintro _ rfl
          rw [List.filterMap_cons]
          cases answers.expressionOwner expression with
          | none => exact ih owners
          | some owner => exact ih (owners.insert owner)

theorem gives_lambdaOwners (hsetting : setting.Follows answers names)
    (hcheck : Run.Gives Sound stops setting.checkpoint ())
    (hcancel : ∀ failure, stops failure → failure.isCancellation = true) (m : Method) :
    Run.Gives Sound stops (setting.lambdaOwners m)
      (answers.lambdaOwners m) := by
  unfold Setting.lambdaOwners
  refine Run.Gives.bind hcheck ?_
  refine Run.Yields.bind (Run.yields_askBase (· = _)
    (hsetting.base.functionalImplementations m.owner setting.scope)) ?_
  rintro expressions rfl
  refine Run.Keeps.bindLift (gathers_gatherExpressions hsetting hcheck _ .empty) ?_
  rintro ⟨collected, failure⟩ hcollected
  cases failure with
  | none =>
      obtain rfl := hcollected
      simp only [MethodSet.toList_foldl_insert_empty, hsetting.scope]
      exact Run.gives_pure _
  | some failure =>
      change Run.Yields _ _
        (if failure.isCancellation then throw failure else pure collected.toList) _
      simp only [hcancel failure hcollected, if_true]
      exact Run.yields_throw hcollected

theorem gives_substitutes (hsetting : setting.Follows answers names)
    (hcheck : Run.Gives Sound stops setting.checkpoint ())
    (hcancel : ∀ failure, stops failure → failure.isCancellation = true) (m : Method) :
    Run.Gives Sound stops (setting.substitutes m)
      (answers.substitutes names m) := by
  unfold Setting.substitutes Answers.substitutes
  refine Run.Gives.bind (gives_creatorOf hsetting hcancel m) ?_
  cases answers.creatorOf m with
  | some creator => exact Run.gives_pure _
  | none =>
      refine Run.Gives.bind (gives_isFunctional hsetting hcancel m) ?_
      cases answers.isFunctional names m with
      | false => exact Run.gives_pure none
      | true =>
          refine Run.Gives.bind (gives_lambdaOwners hsetting hcheck hcancel m) ?_
          cases answers.lambdaOwners m with
          | nil => exact Run.gives_pure none
          | cons owner owners => exact Run.gives_pure _

/-- Expanding a method gives the methods one step up and tells whether it is a top
caller. -/
theorem gives_expand (hsetting : setting.Follows answers names)
    (happart : answers.ToldApart names known)
    (hcheck : Run.Gives (CallerCache.Complete answers known) stops setting.checkpoint ())
    (hcancel : ∀ failure, stops failure → failure.isCancellation = true)
    {m : Method} (hm : known m) :
    Run.Gives (CallerCache.Complete answers known) stops (Search.expand setting m)
      (answers.next names m, answers.isTop names m) := by
  unfold Search.expand Answers.next Answers.isTop
  refine Run.Gives.bind (gives_substitutes hsetting hcheck hcancel m) ?_
  cases answers.substitutes names m with
  | some methods => exact Run.gives_pure _
  | none =>
      refine Run.Gives.bind (gives_callersOf hsetting happart hcheck hcancel hm) ?_
      cases answers.callers m with
      | nil =>
          refine Run.Gives.bind (gives_isFunctional hsetting hcancel m) ?_
          exact Run.gives_pure _
      | cons caller callers => exact Run.gives_pure _

end Expansion

end EntryPoints

import EntryPoints.Proofs.OverlookedState
import EntryPoints.Index.Snapshot

/-!
# Searches that leave the index as it is

A search moves its watcher and its cache.  It learns of the state of the knowledge base only by
the lookups that it makes there.  Over a knowledge base whose lookups neither read this state nor
move it, a search gives the same answer in every state and leaves the state as it was, however it
ends.  Snapshots are such knowledge bases.
-/

namespace EntryPoints

variable {σ ρ α γ : Type}

/-- A lookup that gives the same answer in every state and moves none. -/
abbrev IsConstant (lookup : StateM σ γ) : Prop := Ignores (Function.const σ) lookup

def RunState.rebase (base : σ) (s : RunState σ ρ) : RunState σ ρ := { s with base }

theorem Ignores.base_eq {action : StateM (RunState σ ρ) γ}
    (haction : Ignores RunState.rebase action) (s : RunState σ ρ) : (action s).2.base = s.base :=
  congrArg (fun ran => ran.2.base) (haction s.base s)

/-- Every lookup gives the same answer in every state of the knowledge base, and moves none. -/
structure KnowledgeBase.IsStill (base : KnowledgeBase σ) : Prop where
  callSites : ∀ m scope, IsConstant (base.callSites m scope)
  overriddenRoots : ∀ m, IsConstant (base.overriddenRoots m)
  functionalImplementations : ∀ t scope, IsConstant (base.functionalImplementations t scope)
  enclosingMethod : ∀ place, IsConstant (base.enclosingMethod place)
  isSubtypeOrSelf : ∀ sub sup, IsConstant (base.isSubtypeOrSelf sub sup)
  isInDocComment : ∀ place, IsConstant (base.isInDocComment place)
  productionScope : IsConstant base.productionScope
  methodsNamed : ∀ owner name, IsConstant (base.methodsNamed owner name)
  cancellationRequested : IsConstant base.cancellationRequested

theorem Snapshot.isStill_knowledgeBase (snapshot : Snapshot) :
    (snapshot.knowledgeBase : KnowledgeBase σ).IsStill where
  callSites _ _ _ _ := rfl
  overriddenRoots _ _ _ := rfl
  functionalImplementations _ _ _ _ := rfl
  enclosingMethod _ _ _ := rfl
  isSubtypeOrSelf _ _ _ _ := rfl
  isInDocComment _ _ _ := rfl
  productionScope _ _ := rfl
  methodsNamed _ _ _ _ := rfl
  cancellationRequested _ _ := rfl

/-! ## Lookups -/

theorem isComposable_isConstant :
    IsComposable fun {α : Type} (question : Lookup σ α) => IsConstant question where
  pure _ := ignores_pure _
  bind := Ignores.andThen

theorem KnowledgeBase.IsStill.callerAt {base : KnowledgeBase σ} (h : base.IsStill)
    (expected : TypeSymbol) (implementation : Option TypeSymbol) (site : CallSite) :
    IsConstant (callerAt base expected implementation site) :=
  isComposable_isConstant.callerAt (h.isInDocComment site.location)
    (h.enclosingMethod site.location) h.isSubtypeOrSelf expected implementation

/-! ## Parts of a search -/

theorem Run.ignores_withBase {question : StateM σ γ} (hquestion : IsConstant question) :
    Ignores RunState.rebase (Run.withBase question : StateM (RunState σ ρ) γ) := by
  intro base s
  have hanswer : question base = ((question s.base).1, base) := hquestion base s.base
  change ((question base).1, { s with base := (question base).2 }) = _
  rw [hanswer]
  rfl

theorem Run.ignores_lookup {question : Lookup σ α} (hquestion : IsConstant question) :
    Ignores RunState.rebase (Run.lookup question : Run σ ρ α) :=
  ignores_withBase hquestion

theorem Run.ignores_askWatch (question : StateM ρ γ) :
    Ignores RunState.rebase (Run.askWatch question : Run σ ρ γ) :=
  fun _ _ => rfl

theorem Run.ignores_liftM {view : Except Failure α} {next : α → Run σ ρ β}
    (hnext : ∀ a, view = .ok a → Ignores RunState.rebase (next a)) :
    Ignores RunState.rebase ((liftM view : Run σ ρ α) >>= next : Run σ ρ β) := by
  cases view with
  | ok a => exact hnext a rfl
  | error failure => exact ignores_throw failure

theorem KnowledgeBase.IsStill.overlooks {base : KnowledgeBase σ} (h : base.IsStill)
    (finder : Finder) (scope : Scope) (watcher : Watcher ρ) :
    (finder.setting base scope (Run.checkpoint base watcher)).Overlooks RunState.rebase where
  callSites m := Run.ignores_withBase (h.callSites m scope)
  callerAt expected implementation site :=
    Run.ignores_lookup (h.callerAt expected implementation site)
  overriddenRoots m := Run.ignores_lookup (h.overriddenRoots m)
  functionalImplementations t := Run.ignores_withBase (h.functionalImplementations t scope)
  enclosingMethod place := Run.ignores_lookup (h.enclosingMethod place)
  isInDocComment place := Run.ignores_lookup (h.isInDocComment place)
  checkpoint := Run.ignores_checkpoint (Run.ignores_askWatch _)
    (Run.ignores_withBase h.cancellationRequested).lift

theorem sparesCache_rebase :
    SparesCache (RunState.rebase : σ → RunState σ ρ → RunState σ ρ) where
  cache _ _ := rfl
  recache _ _ _ := rfl

/-! ## Searches -/

namespace Finder

variable (finder : Finder) {view : Except Failure (KnowledgeBase σ)}
  (hview : ∀ base, view = .ok base → base.IsStill) (watcher : Watcher ρ)

include hview

theorem ignores_search (start : Method) :
    Ignores RunState.rebase (finder.search view watcher start) := by
  unfold search
  refine Ignores.andThen (sparesCache_rebase.modify CallerCache.trim) fun _ => ?_
  refine Run.ignores_liftM fun base hok => ?_
  have hbase := hview base hok
  refine Ignores.andThen (Run.ignores_lookup hbase.productionScope) fun scope => ?_
  have hsearch := hbase.overlooks finder scope watcher
  exact hsearch.topCallers (fun _ => Run.ignores_askWatch _) sparesCache_rebase start
    finder.maxDepth

theorem ignores_gatherTopCallers (methods : List Method) (callers : MethodSet) :
    Ignores RunState.rebase (finder.gatherTopCallers view watcher methods callers) := by
  induction methods generalizing callers with
  | nil => exact ignores_pure _
  | cons m rest ih =>
      unfold gatherTopCallers
      exact (finder.ignores_search hview watcher m).andThen fun _ => ih _

theorem ignores_searchStatement (statementId : String) :
    Ignores RunState.rebase (finder.searchStatement view watcher statementId) := by
  unfold searchStatement
  refine (ignores_pure _).ite (Run.ignores_liftM fun base hok => ?_) _
  have hbase := hview base hok
  refine Ignores.andThen (Run.ignores_lookup (hbase.methodsNamed _ _)) fun methods => ?_
  exact (finder.ignores_gatherTopCallers hview watcher methods .empty).andThen fun _ =>
    ignores_pure _

end Finder

theorem Run.ignores_reporting (wrap : Failure → Failure) {action : Run σ ρ α}
    (haction : Ignores RunState.rebase action) :
    Ignores RunState.rebase (Run.reporting wrap action) :=
  haction.catching fun _ => ignores_throw _

theorem MethodSpec.ignores_resolve {view : Except Failure (KnowledgeBase σ)}
    (hview : ∀ base, view = .ok base → base.IsStill) (spec : String) :
    Ignores RunState.rebase (MethodSpec.resolve view spec : Run σ ρ Method) := by
  unfold MethodSpec.resolve
  refine Run.ignores_liftM fun parsed _ => Run.ignores_liftM fun base hok => ?_
  refine Ignores.andThen (Run.ignores_lookup ((hview base hok).methodsNamed _ _)) fun methods => ?_
  cases parsed.pick spec methods with
  | ok m => exact ignores_pure _
  | error failure => exact ignores_throw failure

end EntryPoints

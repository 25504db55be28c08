import EntryPoints.Proofs.ComposedLookups
import EntryPoints.Search.Finder

/-!
# Parts of the state that a search overlooks

A run moves the state of the knowledge base, of the watcher and of the caller cache.  Most parts of
a search have to do with some of these only.  An action overlooks a part of the state when putting
anything else there changes neither its answer nor what it does to the rest, and leaves there what
was put.

Which part it is does not matter for the way a search is put together.  What overlooks the part in
the lookups and at the checkpoints of a search overlooks it in the search, as long as the cache is
no part of it; and it overlooks the cache as well up to the point where callers are remembered.
-/

namespace EntryPoints

variable {σ τ κ ρ α β γ : Type} {put : κ → τ → τ}

/-- Whatever the action does, it neither reads nor moves the part of the state that is put. -/
def Ignores (put : κ → τ → τ) (action : StateM τ γ) : Prop :=
  ∀ k s, action (put k s) = ((action s).1, put k (action s).2)

theorem ignores_pure (c : γ) : Ignores put (pure c : StateM τ γ) := fun _ _ => rfl

theorem ignores_throw (failure : Failure) :
    Ignores put (throw failure : ExceptT Failure (StateM τ) α) :=
  fun _ _ => rfl

theorem Ignores.bind {action : StateM τ γ} {f : γ → StateM τ β} (haction : Ignores put action)
    (hnext : ∀ c, Ignores put (f c)) : Ignores put (action >>= f) := by
  intro k s
  change f (action (put k s)).1 (action (put k s)).2 = _
  rw [haction k s]
  exact hnext (action s).1 k (action s).2

/-- What comes after a failure is left out. -/
theorem Ignores.andThen {action : ExceptT Failure (StateM τ) α}
    {next : α → ExceptT Failure (StateM τ) β} (haction : Ignores put action)
    (hnext : ∀ a, Ignores put (next a)) :
    Ignores put (action >>= next : ExceptT Failure (StateM τ) β) := by
  refine Ignores.bind (f := ExceptT.bindCont next) haction fun result => ?_
  cases result with
  | ok a => exact hnext a
  | error failure => exact ignores_pure (Except.error failure)

theorem Ignores.lift {action : StateM τ γ} (haction : Ignores put action) :
    Ignores put (ExceptT.lift action : ExceptT Failure (StateM τ) γ) := by
  intro k s
  change (Except.ok (action (put k s)).1, (action (put k s)).2) = _
  rw [haction k s]
  rfl

theorem Ignores.catching {action : ExceptT Failure (StateM τ) α}
    {handler : Failure → ExceptT Failure (StateM τ) α} (haction : Ignores put action)
    (hhandler : ∀ failure, Ignores put (handler failure)) :
    Ignores put (tryCatch action handler : ExceptT Failure (StateM τ) α) := by
  simp only [tryCatch, tryCatchThe, MonadExceptOf.tryCatch, ExceptT.tryCatch, ExceptT.mk]
  refine Ignores.bind haction fun result => ?_
  cases result with
  | ok a => exact ignores_pure (Except.ok a)
  | error failure => exact hhandler failure

theorem Ignores.ite {first second : StateM τ γ} (hfirst : Ignores put first)
    (hsecond : Ignores put second) (p : Prop) [Decidable p] :
    Ignores put (if p then first else second) := by
  split
  · exact hfirst
  · exact hsecond

/-- What reads the whole state may only use what the part that is put has no influence on. -/
theorem Ignores.reading {next : τ → ExceptT Failure (StateM τ) β}
    (hnext : ∀ s, Ignores put (next s)) (hsame : ∀ k s, next (put k s) = next s) :
    Ignores put (get >>= next : ExceptT Failure (StateM τ) β) := by
  intro k s
  change next (put k s) (put k s) = _
  rw [hsame]
  exact hnext s k s

/-! ## Parts of a search -/

theorem Run.ignores_recover {put : κ → RunState σ ρ → RunState σ ρ} {action : Run σ ρ α}
    (answer : α) (haction : Ignores put action) : Ignores put (Run.recover answer action) :=
  haction.catching fun failure => (ignores_throw failure).ite (ignores_pure _) _

theorem Run.ignores_checkpoint {put : κ → RunState σ ρ → RunState σ ρ} {base : KnowledgeBase σ}
    {watcher : Watcher ρ}
    (hcancelled : Ignores put (Run.askWatch watcher.isCancelled : Run σ ρ Bool))
    (hrequested : Ignores put (Run.askBase base.cancellationRequested : Run σ ρ Bool)) :
    Ignores put (Run.checkpoint base watcher) := by
  unfold Run.checkpoint
  refine hcancelled.andThen fun cancelled => ?_
  cases cancelled with
  | true => exact ignores_throw _
  | false => exact hrequested.andThen fun _ => (ignores_throw _).ite (ignores_pure _) _

/-- Wherever a search asks the knowledge base or stops to be checked, the part that is put is
overlooked. -/
structure Setting.Overlooks (put : κ → RunState σ ρ → RunState σ ρ) (setting : Setting σ ρ) :
    Prop where
  callSites : ∀ m, Ignores put (Run.withBase (setting.base.callSites m setting.scope))
  callerAt : ∀ expected implementation site,
    Ignores put (Run.lookup (EntryPoints.callerAt setting.base expected implementation site))
  overriddenRoots : ∀ m, Ignores put (Run.lookup (setting.base.overriddenRoots m))
  functionalImplementations : ∀ t,
    Ignores put (Run.withBase (setting.base.functionalImplementations t setting.scope))
  enclosingMethod : ∀ place, Ignores put (Run.lookup (setting.base.enclosingMethod place))
  isInDocComment : ∀ place, Ignores put (Run.lookup (setting.base.isInDocComment place))
  checkpoint : Ignores put setting.checkpoint

/-- What is overlooked by every question to the knowledge base is overlooked by the lookups. -/
theorem Setting.overlooks_of_questions {put : κ → RunState σ ρ → RunState σ ρ}
    {setting : Setting σ ρ}
    (hquestion : ∀ {γ : Type} (question : StateM σ γ), Ignores put (Run.withBase question))
    (hcheck : Ignores put setting.checkpoint) : setting.Overlooks put where
  callSites _ := hquestion _
  callerAt _ _ _ := hquestion _
  overriddenRoots _ := hquestion _
  functionalImplementations _ := hquestion _
  enclosingMethod _ := hquestion _
  isInDocComment _ := hquestion _
  checkpoint := hcheck

/-- The cache is no part of what is put. -/
structure SparesCache (put : κ → RunState σ ρ → RunState σ ρ) : Prop where
  cache : ∀ k s, (put k s).cache = s.cache
  recache : ∀ k s cache, { put k s with cache } = put k { s with cache }

theorem SparesCache.modify {put : κ → RunState σ ρ → RunState σ ρ} (hput : SparesCache put)
    (change : CallerCache → CallerCache) :
    Ignores put (modify fun s : RunState σ ρ => { s with cache := change s.cache } :
      Run σ ρ PUnit) := by
  intro k s
  change (_, { put k s with cache := change (put k s).cache }) = _
  rw [hput.recache, hput.cache]
  rfl

namespace Setting.Overlooks

variable {setting : Setting σ ρ} {put : κ → RunState σ ρ → RunState σ ρ}
  (h : setting.Overlooks put)

include h

theorem gatherSites (expected : TypeSymbol) (implementation : Option TypeSymbol)
    (sites : List CallSite) (callers : MethodSet) :
    Ignores put (setting.gatherSites expected implementation sites callers) := by
  induction sites generalizing callers with
  | nil => exact ignores_pure _
  | cons site sites ih =>
      unfold Setting.gatherSites
      refine h.checkpoint.bind fun checked => ?_
      cases checked with
      | error failure => exact ignores_pure _
      | ok _ =>
          refine Ignores.bind
            (h.callerAt expected implementation site) fun found => ?_
          cases found with
          | error failure => exact (ih callers).ite (ignores_pure _) _
          | ok caller =>
              cases caller with
              | none => exact ih callers
              | some caller => exact ih (callers.insert caller)

theorem gatherDirect (m : Method) (implementation : Option TypeSymbol) (callers : MethodSet) :
    Ignores put (setting.gatherDirect m implementation callers) := by
  unfold Setting.gatherDirect
  refine h.checkpoint.bind fun checked => ?_
  cases checked with
  | error failure => exact ignores_pure _
  | ok _ =>
      refine (h.callSites m).bind fun sites => ?_
      refine (h.gatherSites m.owner implementation sites.items callers).bind fun gathered => ?_
      obtain ⟨collected, failure⟩ := gathered
      cases failure <;> exact ignores_pure _

theorem gatherRoots (owner : TypeSymbol) (roots : List Method) (callers : MethodSet) :
    Ignores put (setting.gatherRoots owner roots callers) := by
  induction roots generalizing callers with
  | nil => exact ignores_pure _
  | cons root roots ih =>
      unfold Setting.gatherRoots
      refine h.checkpoint.bind fun checked => ?_
      cases checked with
      | error failure => exact ignores_pure _
      | ok _ =>
          refine (h.gatherDirect root (some owner) callers).bind fun gathered => ?_
          obtain ⟨collected, failure⟩ := gathered
          cases failure with
          | none => exact ih collected
          | some failure => exact ignores_pure _

theorem gather (m : Method) (implementation : Option TypeSymbol) :
    Ignores put (setting.gather m implementation) := by
  unfold Setting.gather
  refine (h.gatherDirect m implementation .empty).bind fun gathered => ?_
  obtain ⟨collected, failure⟩ := gathered
  cases failure with
  | some failure => exact ignores_pure _
  | none =>
      refine Ignores.bind (h.overriddenRoots m) fun roots => ?_
      cases roots with
      | error failure => exact ignores_pure _
      | ok roots => exact h.gatherRoots m.owner roots collected

theorem creatorOf (m : Method) : Ignores put (setting.creatorOf m) := by
  unfold Setting.creatorOf
  refine Ignores.ite ?_ (ignores_pure _) _
  cases m.owner.location with
  | none => exact ignores_pure _
  | some place => exact Run.ignores_recover _ (h.enclosingMethod place)

theorem isFunctional (m : Method) : Ignores put (setting.isFunctional m) := by
  unfold Setting.isFunctional
  refine (ignores_pure _).ite (Run.ignores_recover _ ?_) _
  exact Ignores.andThen (h.overriddenRoots m) fun _ => ignores_pure _

theorem expressionOwner (expression : FunctionalExpression) :
    Ignores put (setting.expressionOwner expression) := by
  unfold Setting.expressionOwner
  refine Ignores.andThen (h.isInDocComment expression.location) fun _ => ?_
  exact (ignores_pure _).ite (h.enclosingMethod expression.location) _

theorem gatherExpressions (expressions : List FunctionalExpression) (owners : MethodSet) :
    Ignores put (setting.gatherExpressions expressions owners) := by
  induction expressions generalizing owners with
  | nil => exact ignores_pure _
  | cons expression rest ih =>
      unfold Setting.gatherExpressions
      refine h.checkpoint.bind fun checked => ?_
      cases checked with
      | error failure => exact ignores_pure _
      | ok _ =>
          refine (h.expressionOwner expression).bind fun found => ?_
          cases found with
          | error failure => exact ignores_pure _
          | ok owner =>
              cases owner with
              | none => exact ih owners
              | some owner => exact ih (owners.insert owner)

theorem lambdaOwners (m : Method) : Ignores put (setting.lambdaOwners m) := by
  unfold Setting.lambdaOwners
  refine h.checkpoint.andThen fun _ => ?_
  refine (h.functionalImplementations m.owner).lift.andThen fun expressions => ?_
  refine (h.gatherExpressions expressions.items .empty).lift.andThen fun gathered => ?_
  obtain ⟨owners, failure⟩ := gathered
  simp only
  cases failure <|> expressions.failure with
  | none => exact ignores_pure _
  | some failure => exact (ignores_throw failure).ite (ignores_pure _) _

theorem substitutes (m : Method) : Ignores put (setting.substitutes m) := by
  unfold Setting.substitutes
  refine (h.creatorOf m).andThen fun creator => ?_
  cases creator with
  | some creator => exact ignores_pure _
  | none =>
      refine (h.isFunctional m).andThen fun _ => Ignores.ite ?_ (ignores_pure _) _
      refine (h.lambdaOwners m).andThen fun owners => ?_
      cases owners <;> exact ignores_pure _

section Callers

variable (hput : SparesCache put)

include hput

theorem callersOf (m : Method) (implementation : Option TypeSymbol) :
    Ignores put (setting.callersOf m implementation) := by
  unfold Setting.callersOf
  refine Ignores.reading (fun s => ?_) fun k s => by rw [hput.cache]
  cases s.cache.get? m.key with
  | some callers => exact ignores_pure _
  | none =>
      refine h.checkpoint.andThen fun _ => ?_
      refine (h.gather m implementation).lift.andThen fun gathered => ?_
      obtain ⟨callers, failure⟩ := gathered
      cases failure with
      | none =>
          have hchange := hput.modify fun cache => cache.put m.key callers.toList
          exact Ignores.andThen hchange fun _ => ignores_pure _
      | some failure => exact (ignores_throw failure).ite (ignores_pure _) _

theorem expand (m : Method) : Ignores put (Search.expand setting m) := by
  unfold Search.expand
  refine (h.substitutes m).andThen fun methods => ?_
  cases methods with
  | some methods => exact ignores_pure _
  | none =>
      refine (h.callersOf hput m none).andThen fun callers => ?_
      cases callers with
      | nil => exact (h.isFunctional m).andThen fun _ => ignores_pure _
      | cons caller callers => exact ignores_pure _

theorem visit (m : Method) (tally : Tally) :
    Ignores put (Search.visit setting m tally) := by
  unfold Search.visit
  exact (ignores_pure _).ite ((h.expand hput m).andThen fun _ => ignores_pure _) _

end Callers

section Items

variable {watcher : Watcher ρ} (hreport : ∀ progress, Ignores put
  (Run.askWatch (watcher.report progress) : Run σ ρ (Option Failure)))

include hreport

theorem takeUp (queued : Nat) (tally : Tally) :
    Ignores put (Search.takeUp setting watcher queued tally) := by
  unfold Search.takeUp
  refine h.checkpoint.andThen fun _ => (hreport _).andThen fun report => ?_
  cases report with
  | none => exact ignores_pure _
  | some failure => exact ignores_throw failure

theorem cutOff (level : List Method) (tally : Tally) :
    Ignores put (Search.cutOff setting watcher level tally) := by
  induction level generalizing tally with
  | nil => exact ignores_pure _
  | cons m level ih =>
      unfold Search.cutOff
      exact (h.takeUp hreport _ tally).andThen fun taken => ih _

variable (hput : SparesCache put)

include hput

theorem sweep (level : List Method) (next : Array Method) (tally : Tally) :
    Ignores put (Search.sweep setting watcher level next tally) := by
  induction level generalizing next tally with
  | nil => exact ignores_pure _
  | cons m level ih =>
      unfold Search.sweep
      refine (h.takeUp hreport _ tally).andThen fun taken => ?_
      exact (h.visit hput m taken).andThen fun visited => ih _ _

theorem explore (levels : Nat) (frontier : List Method) (tally : Tally) :
    Ignores put (Search.explore setting watcher levels frontier tally) := by
  induction levels generalizing frontier tally with
  | zero => exact h.cutOff hreport frontier tally
  | succ levels ih =>
      unfold Search.explore
      refine (h.sweep hreport hput frontier #[] tally).andThen fun swept => ?_
      exact (ignores_pure _).ite (ih _ _) _

theorem topCallers (start : Method) (maxDepth : Int) :
    Ignores put (Search.topCallers setting watcher start maxDepth) := by
  unfold Search.topCallers
  exact (h.explore hreport hput _ [start] {}).andThen fun _ => ignores_pure _

end Items

end Setting.Overlooks

end EntryPoints

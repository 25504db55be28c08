import EntryPoints.Proofs.ComposedLookups
import EntryPoints.Proofs.LapseAccounting

/-!
# Searches that outlast their lookups

Every lookup of a search may fail, at any time and in any pattern.  A search ends with a failure
of its own only when it is stopped: the watcher or the knowledge base asked for it at a
checkpoint, or the observer broke off.  All other failures are absorbed where they occur, so a
search that is not stopped returns a result.

The parts of a search are of two kinds.  A run ends with a failure or not, and a collection ends
with what it gathered and the failure that cut it short.  A collection may be cut short by every
failure, and its caller passes on no failure but a cancellation; so of a collection it is enough
that its cancellations are real.
-/

namespace EntryPoints

variable {σ ρ α β γ : Type}

/-! ## Lookups that ask nothing of a search -/

/-- The lookup may fail, but it does not ask to stop. -/
def NeverCancels (question : Lookup σ α) : Prop :=
  ∀ s failure, (question s).1 = .error failure → failure.isCancellation = false

/-- Every lookup may fail, at any time and also after some of its results, but none asks a search
to stop; and the scope of production code is known. -/
structure KnowledgeBase.LeavesStoppingAlone (base : KnowledgeBase σ) : Prop where
  callSites : ∀ m scope s failure,
    (base.callSites m scope s).1.failure = some failure → failure.isCancellation = false
  overriddenRoots : ∀ m, NeverCancels (base.overriddenRoots m)
  functionalImplementations : ∀ t scope s failure,
    (base.functionalImplementations t scope s).1.failure = some failure →
      failure.isCancellation = false
  enclosingMethod : ∀ place, NeverCancels (base.enclosingMethod place)
  isSubtypeOrSelf : ∀ sub sup, NeverCancels (base.isSubtypeOrSelf sub sup)
  isInDocComment : ∀ place, NeverCancels (base.isInDocComment place)
  productionScope : ∀ s, ∃ scope, (base.productionScope s).1 = .ok scope

theorem neverCancels_pure (a : α) : NeverCancels (pure a : Lookup σ α) := by
  rintro s failure ⟨⟩

theorem NeverCancels.bind {question : Lookup σ α} {next : α → Lookup σ β}
    (hquestion : NeverCancels question) (hnext : ∀ a, NeverCancels (next a)) :
    NeverCancels (question >>= next) := by
  intro s failure hfailed
  change (ExceptT.bindCont next (question s).1 (question s).2).1 = .error failure at hfailed
  cases hanswer : (question s).1 with
  | ok a =>
      rw [hanswer] at hfailed
      exact hnext a _ failure hfailed
  | error first =>
      rw [hanswer] at hfailed
      cases hfailed
      exact hquestion s _ hanswer

theorem isComposable_neverCancels :
    IsComposable fun {α : Type} (question : Lookup σ α) => NeverCancels question where
  pure := neverCancels_pure
  bind := NeverCancels.bind

variable {base : KnowledgeBase σ}

theorem KnowledgeBase.LeavesStoppingAlone.callerAt (hbase : base.LeavesStoppingAlone)
    (expected : TypeSymbol) (implementation : Option TypeSymbol) (site : CallSite) :
    NeverCancels (callerAt base expected implementation site) :=
  isComposable_neverCancels.callerAt (hbase.isInDocComment site.location)
    (hbase.enclosingMethod site.location) hbase.isSubtypeOrSelf expected implementation

/-! ## Where a run ends -/

/-- Of a run: it answers, or it was stopped in the state where it ended. -/
def AnswersOrStopped (Stopped : Failure → RunState σ ρ → Prop) :
    Except Failure α → RunState σ ρ → Prop
  | .ok _, _ => True
  | .error failure, s => Stopped failure s

/-- Of a collection: if a cancellation cut it short, it was stopped in the state where it
ended. -/
def CutShortOrStopped (Stopped : Failure → RunState σ ρ → Prop) :
    β × Option Failure → RunState σ ρ → Prop
  | (_, none), _ => True
  | (_, some failure), s => failure.isCancellation = true → Stopped failure s

namespace Run

def Ensures (action : StateM (RunState σ ρ) γ) (Result : γ → RunState σ ρ → Prop) : Prop :=
  ∀ s, Result (action s).1 (action s).2

/-- The run fails only when it is stopped. -/
abbrev Endures (Stopped : Failure → RunState σ ρ → Prop) (action : Run σ ρ α) : Prop :=
  Ensures (action : StateM (RunState σ ρ) (Except Failure α)) (AnswersOrStopped Stopped)

/-- The collection reports a cancellation only when it is stopped. -/
abbrev Absorbs (Stopped : Failure → RunState σ ρ → Prop)
    (action : StateM (RunState σ ρ) (β × Option Failure)) : Prop :=
  Ensures action (CutShortOrStopped Stopped)

variable {Stopped : Failure → RunState σ ρ → Prop}

theorem Ensures.bind {action : StateM (RunState σ ρ) γ} {Middle : γ → RunState σ ρ → Prop}
    {next : γ → StateM (RunState σ ρ) β} {Result : β → RunState σ ρ → Prop}
    (haction : Ensures action Middle)
    (hnext : ∀ c s, Middle c s → Result (next c s).1 (next c s).2) :
    Ensures (action >>= next) Result :=
  fun s => hnext _ _ (haction s)

theorem endures_pure (a : α) : Endures Stopped (pure a : Run σ ρ α) := fun _ => trivial

theorem endures_get : Endures Stopped (get : Run σ ρ (RunState σ ρ)) := fun _ => trivial

theorem endures_modify (change : RunState σ ρ → RunState σ ρ) :
    Endures Stopped (modify change : Run σ ρ PUnit) := fun _ => trivial

theorem Endures.bind {action : Run σ ρ α} {next : α → Run σ ρ β}
    (haction : Endures Stopped action) (hnext : ∀ a, Endures Stopped (next a)) :
    Endures Stopped (action >>= next) := by
  have hcont (result : Except Failure α) (s : RunState σ ρ)
      (hresult : AnswersOrStopped Stopped result s) :
      AnswersOrStopped Stopped (ExceptT.bindCont next result s).1
        (ExceptT.bindCont next result s).2 := by
    cases result with
    | ok a => exact hnext a s
    | error failure => exact hresult
  exact Ensures.bind haction hcont

theorem Ensures.bindLift {action : StateM (RunState σ ρ) γ} {Middle : γ → RunState σ ρ → Prop}
    {next : γ → Run σ ρ β} (haction : Ensures action Middle)
    (hnext : ∀ c s, Middle c s → AnswersOrStopped Stopped (next c s).1 (next c s).2) :
    Endures Stopped (ExceptT.lift action >>= next) :=
  fun s => hnext _ _ (haction s)

/-- A collection that was cut short is answered with what it gathered, unless it was stopped. -/
theorem answersOrStopped_of_cutShort {failure : Failure} {s : RunState σ ρ} {collected : β}
    (hcut : CutShortOrStopped Stopped (collected, some failure) s) (answer : α) :
    AnswersOrStopped Stopped
      ((if failure.isCancellation = true then throw failure else pure answer : Run σ ρ α) s).1
      ((if failure.isCancellation = true then throw failure else pure answer : Run σ ρ α) s).2 := by
  by_cases hcancelled : failure.isCancellation = true
  · rw [if_pos hcancelled]
    exact hcut hcancelled
  · rw [if_neg hcancelled]
    trivial

/-- What a search asks is a lookup in the larger state of the run. -/
theorem neverCancels_lookup {question : Lookup σ α} (hquestion : NeverCancels question) :
    NeverCancels (Run.lookup question : Run σ ρ α) :=
  fun s => hquestion s.base

theorem ensures_of_neverCancels {action : Run σ ρ α} (haction : NeverCancels action) :
    Ensures (action : StateM (RunState σ ρ) (Except Failure α))
      fun answer _ => ∀ failure, answer = .error failure → failure.isCancellation = false :=
  haction

theorem ensures_lookup {question : Lookup σ α} (hquestion : NeverCancels question) :
    Ensures (Run.lookup question : Run σ ρ α)
      fun answer _ => ∀ failure, answer = .error failure → failure.isCancellation = false :=
  neverCancels_lookup hquestion

theorem ensures_withBase (question : StateM σ α) :
    Ensures (Run.withBase question : StateM (RunState σ ρ) α)
      fun answer s => ∃ t, question t = (answer, s.base) :=
  fun s => ⟨s.base, rfl⟩

theorem ensures_withWatch (question : StateM ρ α) :
    Ensures (Run.withWatch question : StateM (RunState σ ρ) α)
      fun answer s => ∃ w, question w = (answer, s.watch) :=
  fun s => ⟨s.watch, rfl⟩

theorem endures_lookup {question : Lookup σ α} (hquestion : ∀ s, ∃ a, (question s).1 = .ok a) :
    Endures Stopped (Run.lookup question : Run σ ρ α) := by
  intro s
  obtain ⟨a, ha⟩ := hquestion s.base
  change AnswersOrStopped Stopped (question s.base).1 _
  rw [ha]
  trivial

theorem endures_recover {action : Run σ ρ α} (haction : NeverCancels action) (answer : α) :
    Endures Stopped (Run.recover answer action) := by
  unfold Run.recover
  simp only [tryCatch, tryCatchThe, MonadExceptOf.tryCatch, ExceptT.tryCatch, ExceptT.mk]
  refine Ensures.bind (ensures_of_neverCancels haction) ?_
  intro result s hresult
  cases result with
  | ok a => trivial
  | error failure =>
      simp only [hresult failure rfl]
      trivial

end Run

/-! ## Parts of a search -/

/-- A search on a knowledge base that asks it for nothing, and whose checkpoints fail only when
it is stopped. -/
structure Setting.Endures (setting : Setting σ ρ) (Stopped : Failure → RunState σ ρ → Prop) :
    Prop where
  base : setting.base.LeavesStoppingAlone
  checkpoint : Run.Endures Stopped setting.checkpoint

namespace Setting.Endures

variable {setting : Setting σ ρ} {Stopped : Failure → RunState σ ρ → Prop}
  (h : setting.Endures Stopped)

include h

theorem gatherSites (expected : TypeSymbol) (implementation : Option TypeSymbol)
    (sites : List CallSite) (callers : MethodSet) :
    Run.Absorbs Stopped (setting.gatherSites expected implementation sites callers) := by
  induction sites generalizing callers with
  | nil => exact fun _ => trivial
  | cons site sites ih =>
      unfold Setting.gatherSites
      refine Run.Ensures.bind h.checkpoint ?_
      rintro (failure | ⟨⟩) s hchecked
      · exact fun _ => hchecked
      refine Run.Ensures.bind
        (Run.ensures_lookup (h.base.callerAt expected implementation site)) ?_ s
      rintro (failure | caller) t hfound
      · by_cases htransient : failure.isTransient = true
        · simp only [if_pos htransient]
          exact ih callers t
        · simp only [if_neg htransient]
          intro hcancelled
          rw [hfound failure rfl] at hcancelled
          cases hcancelled
      · cases caller with
        | none => exact ih callers t
        | some caller => exact ih (callers.insert caller) t

theorem gatherDirect (m : Method) (implementation : Option TypeSymbol) (callers : MethodSet) :
    Run.Absorbs Stopped (setting.gatherDirect m implementation callers) := by
  unfold Setting.gatherDirect
  refine Run.Ensures.bind h.checkpoint ?_
  rintro (failure | ⟨⟩) s hchecked
  · exact fun _ => hchecked
  have hsites : Run.Ensures
      (Run.withBase (setting.base.callSites m setting.scope) : StateM (RunState σ ρ) _)
      fun sites _ => ∀ failure, sites.failure = some failure → failure.isCancellation = false :=
    fun s failure hfailed => h.base.callSites m setting.scope s.base failure hfailed
  refine Run.Ensures.bind hsites ?_ s
  intro sites t hsites
  refine Run.Ensures.bind (h.gatherSites m.owner implementation sites.items callers) ?_ t
  rintro ⟨collected, failure | failure⟩ u hgathered
  · change CutShortOrStopped Stopped (collected, sites.failure) u
    cases hfailed : sites.failure with
    | none => trivial
    | some failure =>
        intro hcancelled
        rw [hsites failure hfailed] at hcancelled
        cases hcancelled
  · exact hgathered

theorem gatherRoots (owner : TypeSymbol) (roots : List Method) (callers : MethodSet) :
    Run.Absorbs Stopped (setting.gatherRoots owner roots callers) := by
  induction roots generalizing callers with
  | nil => exact fun _ => trivial
  | cons root roots ih =>
      unfold Setting.gatherRoots
      refine Run.Ensures.bind h.checkpoint ?_
      rintro (failure | ⟨⟩) s hchecked
      · exact fun _ => hchecked
      refine Run.Ensures.bind (h.gatherDirect root (some owner) callers) ?_ s
      rintro ⟨collected, failure | failure⟩ t hgathered
      · exact ih collected t
      · exact hgathered

theorem gather (m : Method) (implementation : Option TypeSymbol) :
    Run.Absorbs Stopped (setting.gather m implementation) := by
  unfold Setting.gather
  refine Run.Ensures.bind (h.gatherDirect m implementation .empty) ?_
  rintro ⟨collected, failure | failure⟩ s hgathered
  · refine Run.Ensures.bind (Run.ensures_lookup (h.base.overriddenRoots m)) ?_ s
    rintro (failure | roots) t hroots
    · intro hcancelled
      rw [hroots failure rfl] at hcancelled
      cases hcancelled
    · exact h.gatherRoots m.owner roots collected t
  · exact hgathered

theorem callersOf (m : Method) (implementation : Option TypeSymbol) :
    Run.Endures Stopped (setting.callersOf m implementation) := by
  unfold Setting.callersOf
  refine Run.endures_get.bind fun s => ?_
  cases s.cache.get? m.key with
  | some callers => exact Run.endures_pure callers
  | none =>
      refine h.checkpoint.bind fun _ => ?_
      refine Run.Ensures.bindLift (h.gather m implementation) ?_
      rintro ⟨callers, failure | failure⟩ t hgathered
      · trivial
      · exact Run.answersOrStopped_of_cutShort hgathered callers.toList

theorem creatorOf (m : Method) : Run.Endures Stopped (setting.creatorOf m) := by
  unfold Setting.creatorOf
  split
  · cases m.owner.location with
    | none => exact Run.endures_pure none
    | some place =>
        exact Run.endures_recover (Run.neverCancels_lookup (h.base.enclosingMethod place)) none
  · exact Run.endures_pure none

theorem isFunctional (m : Method) : Run.Endures Stopped (setting.isFunctional m) := by
  unfold Setting.isFunctional
  split
  · exact Run.endures_pure true
  · refine Run.endures_recover (NeverCancels.bind ?_ fun _ => neverCancels_pure _) false
    exact Run.neverCancels_lookup (h.base.overriddenRoots m)

theorem expressionOwner (expression : FunctionalExpression) :
    NeverCancels (setting.expressionOwner expression) := by
  unfold Setting.expressionOwner
  exact isComposable_neverCancels.test
    (Run.neverCancels_lookup (h.base.isInDocComment expression.location)) (neverCancels_pure none)
    (Run.neverCancels_lookup (h.base.enclosingMethod expression.location))

theorem gatherExpressions (expressions : List FunctionalExpression) (owners : MethodSet) :
    Run.Absorbs Stopped (setting.gatherExpressions expressions owners) := by
  induction expressions generalizing owners with
  | nil => exact fun _ => trivial
  | cons expression rest ih =>
      unfold Setting.gatherExpressions
      refine Run.Ensures.bind h.checkpoint ?_
      rintro (failure | ⟨⟩) s hchecked
      · exact fun _ => hchecked
      refine Run.Ensures.bind (Run.ensures_of_neverCancels (h.expressionOwner expression)) ?_ s
      rintro (failure | owner) t howner
      · intro hcancelled
        rw [howner failure rfl] at hcancelled
        cases hcancelled
      · cases owner with
        | none => exact ih owners t
        | some owner => exact ih (owners.insert owner) t

theorem lambdaOwners (m : Method) : Run.Endures Stopped (setting.lambdaOwners m) := by
  unfold Setting.lambdaOwners
  refine h.checkpoint.bind fun _ => ?_
  have hexpressions : Run.Ensures
      (Run.withBase (setting.base.functionalImplementations m.owner setting.scope) :
        StateM (RunState σ ρ) _)
      fun found _ => ∀ failure, found.failure = some failure → failure.isCancellation = false :=
    fun s failure hfailed =>
      h.base.functionalImplementations m.owner setting.scope s.base failure hfailed
  refine Run.Ensures.bindLift hexpressions ?_
  intro expressions s hexpressions
  refine Run.Ensures.bindLift (h.gatherExpressions expressions.items .empty) ?_ s
  rintro ⟨owners, failure | failure⟩ t hgathered
  · cases hfailed : expressions.failure with
    | none => trivial
    | some failure =>
        have hcut : CutShortOrStopped Stopped (owners, some failure) t := by
          intro hcancelled
          rw [hexpressions failure hfailed] at hcancelled
          cases hcancelled
        exact Run.answersOrStopped_of_cutShort hcut owners.toList
  · exact Run.answersOrStopped_of_cutShort hgathered owners.toList

theorem substitutes (m : Method) : Run.Endures Stopped (setting.substitutes m) := by
  unfold Setting.substitutes
  refine (h.creatorOf m).bind fun creator => ?_
  cases creator with
  | some creator => exact Run.endures_pure _
  | none =>
      refine (h.isFunctional m).bind fun isFunctional => ?_
      cases isFunctional with
      | false => exact Run.endures_pure _
      | true =>
          refine (h.lambdaOwners m).bind fun owners => ?_
          cases owners <;> exact Run.endures_pure _

theorem expand (m : Method) : Run.Endures Stopped (Search.expand setting m) := by
  unfold Search.expand
  refine (h.substitutes m).bind fun substitutes => ?_
  cases substitutes with
  | some methods => exact Run.endures_pure _
  | none =>
      refine (h.callersOf m none).bind fun callers => ?_
      cases callers with
      | nil => exact (h.isFunctional m).bind fun _ => Run.endures_pure _
      | cons caller callers => exact Run.endures_pure _

theorem visit (m : Method) (tally : Tally) :
    Run.Endures Stopped (Search.visit setting m tally) := by
  unfold Search.visit
  split
  · exact Run.endures_pure _
  · exact (h.expand m).bind fun _ => Run.endures_pure _

end Setting.Endures

/-! ## The search -/

/-- A search was stopped in the state where it ended: its watcher or the knowledge base has just
asked for it, or its observer has just broken off. -/
inductive StoppedBy (base : KnowledgeBase σ) (watcher : Watcher ρ) :
    Failure → RunState σ ρ → Prop
  | owner {s : RunState σ ρ} (w : ρ) (hasked : watcher.isCancelled w = (true, s.watch)) :
      StoppedBy base watcher .cancelledByOwner s
  | knowledgeBase {s : RunState σ ρ} (t : σ)
      (hasked : base.cancellationRequested t = (true, s.base)) :
      StoppedBy base watcher .cancelledByKnowledgeBase s
  | observer {s : RunState σ ρ} {failure : Failure} (progress : Progress) (w : ρ)
      (hbroken : watcher.report progress w = (some failure, s.watch)) :
      StoppedBy base watcher failure s

theorem Run.endures_checkpoint (base : KnowledgeBase σ) (watcher : Watcher ρ) :
    Run.Endures (StoppedBy base watcher) (Run.checkpoint base watcher) := by
  unfold Run.checkpoint
  refine (ensures_withWatch watcher.isCancelled).bindLift ?_
  rintro (_ | _) s ⟨w, hasked⟩
  · refine (ensures_withBase base.cancellationRequested).bindLift ?_ s
    rintro (_ | _) u ⟨t, hrequested⟩
    · trivial
    · exact .knowledgeBase t hrequested
  · exact .owner w hasked

namespace Search

variable {setting : Setting σ ρ} {watcher : Watcher ρ}
  (h : setting.Endures (StoppedBy base watcher))

include h

theorem endures_takeUp (queued : Nat) (tally : Tally) :
    Run.Endures (StoppedBy base watcher) (takeUp setting watcher queued tally) := by
  unfold takeUp
  refine h.checkpoint.bind fun _ => ?_
  refine (Run.ensures_withWatch _).bindLift ?_
  rintro (_ | failure) s ⟨w, hreport⟩
  · trivial
  · exact .observer _ w hreport

theorem endures_sweep (level : List Method) (next : Array Method) (tally : Tally) :
    Run.Endures (StoppedBy base watcher) (sweep setting watcher level next tally) := by
  induction level generalizing next tally with
  | nil => exact Run.endures_pure _
  | cons m level ih =>
      unfold sweep
      refine (endures_takeUp h _ tally).bind fun tally => ?_
      exact (h.visit m tally).bind fun visited => ih _ _

theorem endures_cutOff (level : List Method) (tally : Tally) :
    Run.Endures (StoppedBy base watcher) (cutOff setting watcher level tally) := by
  induction level generalizing tally with
  | nil => exact Run.endures_pure _
  | cons m level ih =>
      unfold cutOff
      exact (endures_takeUp h _ tally).bind fun tally => ih _

theorem endures_explore (levels : Nat) (frontier : List Method) (tally : Tally) :
    Run.Endures (StoppedBy base watcher) (explore setting watcher levels frontier tally) := by
  induction levels generalizing frontier tally with
  | zero => exact endures_cutOff h frontier tally
  | succ levels ih =>
      unfold explore
      refine (endures_sweep h frontier #[] tally).bind fun swept => ?_
      obtain ⟨next, tally⟩ := swept
      by_cases hempty : next.isEmpty = true
      · simp only [if_pos hempty]
        exact Run.endures_pure _
      · simp only [if_neg hempty]
        exact ih next.toList tally

end Search

/-- Whatever lookups fail on the way, a search returns a result, or it was stopped in the state
where it ended. -/
theorem search_outlasts_lookups (finder : Finder) (hbase : base.LeavesStoppingAlone)
    (watcher : Watcher ρ) (start : Method) (s : RunState σ ρ) :
    (∃ result, (finder.search (.ok base) watcher start s).1 = .ok result) ∨
      ∃ failure, (finder.search (.ok base) watcher start s).1 = .error failure ∧
        StoppedBy base watcher failure (finder.search (.ok base) watcher start s).2 := by
  have hendures : Run.Endures (StoppedBy base watcher) (finder.search (.ok base) watcher start) := by
    unfold Finder.search
    refine (Run.endures_modify _).bind fun _ => ?_
    change Run.Endures _ (Run.lookup base.productionScope >>= fun scope => Search.topCallers
      (finder.setting base scope (Run.checkpoint base watcher)) watcher start finder.maxDepth)
    refine (Run.endures_lookup hbase.productionScope).bind fun scope => ?_
    refine Run.Endures.bind ?_ fun _ => Run.endures_pure _
    exact Search.endures_explore ⟨hbase, Run.endures_checkpoint base watcher⟩ _ [start] {}
  have hended := hendures s
  cases hresult : (finder.search (.ok base) watcher start s).1 with
  | ok result => exact .inl ⟨result, rfl⟩
  | error failure =>
      rw [hresult] at hended
      exact .inr ⟨failure, rfl, hended⟩

/-! ## Scripted graphs -/

namespace ScriptedGraph

/-- No failure of the script asks a search to stop, and the scope of production code is known. -/
def FailsQuietly (graph : ScriptedGraph) : Prop :=
  ∀ f ∈ graph.failures, f.failure.isCancellation = false ∧ f.query ≠ .productionScope

instance (graph : ScriptedGraph) : Decidable graph.FailsQuietly :=
  inferInstanceAs (Decidable (∀ f ∈ graph.failures, _))

variable {graph : ScriptedGraph}

theorem FailsQuietly.of_failureOf (h : graph.FailsQuietly) {query : ScriptedQuery}
    {subject : ScriptedSubject} {failure : Failure}
    (hfailure : graph.failureOf query subject = some failure) :
    failure.isCancellation = false ∧ query ≠ .productionScope := by
  unfold failureOf at hfailure
  rw [Option.map_eq_some_iff] at hfailure
  obtain ⟨f, hf, rfl⟩ := hfailure
  have hquery : f.query = query := by
    have hfound := List.find?_some hf
    rw [Bool.and_eq_true, beq_iff_eq] at hfound
    exact hfound.1
  have hquiet := h f (List.mem_reverse.mp (List.mem_of_find?_eq_some hf))
  exact ⟨hquiet.1, hquery ▸ hquiet.2⟩

theorem FailsQuietly.mayFail (h : graph.FailsQuietly) (query : ScriptedQuery)
    (subject : ScriptedSubject) : NeverCancels (graph.mayFail query subject) := by
  unfold ScriptedGraph.mayFail
  cases hfailure : graph.failureOf query subject with
  | none => exact neverCancels_pure ()
  | some first =>
      rintro s failure ⟨⟩
      exact (h.of_failureOf hfailure).1

theorem FailsQuietly.findAncestor (h : graph.FailsQuietly) (sup : TypeSymbol)
    (ancestors : List TypeSymbol) : NeverCancels (graph.findAncestor sup ancestors) := by
  induction ancestors with
  | nil => exact neverCancels_pure false
  | cons t rest ih =>
      unfold ScriptedGraph.findAncestor
      split
      · exact neverCancels_pure true
      · exact (h.mayFail _ _).bind fun _ => ih

theorem failure_callSites (graph : ScriptedGraph) (m : Method) (scope : Scope) (s : State) :
    (graph.knowledgeBase.callSites m scope s).1.failure =
      graph.failureOf .callSites (.position (graph.methodPosition m)) := by
  simp only [knowledgeBase]
  cases graph.failureOf .callSites (.position (graph.methodPosition m)) <;> rfl

theorem failure_functionalImplementations (graph : ScriptedGraph) (t : TypeSymbol)
    (scope : Scope) (s : State) :
    (graph.knowledgeBase.functionalImplementations t scope s).1.failure =
      graph.failureOf .functionalImplementations (.position (graph.typePosition t)) := by
  simp only [knowledgeBase]
  cases graph.failureOf .functionalImplementations (.position (graph.typePosition t)) <;> rfl

theorem FailsQuietly.leavesStoppingAlone (h : graph.FailsQuietly) :
    graph.knowledgeBase.LeavesStoppingAlone where
  callSites m scope s failure hfailed := by
    rw [failure_callSites] at hfailed
    exact (h.of_failureOf hfailed).1
  overriddenRoots m := (h.mayFail _ _).bind fun _ => neverCancels_pure _
  functionalImplementations t scope s failure hfailed := by
    rw [failure_functionalImplementations] at hfailed
    exact (h.of_failureOf hfailed).1
  enclosingMethod place := (h.mayFail _ _).bind fun _ => neverCancels_pure _
  isSubtypeOrSelf sub sup := h.findAncestor sup (graph.ancestors sub)
  isInDocComment place := (h.mayFail _ _).bind fun _ => neverCancels_pure _
  productionScope s := by
    have hnone : graph.failureOf .productionScope .everything = none := by
      rw [Option.eq_none_iff_forall_ne_some]
      intro failure hfailure
      exact (h.of_failureOf hfailure).2 rfl
    refine ⟨graph.scope, ?_⟩
    simp only [knowledgeBase, ScriptedGraph.mayFail, hnone]
    rfl

end ScriptedGraph

/-- The graph in which `b` calls `a`, and every kind of lookup about them fails. -/
def brokenGraph : ScriptedGraph :=
  faultyGraph
    [⟨.callSites, .position (some 1), .lookupBroken "lost"⟩,
      ⟨.overriddenRoots, .position (some 0), .lookupBroken "lost"⟩,
      ⟨.overriddenRoots, .position (some 1), .lookupFailed "busy"⟩,
      ⟨.isInDocComment, .place ⟨"App.java", 1, 110, 120⟩, .lookupFailed "busy"⟩,
      ⟨.enclosingMethod, .place ⟨"App.java", 1, 110, 120⟩, .lookupBroken "lost"⟩]

/-- The search from `a` in the broken graph, which nobody stops, returns a result. -/
theorem search_outlasts_brokenGraph :
    let base := { brokenGraph.knowledgeBase with cancellationRequested := pure false }
    base.LeavesStoppingAlone ∧
      ∃ result, (Finder.search {} (.ok base) Watcher.idle (graphMethod "a" 0)
        (graphRun brokenGraph)).1 = .ok result := by
  intro base
  have hquiet : brokenGraph.FailsQuietly := by decide
  have hbase := hquiet.leavesStoppingAlone
  have hpatient : base.LeavesStoppingAlone :=
    ⟨hbase.callSites, hbase.overriddenRoots, hbase.functionalImplementations,
      hbase.enclosingMethod, hbase.isSubtypeOrSelf, hbase.isInDocComment, hbase.productionScope⟩
  refine ⟨hpatient, ?_⟩
  refine (search_outlasts_lookups {} hpatient Watcher.idle (graphMethod "a" 0)
    (graphRun brokenGraph)).resolve_right ?_
  rintro ⟨failure, -, hstopped⟩
  cases hstopped with
  | owner w hasked => cases hasked
  | knowledgeBase t hasked => cases hasked
  | observer progress w hbroken => cases hbroken

end EntryPoints

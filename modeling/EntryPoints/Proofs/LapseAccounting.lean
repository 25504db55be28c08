import EntryPoints.Proofs.CallerCollection
import EntryPoints.ScriptedGraph
import EntryPoints.Search.Finder

/-!
# Lookups that fail while callers are collected

A knowledge base is watched by one that keeps a note of every lookup that fails and
changes nothing else.  The notes of one collection of callers tell whether its
result is remembered: it is, exactly when the collection is not cancelled and every
failure on the way was passed over, that is, a failure for the moment of a lookup
about a single call site.

A failure that is passed over loses the caller at its site.  The list without this
caller is remembered all the same, so later searches do not ask again.
-/

namespace EntryPoints

variable {σ ρ α β γ : Type}

/-- A lookup that failed, and how it failed. -/
structure Lapse where
  query : ScriptedQuery
  failure : Failure

/-- Whether a collection of callers asks the query about a single call site. -/
def ScriptedQuery.isAboutSite : ScriptedQuery → Bool
  | .enclosingMethod | .isSubtypeOrSelf | .isInDocComment => true
  | _ => false

/-- A collection goes on after the lapse, without the site that it was about. -/
def Lapse.isPassedOver (lapse : Lapse) : Bool :=
  lapse.query.isAboutSite && lapse.failure.isTransient

/-! ## Keeping notes -/

def noting (query : ScriptedQuery) (question : Lookup σ α) :
    Lookup (σ × List Lapse) α := fun s =>
  match question s.1 with
  | (.ok a, t) => (.ok a, t, s.2)
  | (.error failure, t) => (.error failure, t, s.2 ++ [⟨query, failure⟩])

def notingFound (query : ScriptedQuery) (question : StateM σ (Found α)) :
    StateM (σ × List Lapse) (Found α) := fun s =>
  let answered := question s.1
  (answered.1, answered.2, s.2 ++ (answered.1.failure.map (Lapse.mk query)).toList)

/-- The same knowledge base with notes of the lookups that failed. -/
def KnowledgeBase.noting (base : KnowledgeBase σ) : KnowledgeBase (σ × List Lapse) where
  callSites m scope := notingFound .callSites (base.callSites m scope)
  overriddenRoots m := EntryPoints.noting .overriddenRoots (base.overriddenRoots m)
  functionalImplementations t scope :=
    notingFound .functionalImplementations (base.functionalImplementations t scope)
  enclosingMethod place := EntryPoints.noting .enclosingMethod (base.enclosingMethod place)
  isSubtypeOrSelf sub sup :=
    EntryPoints.noting .isSubtypeOrSelf (base.isSubtypeOrSelf sub sup)
  isInDocComment place := EntryPoints.noting .isInDocComment (base.isInDocComment place)
  productionScope := EntryPoints.noting .productionScope base.productionScope
  methodsNamed owner name := EntryPoints.noting .methodsNamed (base.methodsNamed owner name)
  cancellationRequested s :=
    let answered := base.cancellationRequested s.1
    (answered.1, answered.2, s.2)

def RunState.noted (s : RunState σ ρ) (lapses : List Lapse) :
    RunState (σ × List Lapse) ρ :=
  ⟨(s.base, lapses), s.watch, s.cache⟩

/-- The first lookup answers as the second does and keeps a note of its failure. -/
def Annotates (about : ScriptedQuery → Prop) (noted : Lookup (σ × List Lapse) α)
    (plain : Lookup σ α) : Prop :=
  ∀ s lapses,
    match plain s with
    | (.ok a, t) => noted (s, lapses) = (.ok a, t, lapses)
    | (.error failure, t) =>
      ∃ query, about query ∧
        noted (s, lapses) = (.error failure, t, lapses ++ [⟨query, failure⟩])

section Lookups

variable {about : ScriptedQuery → Prop}

theorem annotates_noting (about : ScriptedQuery → Prop) {query : ScriptedQuery}
    (hquery : about query) (question : Lookup σ α) :
    Annotates about (noting query question) question := by
  intro s lapses
  unfold noting
  cases question s with
  | mk result t =>
      cases result with
      | ok a => rfl
      | error failure => exact ⟨query, hquery, rfl⟩

theorem annotates_pure (a : α) :
    Annotates about (pure a : Lookup (σ × List Lapse) α) (pure a) :=
  fun _ _ => rfl

theorem Annotates.bind {noted : Lookup (σ × List Lapse) α} {plain : Lookup σ α}
    {next : α → Lookup (σ × List Lapse) β} {f : α → Lookup σ β}
    (hquestion : Annotates about noted plain) (hnext : ∀ a, Annotates about (next a) (f a)) :
    Annotates about (noted >>= next) (plain >>= f) := by
  intro s lapses
  have hasked := hquestion s lapses
  change match (match plain s with
      | (result, t) => ExceptT.bindCont f result t) with
    | (.ok b, t) => ExceptT.bindCont next (noted (s, lapses)).1 (noted (s, lapses)).2 =
        (.ok b, t, lapses)
    | (.error failure, t) =>
      ∃ query, about query ∧
        ExceptT.bindCont next (noted (s, lapses)).1 (noted (s, lapses)).2 =
          (.error failure, t, lapses ++ [⟨query, failure⟩])
  cases hplain : plain s with
  | mk result t =>
      cases result with
      | ok a =>
          simp only [hplain] at hasked
          rw [hasked]
          exact hnext a t lapses
      | error failure =>
          simp only [hplain] at hasked
          obtain ⟨query, hquery, hnoted⟩ := hasked
          rw [hnoted]
          exact ⟨query, hquery, rfl⟩

theorem Annotates.ite {noted more : Lookup (σ × List Lapse) α} {plain less : Lookup σ α}
    (hthen : Annotates about noted plain) (helse : Annotates about more less) (found : Bool) :
    Annotates about (if found = true then noted else more)
      (if found = true then plain else less) := by
  cases found with
  | true => exact hthen
  | false => exact helse

variable {noted : TypeSymbol → TypeSymbol → Lookup (σ × List Lapse) Bool}
  {plain : TypeSymbol → TypeSymbol → Lookup σ Bool}

theorem annotates_comparable (hsubtype : ∀ a b, Annotates about (noted a b) (plain a b))
    (a b : TypeSymbol) : Annotates about (comparable noted a b) (comparable plain a b) :=
  (hsubtype a b).bind fun found => (annotates_pure true).ite (hsubtype b a) found

theorem annotates_anyComparable (hsubtype : ∀ a b, Annotates about (noted a b) (plain a b))
    (a : TypeSymbol) (bounds : List TypeSymbol) :
    Annotates about (anyComparable noted a bounds) (anyComparable plain a bounds) := by
  induction bounds with
  | nil => exact annotates_pure false
  | cons b rest ih =>
      unfold anyComparable
      exact (annotates_comparable hsubtype a b).bind fun found =>
        (annotates_pure true).ite ih found

theorem annotates_related (hsubtype : ∀ a b, Annotates about (noted a b) (plain a b))
    (expected receiver : TypeSymbol) :
    Annotates about (related noted expected receiver) (related plain expected receiver) :=
  (annotates_comparable hsubtype expected receiver).bind fun found =>
    (annotates_pure true).ite
      ((annotates_anyComparable hsubtype expected receiver.bounds).ite (annotates_pure false)
        receiver.isTypeParameter) found

mutual

theorem annotates_compatible (hsubtype : ∀ a b, Annotates about (noted a b) (plain a b))
    (implementation : TypeSymbol) : ∀ receiver : TypeSymbol,
      Annotates about (compatible noted implementation receiver)
        (compatible plain implementation receiver)
  | ⟨qualifiedName, name, binaryName, kind, isAnonymous, isExternal, bounds, location⟩ => by
    unfold compatible
    by_cases hinterface : kind = .interfaceType ∨ kind = .annotationType
    · simp only [if_pos hinterface]
      exact annotates_pure true
    · simp only [if_neg hinterface]
      by_cases hparameter : kind = .typeParameter
      · simp only [if_pos hparameter]
        cases bounds with
        | nil => exact annotates_pure true
        | cons bound rest =>
            exact (annotates_compatible hsubtype implementation bound).bind fun found =>
              (annotates_pure true).ite
                (annotates_anyCompatible hsubtype implementation rest) found
      · simp only [if_neg hparameter]
        exact hsubtype _ _

theorem annotates_anyCompatible (hsubtype : ∀ a b, Annotates about (noted a b) (plain a b))
    (implementation : TypeSymbol) : ∀ bounds : List TypeSymbol,
      Annotates about (anyCompatible noted implementation bounds)
        (anyCompatible plain implementation bounds)
  | [] => annotates_pure false
  | bound :: rest => by
    unfold anyCompatible
    exact (annotates_compatible hsubtype implementation bound).bind fun found =>
      (annotates_pure true).ite (annotates_anyCompatible hsubtype implementation rest) found

end

theorem annotates_callerAt (base : KnowledgeBase σ) (expected : TypeSymbol)
    (implementation : Option TypeSymbol) (site : CallSite) :
    Annotates (fun query => query.isAboutSite = true)
      (callerAt base.noting expected implementation site)
      (callerAt base expected implementation site) := by
  have henclosing : Annotates (fun query => query.isAboutSite = true)
      (base.noting.enclosingMethod site.location) (base.enclosingMethod site.location) :=
    annotates_noting (·.isAboutSite = true) rfl _
  have hsubtype : ∀ a b, Annotates (fun query => query.isAboutSite = true)
      (base.noting.isSubtypeOrSelf a b) (base.isSubtypeOrSelf a b) :=
    fun a b => annotates_noting (·.isAboutSite = true) rfl _
  unfold callerAt
  refine (annotates_noting (·.isAboutSite = true) rfl
    (base.isInDocComment site.location)).bind fun inComment => ?_
  refine (annotates_pure none).ite ?_ inComment
  cases site.receiver with
  | none => exact henclosing
  | some receiver =>
      refine (annotates_related hsubtype expected receiver).bind fun isRelated => ?_
      refine Annotates.ite ?_ (annotates_pure none) isRelated
      cases implementation with
      | none => exact henclosing
      | some owner =>
          exact (annotates_compatible hsubtype owner receiver).bind fun isCompatible =>
            henclosing.ite (annotates_pure none) isCompatible

end Lookups

/-! ## Notes of a collection -/

/-- The notes of a collection that ended early, or not at all, by a failure: all of them are
passed over, unless the collection ended early. -/
def Accounts (lapses : List Lapse) : Option Failure → Prop
  | none => ∀ lapse ∈ lapses, lapse.isPassedOver = true
  | some failure =>
    failure.isCancellation = true ∨ ∃ lapse ∈ lapses, lapse.isPassedOver = false

theorem accounts_nil : Accounts [] none := by simp [Accounts]

theorem Accounts.append {earlier lapses : List Lapse} {failure : Option Failure}
    (hearlier : ∀ lapse ∈ earlier, lapse.isPassedOver = true)
    (hlapses : Accounts lapses failure) : Accounts (earlier ++ lapses) failure := by
  cases failure with
  | none =>
      intro lapse hlapse
      rcases List.mem_append.mp hlapse with hlapse | hlapse
      · exact hearlier lapse hlapse
      · exact hlapses lapse hlapse
  | some failure =>
      rcases hlapses with hcancel | ⟨lapse, hlapse, hended⟩
      · exact .inl hcancel
      · exact .inr ⟨lapse, List.mem_append_right earlier hlapse, hended⟩

namespace Run

/-- Two runs move in step, the first one keeping notes as described; neither touches the
cache. -/
def Notes (noted : StateM (RunState (σ × List Lapse) ρ) γ) (plain : StateM (RunState σ ρ) γ)
    (Account : List Lapse → γ → Prop) : Prop :=
  ∀ s lapses, (plain s).2.cache = s.cache ∧
    ∃ new, noted (s.noted lapses) = ((plain s).1, (plain s).2.noted (lapses ++ new)) ∧
      Account new (plain s).1

variable {noted : StateM (RunState (σ × List Lapse) ρ) γ} {plain : StateM (RunState σ ρ) γ}
  {Account : List Lapse → γ → Prop}

theorem notes_pure {c : γ} (hc : Account [] c) :
    Notes (pure c : StateM (RunState (σ × List Lapse) ρ) γ)
      (pure c : StateM (RunState σ ρ) γ) Account :=
  fun s lapses => ⟨rfl, [], by rw [List.append_nil]; rfl, hc⟩

theorem Notes.bind (h : Notes noted plain Account)
    {next : γ → StateM (RunState (σ × List Lapse) ρ) β} {f : γ → StateM (RunState σ ρ) β}
    {Final : List Lapse → β → Prop}
    (hnext : ∀ c earlier, Account earlier c →
      Notes (next c) (f c) (fun new b => Final (earlier ++ new) b)) :
    Notes (noted >>= next) (plain >>= f) Final := by
  intro s lapses
  obtain ⟨hcache, earlier, hnoted, haccount⟩ := h s lapses
  obtain ⟨hcacheAfter, new, hnotedAfter, hfinal⟩ :=
    hnext (plain s).1 earlier haccount (plain s).2 (lapses ++ earlier)
  refine ⟨hcacheAfter.trans hcache, earlier ++ new, ?_, hfinal⟩
  change next (noted (s.noted lapses)).1 (noted (s.noted lapses)).2 = _
  rw [hnoted, hnotedAfter, List.append_assoc]
  rfl

theorem Notes.mono (h : Notes noted plain Account) {Weaker : List Lapse → γ → Prop}
    (hweaker : ∀ new c, Account new c → Weaker new c) : Notes noted plain Weaker := by
  intro s lapses
  obtain ⟨hcache, new, hnoted, haccount⟩ := h s lapses
  exact ⟨hcache, new, hnoted, hweaker new _ haccount⟩

theorem notes_lookup {about : ScriptedQuery → Prop}
    {question : Lookup (σ × List Lapse) α} {plainly : Lookup σ α}
    (h : Annotates about question plainly) :
    Notes (Run.lookup question : StateM (RunState (σ × List Lapse) ρ) (Except Failure α))
      (Run.lookup plainly : StateM (RunState σ ρ) (Except Failure α))
      (fun new result => (∃ a, result = .ok a ∧ new = []) ∨
        ∃ failure query, result = .error failure ∧ about query ∧ new = [⟨query, failure⟩]) := by
  intro s lapses
  have hasked := h s.base lapses
  refine ⟨rfl, ?_⟩
  change ∃ new, ((question (s.base, lapses)).1,
      (⟨(question (s.base, lapses)).2, s.watch, s.cache⟩ : RunState (σ × List Lapse) ρ)) =
        ((plainly s.base).1, RunState.noted ⟨(plainly s.base).2, s.watch, s.cache⟩
          (lapses ++ new)) ∧ _
  cases hplain : plainly s.base with
  | mk result t =>
      simp only [hplain] at hasked
      cases result with
      | ok a =>
          rw [hasked]
          exact ⟨[], by rw [List.append_nil]; rfl, .inl ⟨a, congrArg Prod.fst hplain, rfl⟩⟩
      | error failure =>
          obtain ⟨query, hquery, hnoted⟩ := hasked
          rw [hnoted]
          exact ⟨[⟨query, failure⟩], rfl,
            .inr ⟨failure, query, congrArg Prod.fst hplain, hquery, rfl⟩⟩

theorem notes_withBase_found (query : ScriptedQuery) (question : StateM σ (Found α)) :
    Notes (Run.withBase (notingFound query question) :
        StateM (RunState (σ × List Lapse) ρ) (Found α))
      (Run.withBase question)
      (fun new found => new = (found.failure.map (Lapse.mk query)).toList) :=
  fun _ _ => ⟨rfl, _, rfl, rfl⟩

theorem askWatch_apply (question : StateM ρ α) (s : RunState σ ρ) :
    (askWatch question : Run σ ρ α) s =
      (.ok (question s.watch).1, { s with watch := (question s.watch).2 }) := rfl

theorem askBase_apply (question : StateM σ α) (s : RunState σ ρ) :
    (askBase question : Run σ ρ α) s =
      (.ok (question s.base).1, { s with base := (question s.base).2 }) := rfl

theorem lift_apply (action : StateM (RunState σ ρ) γ) (s : RunState σ ρ) :
    (ExceptT.lift action : Run σ ρ γ) s = (.ok (action s).1, (action s).2) := rfl

theorem checkpoint_apply (base : KnowledgeBase σ) (watcher : Watcher ρ) (s : RunState σ ρ) :
    Run.checkpoint base watcher s =
      if (watcher.isCancelled s.watch).1 = true then
        (.error .cancelledByOwner, { s with watch := (watcher.isCancelled s.watch).2 })
      else
        (if (base.cancellationRequested s.base).1 = true then
            .error .cancelledByKnowledgeBase
          else .ok (),
          ⟨(base.cancellationRequested s.base).2, (watcher.isCancelled s.watch).2, s.cache⟩) := by
  unfold Run.checkpoint
  rw [bind_apply, askWatch_apply]
  cases hcancelled : (watcher.isCancelled s.watch).1 with
  | true => rfl
  | false =>
      change (askBase base.cancellationRequested >>= _)
        ({ s with watch := (watcher.isCancelled s.watch).2 } : RunState σ ρ) = _
      rw [bind_apply, askBase_apply]
      cases hrequested : (base.cancellationRequested s.base).1 with
      | true => rfl
      | false => rfl

theorem notes_checkpoint (base : KnowledgeBase σ) (watcher : Watcher ρ) :
    Notes (Run.checkpoint base.noting watcher).run (Run.checkpoint base watcher).run
      (fun new result => new = [] ∧
        ∀ failure, result = .error failure → failure.isCancellation = true) := by
  intro s lapses
  simp only [ExceptT.run]
  rw [checkpoint_apply, checkpoint_apply]
  by_cases hcancelled : (watcher.isCancelled s.watch).1 = true
  · simp [RunState.noted, hcancelled, Failure.isCancellation]
  · by_cases hrequested : (base.cancellationRequested s.base).1 = true
    · simp [RunState.noted, KnowledgeBase.noting, hcancelled, hrequested,
        Failure.isCancellation]
    · simp [RunState.noted, KnowledgeBase.noting, hcancelled, hrequested]

end Run

/-- Two settings of which the first one keeps notes. -/
structure Setting.Notes (noted : Setting (σ × List Lapse) ρ) (plain : Setting σ ρ) : Prop where
  base : noted.base = plain.base.noting
  scope : noted.scope = plain.scope
  checkpoint : Run.Notes noted.checkpoint.run plain.checkpoint.run
    (fun new result => new = [] ∧
      ∀ failure, result = .error failure → failure.isCancellation = true)

namespace Setting

variable {noted : Setting (σ × List Lapse) ρ} {plain : Setting σ ρ}

/-- What is done after a checkpoint is accounted for if it is when the checkpoint lets the run
go on. -/
theorem Notes.after_checkpoint (h : Notes noted plain)
    {next : Except Failure Unit → StateM (RunState (σ × List Lapse) ρ) γ}
    {f : Except Failure Unit → StateM (RunState σ ρ) γ} {Final : List Lapse → γ → Prop}
    (hstopped : ∀ failure, failure.isCancellation = true →
      Run.Notes (next (.error failure)) (f (.error failure)) Final)
    (hgoesOn : Run.Notes (next (.ok ())) (f (.ok ())) Final) :
    Run.Notes (noted.checkpoint.run >>= next) (plain.checkpoint.run >>= f) Final := by
  refine h.checkpoint.bind ?_
  rintro result earlier ⟨rfl, hcancel⟩
  cases result with
  | error failure => exact hstopped failure (hcancel failure rfl)
  | ok value => exact hgoesOn

theorem Notes.gatherSites (h : Notes noted plain) (expected : TypeSymbol)
    (implementation : Option TypeSymbol) (sites : List CallSite) (callers : MethodSet) :
    Run.Notes (noted.gatherSites expected implementation sites callers)
      (plain.gatherSites expected implementation sites callers)
      (fun new gathered => Accounts new gathered.2) := by
  induction sites generalizing callers with
  | nil => exact Run.notes_pure accounts_nil
  | cons site sites ih =>
      unfold Setting.gatherSites
      refine h.after_checkpoint (fun failure hcancel => Run.notes_pure (.inl hcancel)) ?_
      rw [h.base]
      refine (Run.notes_lookup
        (annotates_callerAt plain.base expected implementation site)).bind ?_
      rintro result earlier (⟨caller, rfl, rfl⟩ | ⟨failure, query, rfl, hquery, rfl⟩)
      · cases caller with
        | none => exact ih callers
        | some caller => exact ih (callers.insert caller)
      · by_cases htransient : failure.isTransient = true
        · simp only [if_pos htransient]
          refine (ih callers).mono fun new gathered haccount => haccount.append ?_
          simp [Lapse.isPassedOver, hquery, htransient]
        · simp only [if_neg htransient]
          refine Run.notes_pure (.inr ⟨_, List.mem_singleton_self _, ?_⟩)
          simp [Lapse.isPassedOver, htransient]

theorem Notes.gatherDirect (h : Notes noted plain) (m : Method)
    (implementation : Option TypeSymbol) (callers : MethodSet) :
    Run.Notes (noted.gatherDirect m implementation callers)
      (plain.gatherDirect m implementation callers)
      (fun new gathered => Accounts new gathered.2) := by
  unfold Setting.gatherDirect
  refine h.after_checkpoint (fun failure hcancel => Run.notes_pure (.inl hcancel)) ?_
  rw [h.base, h.scope]
  refine (Run.notes_withBase_found .callSites _).bind ?_
  rintro ⟨items, failure⟩ earlier rfl
  refine (h.gatherSites m.owner implementation items callers).bind ?_
  rintro ⟨gathered, ended⟩ new haccount
  cases ended with
  | some ended =>
      refine Run.notes_pure ?_
      rcases haccount with hcancel | ⟨lapse, hlapse, hended⟩
      · exact .inl hcancel
      · refine .inr ⟨lapse, ?_, hended⟩
        simp [hlapse]
  | none =>
      cases failure with
      | none => exact Run.notes_pure (by simpa [Accounts] using haccount)
      | some failure =>
          refine Run.notes_pure (.inr ⟨⟨.callSites, failure⟩, ?_, rfl⟩)
          simp

theorem Notes.gatherRoots (h : Notes noted plain) (owner : TypeSymbol) (roots : List Method)
    (callers : MethodSet) :
    Run.Notes (noted.gatherRoots owner roots callers) (plain.gatherRoots owner roots callers)
      (fun new gathered => Accounts new gathered.2) := by
  induction roots generalizing callers with
  | nil => exact Run.notes_pure accounts_nil
  | cons root roots ih =>
      unfold Setting.gatherRoots
      refine h.after_checkpoint (fun failure hcancel => Run.notes_pure (.inl hcancel)) ?_
      refine (h.gatherDirect root (some owner) callers).bind ?_
      rintro ⟨gathered, failure⟩ earlier haccount
      cases failure with
      | some failure => exact Run.notes_pure (by simpa using haccount)
      | none => exact (ih gathered).mono fun new final hfinal => hfinal.append haccount

theorem Notes.gather (h : Notes noted plain) (m : Method)
    (implementation : Option TypeSymbol) :
    Run.Notes (noted.gather m implementation) (plain.gather m implementation)
      (fun new gathered => Accounts new gathered.2) := by
  unfold Setting.gather
  refine (h.gatherDirect m implementation .empty).bind ?_
  rintro ⟨gathered, failure⟩ earlier haccount
  cases failure with
  | some failure => exact Run.notes_pure (by simpa using haccount)
  | none =>
      rw [h.base]
      refine (Run.notes_lookup (annotates_noting (· = .overriddenRoots) rfl
        (plain.base.overriddenRoots m))).bind ?_
      rintro result later (⟨roots, rfl, rfl⟩ | ⟨failure, query, rfl, rfl, rfl⟩)
      · exact (h.gatherRoots m.owner roots gathered).mono fun new final hfinal => by
          simpa using hfinal.append haccount
      · refine Run.notes_pure (.inr ⟨⟨.overriddenRoots, failure⟩, ?_, rfl⟩)
        simp

theorem collect_apply (setting : Setting σ ρ) (m : Method)
    (implementation : Option TypeSymbol) (s : RunState σ ρ) :
    setting.collect m implementation s =
      match setting.checkpoint s with
      | (.error failure, t) => (.error failure, t)
      | (.ok (), t) =>
        match setting.gather m implementation t with
        | ((callers, none), u) =>
          (.ok callers.toList, { u with cache := u.cache.put m.key callers.toList })
        | ((callers, some failure), u) =>
          (if failure.isCancellation = true then .error failure else .ok callers.toList, u) := by
  unfold Setting.collect
  rw [Run.bind_apply]
  cases setting.checkpoint s with
  | mk result t =>
      cases result with
      | error failure => rfl
      | ok value =>
          simp only
          rw [Run.bind_apply, Run.lift_apply]
          cases setting.gather m implementation t with
          | mk gathered u =>
              obtain ⟨callers, failure⟩ := gathered
              cases failure with
              | none => rfl
              | some failure =>
                  change (if failure.isCancellation = true then throw failure
                    else pure callers.toList : Run σ ρ (List Method)) u =
                      (if failure.isCancellation = true then .error failure
                        else .ok callers.toList, u)
                  cases failure.isCancellation with
                  | true => rfl
                  | false => rfl

/-- What is remembered after a collection, in terms of the notes that were kept. -/
theorem Notes.callersOf (h : Notes noted plain) (m : Method)
    (implementation : Option TypeSymbol) {s : RunState σ ρ}
    (hentry : s.cache.get? m.key = none) :
    ∃ lapses,
      noted.callersOf m implementation (s.noted []) =
        ((plain.callersOf m implementation s).1,
          (plain.callersOf m implementation s).2.noted lapses) ∧
      ((∃ callers, (plain.callersOf m implementation s).1 = .ok callers ∧
          (∀ lapse ∈ lapses, lapse.isPassedOver = true) ∧
          (plain.callersOf m implementation s).2.cache = s.cache.put m.key callers) ∨
        (((∃ failure, (plain.callersOf m implementation s).1 = .error failure) ∨
            ∃ lapse ∈ lapses, lapse.isPassedOver = false) ∧
          (plain.callersOf m implementation s).2.cache = s.cache)) := by
  rw [plain.callersOf_of_uncached implementation hentry,
    noted.callersOf_of_uncached (s := s.noted []) implementation hentry, collect_apply,
    collect_apply]
  obtain ⟨hcache, earlier, hnoted, rfl, -⟩ := h.checkpoint s []
  simp only [ExceptT.run] at hnoted
  rw [hnoted]
  cases hchecked : plain.checkpoint s with
  | mk result t =>
      rw [ExceptT.run, hchecked] at hcache
      cases result with
      | error failure => exact ⟨[], rfl, .inr ⟨.inl ⟨failure, rfl⟩, hcache⟩⟩
      | ok value =>
          obtain ⟨hcacheAfter, lapses, hgathered, haccount⟩ := h.gather m implementation t []
          simp only [List.nil_append] at hgathered ⊢
          rw [hgathered]
          cases hplain : plain.gather m implementation t with
          | mk gathered u =>
              rw [hplain] at hcacheAfter haccount
              obtain ⟨callers, failure⟩ := gathered
              cases failure with
              | none =>
                  refine ⟨lapses, rfl, .inl ⟨callers.toList, rfl, haccount, ?_⟩⟩
                  simp only
                  rw [hcacheAfter, hcache]
              | some failure =>
                  refine ⟨lapses, rfl, .inr ⟨?_, hcacheAfter.trans hcache⟩⟩
                  rcases haccount with hcancel | hended
                  · exact .inl ⟨failure, by simp [hcancel]⟩
                  · exact .inr hended

end Setting

/-- The callers of a method are remembered exactly when their collection was not stopped and
passed over every lookup that failed on the way.  Then the list that was returned is
remembered, and in no case is anything else. -/
theorem callersOf_remembers_iff (finder : Finder) (base : KnowledgeBase σ) (scope : Scope)
    (watcher : Watcher ρ) (m : Method) (implementation : Option TypeSymbol)
    (s : RunState σ ρ) (hentry : s.cache.get? m.key = none) :
    ∃ lapses,
      (finder.setting base.noting scope (Run.checkpoint base.noting watcher)).callersOf m
          implementation (s.noted []) =
        (((finder.setting base scope (Run.checkpoint base watcher)).callersOf m
            implementation s).1,
          (((finder.setting base scope (Run.checkpoint base watcher)).callersOf m
            implementation s).2).noted lapses) ∧
      (∀ callers,
        ((finder.setting base scope (Run.checkpoint base watcher)).callersOf m
            implementation s).2.cache.get? m.key = some callers ↔
          ((finder.setting base scope (Run.checkpoint base watcher)).callersOf m
            implementation s).1 = .ok callers ∧
          ∀ lapse ∈ lapses, lapse.isPassedOver = true) ∧
      ∀ key, key ≠ m.key →
        ((finder.setting base scope (Run.checkpoint base watcher)).callersOf m
          implementation s).2.cache.get? key = s.cache.get? key := by
  have hsetting : Setting.Notes
      (finder.setting base.noting scope (Run.checkpoint base.noting watcher))
      (finder.setting base scope (Run.checkpoint base watcher)) :=
    ⟨rfl, rfl, Run.notes_checkpoint base watcher⟩
  obtain ⟨lapses, hnoted, hcases⟩ := hsetting.callersOf m implementation hentry
  refine ⟨lapses, hnoted, ?_⟩
  rcases hcases with ⟨found, hfound, hpassed, hcache⟩ | ⟨hended, hcache⟩
  · rw [hfound, hcache]
    constructor
    · intro callers
      rw [CallerCache.get?_put, if_pos rfl, Option.some.injEq, Except.ok.injEq]
      exact ⟨fun hsame => ⟨hsame, hpassed⟩, And.left⟩
    · intro key hkey
      rw [CallerCache.get?_put, if_neg (Ne.symm hkey)]
  · rw [hcache, hentry]
    refine ⟨?_, fun _ _ => rfl⟩
    intro callers
    constructor
    · intro hnone
      cases hnone
    · rintro ⟨hok, hpassed⟩
      rcases hended with ⟨failure, hfailed⟩ | ⟨lapse, hlapse, hkept⟩
      · rw [hfailed] at hok
        cases hok
      · rw [hpassed lapse hlapse] at hkept
        cases hkept

/-! ## A caller that is lost for good -/

def graphMethod (name : String) (start : Int) : Method where
  owner := { qualifiedName := some "p.App", name := "App", binaryName := "p.App" }
  name
  location := some ⟨"App.java", 1, start, start + 100⟩

/-- The method `b` calls `a`, and the given lookups fail. -/
def faultyGraph (failures : List ScriptedFailure) : ScriptedGraph where
  types := [(graphMethod "a" 0).owner]
  methods := [graphMethod "a" 0, graphMethod "b" 100]
  calls := [(some 0, [⟨⟨"App.java", 1, 110, 120⟩, none, .call⟩])]
  failures
  scope := { testRoots := [] }

/-- What `a` overrides cannot be told for the moment. -/
def rootlessGraph : ScriptedGraph :=
  faultyGraph [⟨.overriddenRoots, .position (some 0), .lookupFailed "busy"⟩]

/-- Which method encloses the call cannot be told for the moment. -/
def lossyGraph : ScriptedGraph :=
  faultyGraph
    [⟨.enclosingMethod, .place ⟨"App.java", 1, 110, 120⟩, .lookupFailed "busy"⟩]

def graphRun (graph : ScriptedGraph) : RunState ScriptedGraph.State Unit :=
  ⟨graph.initial, (), {}⟩

theorem get?_graphRun (graph : ScriptedGraph) (key : String) :
    (graphRun graph).cache.get? key = none := CallerCache.get?_new key

def graphSetting (graph : ScriptedGraph) : Setting ScriptedGraph.State Unit :=
  Finder.setting {} graph.knowledgeBase graph.scope
    (Run.checkpoint graph.knowledgeBase Watcher.idle)

def notedGraphSetting (graph : ScriptedGraph) :
    Setting (ScriptedGraph.State × List Lapse) Unit :=
  Finder.setting {} graph.knowledgeBase.noting graph.scope
    (Run.checkpoint graph.knowledgeBase.noting Watcher.idle)

/-- What `a` overrides could not be told, so its callers are not remembered. -/
theorem callersOf_forgets_without_roots :
    ((graphSetting rootlessGraph).callersOf (graphMethod "a" 0) none
      (graphRun rootlessGraph)).2.cache.get? (graphMethod "a" 0).key = none := by
  obtain ⟨lapses, hnoted, hremembers, -⟩ := callersOf_remembers_iff {}
    rootlessGraph.knowledgeBase rootlessGraph.scope Watcher.idle (graphMethod "a" 0) none
    (graphRun rootlessGraph) (get?_graphRun rootlessGraph _)
  have hkept : lapses.all Lapse.isPassedOver = false := by
    have hlog := congrArg (fun ran => ran.2.base.2.all Lapse.isPassedOver) hnoted
    rw [Setting.callersOf_of_uncached (s := (graphRun rootlessGraph).noted []) _ none
      (get?_graphRun rootlessGraph _), Setting.collect_apply] at hlog
    refine hlog.symm.trans ?_
    decide +kernel
  rw [Option.eq_none_iff_forall_ne_some]
  intro callers hentry
  have hpassed := ((hremembers callers).mp hentry).2
  rw [List.all_eq_true.mpr hpassed] at hkept
  cases hkept

/-- A lookup about the only call of `a` has failed, and it is remembered that nobody calls
`a`. -/
theorem lost_caller_remembered :
    ((notedGraphSetting lossyGraph).callersOf (graphMethod "a" 0) none
        ((graphRun lossyGraph).noted [])).2.base.2.map Lapse.query = [.enclosingMethod] ∧
      ((graphSetting lossyGraph).callersOf (graphMethod "a" 0) none
        (graphRun lossyGraph)).2.cache.get? (graphMethod "a" 0).key = some [] := by
  constructor
  · rw [Setting.callersOf_of_uncached (s := (graphRun lossyGraph).noted []) _ none
      (get?_graphRun lossyGraph _), Setting.collect_apply]
    decide +kernel
  · have hchecked : (graphSetting lossyGraph).checkpoint (graphRun lossyGraph) =
        (.ok (), graphRun lossyGraph) := rfl
    have hwhole : ((graphSetting lossyGraph).gather (graphMethod "a" 0) none
        (graphRun lossyGraph)).1.2.isNone = true := by decide +kernel
    have hnobody : ((graphSetting lossyGraph).gather (graphMethod "a" 0) none
        (graphRun lossyGraph)).1.1.toList.isEmpty = true := by decide +kernel
    rw [Setting.callersOf_of_uncached _ none (get?_graphRun lossyGraph _),
      Setting.collect_apply, hchecked]
    cases hgathered : (graphSetting lossyGraph).gather (graphMethod "a" 0) none
        (graphRun lossyGraph) with
    | mk gathered after =>
        obtain ⟨callers, failure⟩ := gathered
        rw [hgathered, Option.isNone_iff_eq_none] at hwhole
        rw [hgathered, List.isEmpty_iff] at hnobody
        subst hwhole
        simp only [hgathered]
        rw [CallerCache.get?_put, if_pos rfl, hnobody]

end EntryPoints

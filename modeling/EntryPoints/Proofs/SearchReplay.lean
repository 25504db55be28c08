import EntryPoints.Proofs.BreadthFirstLevels
import EntryPoints.Search.Finder

/-!
# Searches that go as the record determines

A search over a knowledge base that follows a record of answers returns the result
of the search of the record, or it is stopped on the way.  Whether it starts on an
empty cache or on what earlier searches have left there makes no difference, and a
search that is stopped leaves a cache that is as good as before.
-/

namespace EntryPoints

variable {σ ρ : Type} {setting : Setting σ ρ} {watcher : Watcher ρ} {answers : Answers}
  {names : List String} {known : Method → Prop} {stops ends : Failure → Prop}

/-- A search that stays among known methods, and that only `stops` at its checkpoints and
only `ends` at its items. -/
structure Search.Proceeds (setting : Setting σ ρ) (watcher : Watcher ρ) (answers : Answers)
    (names : List String) (known : Method → Prop) (stops ends : Failure → Prop) : Prop where
  follows : setting.Follows answers names
  apart : answers.ToldApart names known
  closed : ∀ m, known m → ∀ above ∈ answers.next names m, known above
  checkpoint :
    Run.Gives (CallerCache.Complete answers known) stops setting.checkpoint ()
  cancels : ∀ failure, stops failure → failure.isCancellation = true
  stops : ∀ failure, stops failure → ends failure
  reports : ∀ progress w failure,
    (watcher.report progress w).1 = some failure → ends failure

namespace Search

theorem Proceeds.gives_takeUp
    (h : Proceeds setting watcher answers names known stops ends)
    (queued : Nat) (tally : Tally) :
    Run.Gives (CallerCache.Complete answers known) ends
      (takeUp setting watcher queued tally) tally.takeUp := by
  unfold takeUp
  refine Run.Gives.bind (h.checkpoint.mono h.stops) ?_
  refine Run.Yields.bind (Run.yields_askWatch
    (fun report => ∀ failure, report = some failure → ends failure)
    (fun w => h.reports _ w)) ?_
  intro report hreport
  cases report with
  | none => exact Run.gives_pure _
  | some failure => exact Run.yields_throw (hreport failure rfl)

theorem Proceeds.gives_visit (h : Proceeds setting watcher answers names known stops ends)
    {m : Method} (hm : known m) (tally : Tally) :
    Run.Gives (CallerCache.Complete answers known) ends (visit setting m tally)
      (answers.visit names m tally) := by
  unfold visit Answers.visit
  split
  · exact Run.gives_pure _
  · refine Run.Gives.bind
      ((gives_expand h.follows h.apart h.checkpoint h.cancels hm).mono h.stops) ?_
    exact Run.gives_pure _

theorem Proceeds.known_sweep (h : Proceeds setting watcher answers names known stops ends)
    {level : List Method} (hlevel : ∀ m ∈ level, known m) (tally : Tally) :
    ∀ above ∈ (answers.sweep names level tally).1, known above := by
  intro above habove
  rw [Answers.mem_sweep h.apart hlevel] at habove
  obtain ⟨m, hm, -, habove⟩ := habove
  exact h.closed m (hlevel m hm) above habove

theorem appendList_assoc {α : Type} (xs : Array α) (ys zs : List α) :
    xs ++ ys ++ zs = xs ++ (ys ++ zs) :=
  Array.ext' (by simp)

theorem Proceeds.gives_sweep (h : Proceeds setting watcher answers names known stops ends)
    {level : List Method} (hlevel : ∀ m ∈ level, known m) (next : Array Method)
    (tally : Tally) :
    Run.Gives (CallerCache.Complete answers known) ends
      (sweep setting watcher level next tally)
      (next ++ (answers.sweep names level tally).1, (answers.sweep names level tally).2) := by
  induction level generalizing next tally with
  | nil => simpa [sweep, Answers.sweep] using Run.gives_pure (next, tally)
  | cons m level ih =>
      unfold sweep
      refine Run.Gives.bind (h.gives_takeUp _ tally) ?_
      refine Run.Gives.bind (h.gives_visit (hlevel m List.mem_cons_self) tally.takeUp) ?_
      have hrest := ih (fun n hn => hlevel n (List.mem_cons_of_mem m hn))
        (next ++ (answers.visit names m tally.takeUp).1)
        (answers.visit names m tally.takeUp).2
      rw [appendList_assoc] at hrest
      exact hrest

theorem Proceeds.gives_cutOff (h : Proceeds setting watcher answers names known stops ends)
    (level : List Method) (tally : Tally) :
    Run.Gives (CallerCache.Complete answers known) ends
      (cutOff setting watcher level tally) (Answers.cutOff level tally) := by
  induction level generalizing tally with
  | nil => exact Run.gives_pure tally
  | cons m level ih =>
      unfold cutOff
      exact Run.Gives.bind (h.gives_takeUp _ tally) (ih _)

theorem Proceeds.gives_explore (h : Proceeds setting watcher answers names known stops ends)
    (levels : Nat) {frontier : List Method} (hfrontier : ∀ m ∈ frontier, known m)
    (tally : Tally) :
    Run.Gives (CallerCache.Complete answers known) ends
      (explore setting watcher levels frontier tally)
      (answers.explore names levels frontier tally) := by
  induction levels generalizing frontier tally with
  | zero => exact h.gives_cutOff frontier tally
  | succ levels ih =>
      unfold explore Answers.explore
      refine Run.Gives.bind (h.gives_sweep hfrontier #[] tally) ?_
      by_cases hempty : (answers.sweep names frontier tally).1.isEmpty = true
      · simp only [hempty, if_true]
        rw [List.isEmpty_iff.mp hempty]
        exact Run.gives_pure _
      · simpa [hempty] using ih (h.known_sweep hfrontier tally) _

theorem Proceeds.gives_topCallers
    (h : Proceeds setting watcher answers names known stops ends) {start : Method}
    (hstart : known start) (maxDepth : Int) :
    Run.Gives (CallerCache.Complete answers known) ends
      (topCallers setting watcher start maxDepth)
      (answers.searchResult names start maxDepth) := by
  unfold topCallers
  refine Run.Gives.bind (h.gives_explore _ (by simpa using hstart) {}) ?_
  exact Run.gives_pure _

end Search

/-- A search trims the cache and asks for its scope before it starts. -/
theorem Finder.search_of_scope {base : KnowledgeBase σ} {scope : Except Failure Scope} {b : σ}
    (finder : Finder) (watcher : Watcher ρ) (start : Method) {s : RunState σ ρ} :
    base.productionScope s.base = (scope, b) → finder.search (.ok base) watcher start s =
      match scope with
      | .ok scope =>
          Search.topCallers (finder.setting base scope (Run.checkpoint base watcher)) watcher start
            finder.maxDepth ⟨b, s.watch, s.cache.trim⟩
      | .error failure => (.error failure, ⟨b, s.watch, s.cache.trim⟩) := by
  intro hscope
  have hlookup : (Run.lookup base.productionScope : Run σ ρ Scope)
      ⟨s.base, s.watch, s.cache.trim⟩ = (scope, ⟨b, s.watch, s.cache.trim⟩) := by
    change ((base.productionScope s.base).1, RunState.mk (base.productionScope s.base).2 _ _) = _
    rw [hscope]
  unfold Finder.search
  rw [Run.bind_apply]
  change (Run.lookup base.productionScope >>= _ : Run σ ρ SearchResult)
    ⟨s.base, s.watch, s.cache.trim⟩ = _
  rw [Run.bind_apply, hlookup]
  cases scope <;> rfl

theorem Finder.setting_follows (finder : Finder) {base : KnowledgeBase σ}
    (hbase : base.Follows answers) (checkpoint : Run σ ρ Unit) :
    (finder.setting base answers.productionScope checkpoint).Follows answers
      finder.functional :=
  ⟨hbase, rfl, rfl⟩

theorem Finder.gives_search {finder : Finder} {base : KnowledgeBase σ}
    (hbase : base.Follows answers)
    (h : Search.Proceeds
      (finder.setting base answers.productionScope (Run.checkpoint base watcher)) watcher
      answers finder.functional known stops ends)
    {start : Method} (hstart : known start) :
    Run.Gives (CallerCache.Complete answers known) ends
      (finder.search (.ok base) watcher start)
      (answers.searchResult finder.functional start finder.maxDepth) := by
  unfold Finder.search
  refine Run.Yields.bind (Run.yields_modify fun s hs => hs.trim) ?_
  rintro - -
  refine Run.Gives.bind (a := base) (Run.gives_pure base) ?_
  exact Run.Gives.bind (Run.gives_lookup hbase.productionScope)
    (h.gives_topCallers hstart finder.maxDepth)

/-! ## Searches behind a statement -/

namespace Answers

variable (answers : Answers) (finder : Finder)

def gatherTopCallers : List Method → MethodSet → MethodSet
  | [], callers => callers
  | m :: rest, callers =>
    gatherTopCallers rest ((answers.searchResult finder.functional m
      finder.maxDepth).topCallers.foldl MethodSet.insert callers)

def mapperMethods (statementId : String) : List Method :=
  let mapper := String.ofList (Text.beforeLast '.' statementId.toList)
  let name := TypeText.lastSegment statementId
  if mapper = "" ∨ name = "" then [] else answers.methodsNamed mapper name

/-- What a search behind a statement returns when nothing disturbs it. -/
def statementCallers (statementId : String) : List StatementCaller :=
  (answers.gatherTopCallers finder (answers.mapperMethods statementId) .empty).toList.map
    fun method => { method, statementId }

end Answers

theorem Finder.gives_gatherTopCallers {finder : Finder} {base : KnowledgeBase σ}
    (hbase : base.Follows answers)
    (h : Search.Proceeds
      (finder.setting base answers.productionScope (Run.checkpoint base watcher)) watcher
      answers finder.functional known stops ends)
    {methods : List Method} (hmethods : ∀ m ∈ methods, known m) (callers : MethodSet) :
    Run.Gives (CallerCache.Complete answers known) ends
      (finder.gatherTopCallers (.ok base) watcher methods callers)
      (answers.gatherTopCallers finder methods callers) := by
  induction methods generalizing callers with
  | nil => exact Run.gives_pure callers
  | cons m rest ih =>
      unfold Finder.gatherTopCallers
      refine Run.Gives.bind
        (Finder.gives_search hbase h (hmethods m List.mem_cons_self)) ?_
      exact ih (fun n hn => hmethods n (List.mem_cons_of_mem m hn)) _

theorem Finder.gives_searchStatement {finder : Finder} {base : KnowledgeBase σ}
    (hbase : base.Follows answers)
    (h : Search.Proceeds
      (finder.setting base answers.productionScope (Run.checkpoint base watcher)) watcher
      answers finder.functional known stops ends)
    {statementId : String} (hmethods : ∀ m ∈ answers.mapperMethods statementId, known m) :
    Run.Gives (CallerCache.Complete answers known) ends
      (finder.searchStatement (.ok base) watcher statementId)
      (answers.statementCallers finder statementId) := by
  unfold Finder.searchStatement Answers.statementCallers
  unfold Answers.mapperMethods at hmethods ⊢
  by_cases hunnamed : String.ofList (Text.beforeLast '.' statementId.toList) = "" ∨
      TypeText.lastSegment statementId = ""
  · simp only [if_pos hunnamed]
    exact Run.gives_pure _
  · simp only [if_neg hunnamed] at hmethods ⊢
    refine Run.Gives.bind (a := base) (Run.gives_pure base) ?_
    refine Run.Gives.bind (Run.gives_lookup (hbase.methodsNamed _ _)) ?_
    refine Run.Gives.bind (Finder.gives_gatherTopCallers hbase h hmethods .empty) ?_
    exact Run.gives_pure _

/-! ## Searches that nothing disturbs -/

/-- Nobody asks a search to stop, and its observer never breaks it off. -/
structure Undisturbed (base : KnowledgeBase σ) (watcher : Watcher ρ) : Prop where
  owner : ∀ w, (watcher.isCancelled w).1 = false
  request : ∀ t, (base.cancellationRequested t).1 = false
  report : ∀ progress w, (watcher.report progress w).1 = none

section Undisturbed

variable {base : KnowledgeBase σ} {Sound : CallerCache → Prop}

theorem undisturbed_idle (hrequest : ∀ t, (base.cancellationRequested t).1 = false) :
    Undisturbed base (Watcher.idle : Watcher ρ) where
  owner _ := rfl
  request := hrequest
  report _ _ := rfl

theorem Undisturbed.gives_checkpoint (h : Undisturbed base watcher) :
    Run.Gives Sound (fun _ => False) (Run.checkpoint base watcher) () := by
  refine Run.gives_checkpoint ?_ ?_
  · intro w hcancelled
    rw [h.owner w] at hcancelled
    cases hcancelled
  · intro t hrequested
    rw [h.request t] at hrequested
    cases hrequested

theorem Undisturbed.proceeds (h : Undisturbed base watcher) (finder : Finder)
    (hbase : base.Follows answers)
    (happart : answers.ToldApart finder.functional known)
    (hclosed : ∀ m, known m → ∀ above ∈ answers.next finder.functional m, known above) :
    Search.Proceeds
      (finder.setting base answers.productionScope (Run.checkpoint base watcher)) watcher
      answers finder.functional known (fun _ => False) (fun _ => False) where
  follows := finder.setting_follows hbase _
  apart := happart
  closed := hclosed
  checkpoint := h.gives_checkpoint
  cancels _ hfalse := hfalse.elim
  stops _ hfalse := hfalse
  reports progress w failure hreport := by
    rw [h.report progress w] at hreport
    cases hreport

/-- A search that nothing disturbs returns the result of the search of the record. -/
theorem Undisturbed.search_eq (h : Undisturbed base watcher) (finder : Finder)
    (hbase : base.Follows answers) {start : Method}
    (happart : answers.ToldApart finder.functional (answers.Reaches finder.functional start))
    {s : RunState σ ρ}
    (hcomplete : s.cache.Complete answers (answers.Reaches finder.functional start)) :
    (finder.search (.ok base) watcher start s).1 =
      .ok (answers.searchResult finder.functional start finder.maxDepth) := by
  have hproceeds := h.proceeds finder hbase happart fun _ hm _ => hm.next
  exact (Finder.gives_search hbase hproceeds (Answers.reaches_start start)).eq_ok hcomplete

/-- What the parts of a search return for one method on an empty cache is what the record
of answers determines. -/
theorem Undisturbed.parts_eq (h : Undisturbed base watcher) (finder : Finder)
    (hbase : base.Follows answers) (m : Method) {s : RunState σ ρ}
    (hempty : ∀ key, s.cache.get? key = none) :
    ((finder.setting base answers.productionScope
        (Run.checkpoint base watcher)).substitutes m s).1 =
      .ok (answers.substitutes finder.functional m) ∧
    ((finder.setting base answers.productionScope
        (Run.checkpoint base watcher)).callersOf m none s).1 = .ok (answers.callers m) ∧
    ((finder.setting base answers.productionScope
        (Run.checkpoint base watcher)).isFunctional m s).1 =
      .ok (answers.isFunctional finder.functional m) := by
  have hsetting := finder.setting_follows hbase (Run.checkpoint base watcher)
  have happart : answers.ToldApart finder.functional (· = m) :=
    Answers.ToldApart.of_key_injective fun _ _ hn hk _ => hn.trans hk.symm
  have hcomplete : s.cache.Complete answers (· = m) := CallerCache.complete_of_empty hempty
  have hcancel : ∀ failure : Failure, False → failure.isCancellation = true :=
    fun _ hfalse => hfalse.elim
  exact
    ⟨(gives_substitutes hsetting h.gives_checkpoint hcancel m).eq_ok hcomplete,
      (gives_callersOf hsetting happart h.gives_checkpoint hcancel rfl).eq_ok hcomplete,
      (gives_isFunctional hsetting hcancel m).eq_ok hcomplete⟩

end Undisturbed

end EntryPoints

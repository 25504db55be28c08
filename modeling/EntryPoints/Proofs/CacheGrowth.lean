import EntryPoints.Proofs.EndingSearches
import EntryPoints.Proofs.OverlookedState
import EntryPoints.Proofs.SessionTransparency

/-!
# Growth of the caller cache

The caller cache is trimmed before a search and only grows while the search goes on.  It grows
slowly: a method is expanded when its key is met for the first time, and expanding it adds at most
the callers of this key.  So at every point of the search, in a turn that is broken off as well,
the entries are at most those that were there at first and one for each key met since.

Nothing is asked of the knowledge base here.  Its lookups may fail in any way, and cancellation and
the observer may stop the search anywhere.  Failures can only keep callers from being remembered.
-/

namespace EntryPoints

variable {σ ρ α β : Type}

/-! ## What one expansion remembers -/

/-- At most the callers of one key were added or replaced. -/
def CallerCache.Gains (key : String) (before after : CallerCache) : Prop :=
  after = before ∨ ∃ callers, after = before.put key callers

theorem CallerCache.limit_trim (c : CallerCache) : c.trim.limit = c.limit := by
  unfold trim
  split <;> rfl

theorem CallerCache.size_trim_le {c : CallerCache} (hlimit : 0 ≤ c.limit) :
    (c.trim.size : Int) ≤ c.limit := by
  unfold trim
  split
  next => simpa using hlimit
  next hfull => simpa [isOverfull] using hfull

namespace CallerCache.Gains

variable {key : String} {before after : CallerCache}

theorem limit_eq (h : Gains key before after) : after.limit = before.limit := by
  rcases h with rfl | ⟨callers, rfl⟩ <;> rfl

theorem size_le (h : Gains key before after) : after.size ≤ before.size + 1 := by
  rcases h with rfl | ⟨callers, rfl⟩
  · exact Nat.le_succ _
  · exact size_put_le _ _ _

end CallerCache.Gains

def RunState.putCache (cache : CallerCache) (s : RunState σ ρ) : RunState σ ρ := { s with cache }

theorem Ignores.cache_eq {γ : Type} {action : StateM (RunState σ ρ) γ}
    (haction : Ignores RunState.putCache action) (s : RunState σ ρ) :
    (action s).2.cache = s.cache :=
  congrArg (fun ran => ran.2.cache) (haction s.cache s)

theorem Finder.overlooks_cache (finder : Finder) (base : KnowledgeBase σ) (scope : Scope)
    (watcher : Watcher ρ) :
    (finder.setting base scope (Run.checkpoint base watcher)).Overlooks RunState.putCache :=
  Setting.overlooks_of_questions (fun _ _ _ => rfl)
    (Run.ignores_checkpoint (fun _ _ => rfl) (fun _ _ => rfl))

namespace Run

/-- However the action ends, at most the callers of one key are remembered. -/
def Gains (key : String) (action : Run σ ρ α) : Prop :=
  ∀ s, CallerCache.Gains key s.cache (action s).2.cache

variable {key : String} {action : Run σ ρ α} {next : α → Run σ ρ β}

theorem gains_of_ignores (haction : Ignores RunState.putCache action) : Gains key action :=
  fun s => .inl (haction.cache_eq s)

theorem Gains.after (haction : Ignores RunState.putCache action)
    (hnext : ∀ a, Gains key (next a)) : Gains key (action >>= next) := by
  intro s
  have hsame := haction.cache_eq s
  rw [bind_apply]
  cases hran : action s with
  | mk result t =>
      rw [hran] at hsame
      cases result with
      | ok a => exact hsame ▸ hnext a t
      | error failure => exact .inl hsame

theorem Gains.before (haction : Gains key action)
    (hnext : ∀ a, Ignores RunState.putCache (next a)) : Gains key (action >>= next) := by
  intro s
  have hgains := haction s
  rw [bind_apply]
  cases hran : action s with
  | mk result t =>
      rw [hran] at hgains
      cases result with
      | ok a => exact (hnext a).cache_eq t ▸ hgains
      | error failure => exact hgains

end Run

namespace Setting.Overlooks

variable {setting : Setting σ ρ} (h : setting.Overlooks RunState.putCache)

include h

theorem gains_collect (m : Method) (implementation : Option TypeSymbol) :
    Run.Gains m.key (setting.collect m implementation) := by
  unfold collect
  refine .after h.checkpoint fun _ => .after (h.gather m implementation).lift fun gathered => ?_
  obtain ⟨callers, failure⟩ := gathered
  cases failure with
  | some failure => exact Run.gains_of_ignores ((ignores_throw failure).ite (ignores_pure _) _)
  | none =>
      have hput : Run.Gains m.key (modify fun s : RunState σ ρ =>
          { s with cache := s.cache.put m.key callers.toList } : Run σ ρ PUnit) :=
        fun _ => .inr ⟨callers.toList, rfl⟩
      exact hput.before fun _ => ignores_pure _

theorem gains_callersOf (m : Method) (implementation : Option TypeSymbol) :
    Run.Gains m.key (setting.callersOf m implementation) := by
  intro s
  cases hentry : s.cache.get? m.key with
  | some callers =>
      rw [setting.callersOf_of_cached implementation hentry]
      exact .inl rfl
  | none =>
      rw [setting.callersOf_of_uncached implementation hentry]
      exact h.gains_collect m implementation s

theorem gains_expand (m : Method) : Run.Gains m.key (Search.expand setting m) := by
  unfold Search.expand
  refine .after (h.substitutes m) fun methods => ?_
  cases methods with
  | some methods => exact Run.gains_of_ignores (ignores_pure _)
  | none =>
      refine (h.gains_callersOf m none).before fun callers => ?_
      cases callers with
      | nil => exact (h.isFunctional m).andThen fun _ => ignores_pure _
      | cons caller callers => exact ignores_pure _

end Setting.Overlooks

/-! ## The keys that a loop meets -/

namespace Search

/-- The loop over a queue with the keys that are marked as met when it ends.  A key is marked
before its method is expanded, so it stays marked when the expansion fails. -/
inductive Marks (setting : Setting σ ρ) (watcher : Watcher ρ) (limit : Int) :
    List Waiting → Tally → RunState σ ρ → Std.HashSet String →
    Except Failure Tally × RunState σ ρ → Prop
  | done {tally : Tally} {s : RunState σ ρ} :
      Marks setting watcher limit [] tally s tally.visited (.ok tally, s)
  | broken {item : Waiting} {rest : List Waiting} {tally : Tally} {failure : Failure}
      {s t : RunState σ ρ}
      (htaken : takeUp setting watcher rest.length tally s = (.error failure, t)) :
      Marks setting watcher limit (item :: rest) tally s tally.visited (.error failure, t)
  | failed {item : Waiting} {rest : List Waiting} {tally taken : Tally} {failure : Failure}
      {s t u : RunState σ ρ} (hwithin : ¬limit < item.depth)
      (htaken : takeUp setting watcher rest.length tally s = (.ok taken, t))
      (hvisit : visit setting item.method taken t = (.error failure, u)) :
      Marks setting watcher limit (item :: rest) tally s
        (tally.visited.insert item.method.key) (.error failure, u)
  | next {item : Waiting} {rest queue : List Waiting} {tally after : Tally}
      {visited : Std.HashSet String} {s t : RunState σ ρ}
      {ending : Except Failure Tally × RunState σ ρ}
      (hturn : turn setting watcher limit item rest tally s = (.ok (queue, after), t))
      (others : Marks setting watcher limit queue after t visited ending) :
      Marks setting watcher limit (item :: rest) tally s visited ending

variable {setting : Setting σ ρ} {watcher : Watcher ρ} {limit : Int} {queue : List Waiting}
  {tally : Tally} {s : RunState σ ρ} {visited : Std.HashSet String}
  {ending : Except Failure Tally × RunState σ ρ}

theorem Marks.exists_loops (h : Marks setting watcher limit queue tally s visited ending) :
    ∃ n, Loops setting watcher limit queue tally s n ending := by
  induction h with
  | done => exact ⟨0, .done⟩
  | broken htaken => exact ⟨1, .stop (turn_of_broken htaken)⟩
  | @failed item rest tally taken failure s t u hwithin htaken hvisit =>
      have hturn := turn_of_within item hwithin htaken
      rw [hvisit] at hturn
      exact ⟨1, .stop hturn⟩
  | next hturn _ ih =>
      obtain ⟨n, others⟩ := ih
      exact ⟨n + 1, .next hturn others⟩

theorem Loops.exists_marks {n : Nat} (h : Loops setting watcher limit queue tally s n ending) :
    ∃ visited, Marks setting watcher limit queue tally s visited ending := by
  induction h with
  | done => exact ⟨_, .done⟩
  | @stop item rest tally failure s t hturn =>
      cases htaken : takeUp setting watcher rest.length tally s with
      | mk result u =>
          cases result with
          | error other =>
              rw [turn_of_broken htaken] at hturn
              cases hturn
              exact ⟨_, .broken htaken⟩
          | ok taken =>
              by_cases hbeyond : limit < item.depth
              · rw [turn_of_beyond hbeyond htaken] at hturn
                cases hturn
              · rw [turn_of_within item hbeyond htaken] at hturn
                cases hvisit : visit setting item.method taken u with
                | mk visited v =>
                    rw [hvisit] at hturn
                    cases visited with
                    | ok found => cases hturn
                    | error other =>
                        cases hturn
                        exact ⟨_, .failed hbeyond htaken hvisit⟩
  | next hturn _ ih =>
      obtain ⟨visited, others⟩ := ih
      exact ⟨visited, .next hturn others⟩

/-- A loop that is not broken off has marked what its tally says. -/
theorem Marks.eq_visited {after : Tally} {t : RunState σ ρ}
    (h : Marks setting watcher limit queue tally s visited (.ok after, t)) :
    visited = after.visited := by
  generalize hending : (Except.ok after, t) = ending at h
  induction h with
  | done => cases hending; rfl
  | broken => cases hending
  | failed => cases hending
  | next _ _ ih => exact ih hending

/-! ## Entries and marked keys -/

/-- The entries of the cache have not grown by more than the marked keys. -/
structure Grown (before after : CallerCache) (marked visited : Std.HashSet String) : Prop where
  limit : after.limit = before.limit
  size : after.size + marked.size ≤ before.size + visited.size

theorem grown_of_same {before after : CallerCache} (hsame : after = before)
    (visited : Std.HashSet String) : Grown before after visited visited := by
  rw [hsame]
  exact ⟨rfl, Nat.le_refl _⟩

theorem Grown.trans {first second third : CallerCache} {before marked after : Std.HashSet String}
    (h : Grown first second before marked) (hnext : Grown second third marked after) :
    Grown first third before after := by
  have hsize := h.size
  have hmore := hnext.size
  exact ⟨hnext.limit.trans h.limit, by omega⟩

theorem grown_of_gains {before after : CallerCache} {key : String}
    (hgains : CallerCache.Gains key before after) {visited : Std.HashSet String}
    (hnew : key ∉ visited) : Grown before after visited (visited.insert key) := by
  have hsize := hgains.size_le
  refine ⟨hgains.limit_eq, ?_⟩
  rw [Std.HashSet.size_insert, if_neg hnew]
  omega

theorem visit_of_met {m : Method} (hmet : m.key ∈ tally.visited) (s : RunState σ ρ) :
    visit setting m tally s = (.ok ([], tally), s) := by
  unfold visit
  rw [if_pos (Std.HashSet.contains_iff_mem.mpr hmet)]
  rfl

theorem visit_of_new (setting : Setting σ ρ) {m : Method} (hnew : m.key ∉ tally.visited)
    (s : RunState σ ρ) :
    (expand setting m s).2 = (visit setting m tally s).2 ∧
      ∀ methods after, (visit setting m tally s).1 = .ok (methods, after) →
        after.visited = tally.visited.insert m.key := by
  unfold visit
  rw [if_neg (mt Std.HashSet.contains_iff_mem.mp hnew), Run.bind_apply]
  cases expand setting m s with
  | mk result t =>
      cases result with
      | error failure => exact ⟨rfl, fun _ _ hok => by cases hok⟩
      | ok found =>
          refine ⟨rfl, fun methods after hok => ?_⟩
          cases hok
          split <;> rfl

section Growth

variable (h : setting.Overlooks RunState.putCache)

include h

theorem grown_visit {m : Method} {methods : List Method} {after : Tally} {t : RunState σ ρ}
    (hok : visit setting m tally s = (.ok (methods, after), t)) :
    Grown s.cache t.cache tally.visited after.visited := by
  by_cases hmet : m.key ∈ tally.visited
  · rw [visit_of_met hmet] at hok
    cases hok
    exact grown_of_same rfl _
  · obtain ⟨hstate, hvisited⟩ := visit_of_new setting hmet s
    have hgains := h.gains_expand m s
    rw [hstate, hok] at hgains
    rw [hok] at hvisited
    rw [hvisited methods after rfl]
    exact grown_of_gains hgains hmet

theorem grown_failed_visit {m : Method} {failure : Failure} {t : RunState σ ρ}
    (hfailed : visit setting m tally s = (.error failure, t)) :
    Grown s.cache t.cache tally.visited (tally.visited.insert m.key) := by
  by_cases hmet : m.key ∈ tally.visited
  · rw [visit_of_met hmet] at hfailed
    cases hfailed
  · have hgains := h.gains_expand m s
    rw [(visit_of_new setting hmet s).1, hfailed] at hgains
    exact grown_of_gains hgains hmet

theorem cache_takeUp {queued : Nat} {result : Except Failure Tally} {t : RunState σ ρ}
    (hran : takeUp setting watcher queued tally s = (result, t)) : t.cache = s.cache := by
  have hreport : ∀ progress, Ignores RunState.putCache
      (Run.askWatch (watcher.report progress) : Run σ ρ (Option Failure)) := fun _ _ _ => rfl
  have hsame := (h.takeUp hreport queued tally).cache_eq s
  rwa [hran] at hsame

theorem grown_turn {item : Waiting} {rest : List Waiting} {after : Tally} {t : RunState σ ρ}
    (hok : turn setting watcher limit item rest tally s = (.ok (queue, after), t)) :
    Grown s.cache t.cache tally.visited after.visited := by
  unfold turn at hok
  obtain ⟨taken, u, htaken, hok⟩ := eq_ok_of_bind hok
  have hsame := cache_takeUp h htaken
  obtain rfl := of_takeUp htaken
  split at hok
  · cases hok
    exact grown_of_same hsame _
  · obtain ⟨⟨methods, visited⟩, v, hvisit, hok⟩ := eq_ok_of_bind hok
    cases hok
    have hgrown := grown_visit h hvisit
    exact (grown_of_same hsame _).trans hgrown

/-- However a loop ends, it has remembered the callers of marked keys only. -/
theorem Marks.grown (hmarks : Marks setting watcher limit queue tally s visited ending) :
    Grown s.cache ending.2.cache tally.visited visited := by
  induction hmarks with
  | done => exact grown_of_same rfl _
  | broken htaken => exact grown_of_same (cache_takeUp h htaken) _
  | failed _ htaken hvisit =>
      have hfailed := grown_failed_visit h hvisit
      obtain rfl := of_takeUp htaken
      exact (grown_of_same (cache_takeUp h htaken) _).trans hfailed
  | next hturn _ ih => exact (grown_turn h hturn).trans ih

end Growth

end Search

/-! ## A search and its session -/

namespace Finder

/-- The keys that a search visits, however it ends.  It visits none when there is no view of the
code, or no scope to search. -/
inductive Visits (finder : Finder) (view : Except Failure (KnowledgeBase σ)) (watcher : Watcher ρ)
    (start : Method) (s : RunState σ ρ) : Std.HashSet String → Prop
  | unavailable {failure : Failure} (hview : view = .error failure) :
      Visits finder view watcher start s ∅
  | unscoped {base : KnowledgeBase σ} {failure : Failure} {b : σ} (hview : view = .ok base)
      (hscope : base.productionScope s.base = (.error failure, b)) :
      Visits finder view watcher start s ∅
  | looped {base : KnowledgeBase σ} {scope : Scope} {b : σ} {visited : Std.HashSet String}
      {ending : Except Failure Tally × RunState σ ρ} (hview : view = .ok base)
      (hscope : base.productionScope s.base = (.ok scope, b))
      (hmarks : Search.Marks (finder.setting base scope (Run.checkpoint base watcher)) watcher
        finder.maxDepth [⟨start, 0⟩] {} ⟨b, s.watch, s.cache.trim⟩ visited ending) :
      Visits finder view watcher start s visited

variable (finder : Finder) {view : Except Failure (KnowledgeBase σ)} {watcher : Watcher ρ}
  {start : Method} {s : RunState σ ρ} {visited : Std.HashSet String}

theorem exists_visits (view : Except Failure (KnowledgeBase σ)) (watcher : Watcher ρ)
    (start : Method) (s : RunState σ ρ) :
    ∃ visited, finder.Visits view watcher start s visited := by
  cases view with
  | error failure => exact ⟨∅, .unavailable rfl⟩
  | ok base =>
      cases hscope : base.productionScope s.base with
      | mk result b =>
          cases result with
          | error failure => exact ⟨∅, .unscoped rfl hscope⟩
          | ok scope =>
              obtain ⟨n, hloops⟩ := Search.loops_search (finder.setting base scope
                (Run.checkpoint base watcher)) watcher start finder.maxDepth
                  ⟨b, s.watch, s.cache.trim⟩
              obtain ⟨visited, hmarks⟩ := hloops.exists_marks
              exact ⟨visited, .looped rfl hscope hmarks⟩

/-- However a search ends, it leaves the limit of the cache as it was, and the cache holds at most
as many entries as the limit and the visited keys together. -/
theorem Visits.bounded (hvisits : finder.Visits view watcher start s visited) :
    (finder.search view watcher start s).2.cache.limit = s.cache.limit ∧
      (finder.search view watcher start s).2.cache.size ≤ s.cache.trim.size + visited.size ∧
      ∀ result, (finder.search view watcher start s).1 = .ok result →
        result.visitedCount = visited.size := by
  cases hvisits with
  | @unavailable failure hview =>
      have hsearch : finder.search view watcher start s =
          (.error failure, ⟨s.base, s.watch, s.cache.trim⟩) := by
        rw [hview]
        rfl
      rw [hsearch]
      exact ⟨s.cache.limit_trim, Nat.le_add_right _ _, fun _ hok => by cases hok⟩
  | unscoped hview hscope =>
      rw [hview, finder.search_of_scope watcher start hscope]
      exact ⟨s.cache.limit_trim, Nat.le_add_right _ _, fun _ hok => by cases hok⟩
  | @looped base scope b _ ending hview hscope hmarks =>
      obtain ⟨n, hloops⟩ := hmarks.exists_loops
      obtain ⟨k, hsearched⟩ := Search.loops_search (finder.setting base scope
        (Run.checkpoint base watcher)) watcher start finder.maxDepth ⟨b, s.watch, s.cache.trim⟩
      have hending := (hloops.unique hsearched).2
      have hgrown := hmarks.grown (finder.overlooks_cache base scope watcher)
      rw [hview, finder.search_of_scope watcher start hscope]
      simp only [Search.topCallers_apply, hending]
      refine ⟨hgrown.limit.trans s.cache.limit_trim, by simpa using hgrown.size, ?_⟩
      intro result hok
      obtain ⟨outcome, t⟩ := ending
      cases outcome with
      | error failure => cases hok
      | ok after =>
          cases hok
          rw [hmarks.eq_visited]
          rfl

/-! ## The limit in a session -/

section Limit

variable {limit : Int}

theorem keeps_limit_search (view : Except Failure (KnowledgeBase σ)) (watcher : Watcher ρ)
    (start : Method) :
    Run.Yields (fun cache => cache.limit = limit) (fun _ => True)
      (finder.search view watcher start) fun _ => True := by
  intro s hs
  obtain ⟨visited, hvisits⟩ := finder.exists_visits view watcher start s
  refine ⟨(hvisits.bounded finder).1.trans hs, ?_⟩
  cases (finder.search view watcher start s).1 <;> trivial

theorem keeps_limit_gatherTopCallers (view : Except Failure (KnowledgeBase σ))
    (watcher : Watcher ρ) (methods : List Method) (callers : MethodSet) :
    Run.Yields (fun cache => cache.limit = limit) (fun _ => True)
      (finder.gatherTopCallers view watcher methods callers) fun _ => True := by
  induction methods generalizing callers with
  | nil => exact Run.yields_pure trivial
  | cons m rest ih =>
      unfold gatherTopCallers
      exact Run.Yields.bind (finder.keeps_limit_search view watcher m) fun _ _ => ih _

theorem keeps_limit_searchStatement (base : KnowledgeBase σ) (watcher : Watcher ρ)
    (statementId : String) :
    Run.Yields (fun cache => cache.limit = limit) (fun _ => True)
      (finder.searchStatement (.ok base) watcher statementId) fun _ => True := by
  unfold searchStatement
  dsimp only
  split
  · exact Run.yields_pure trivial
  · refine Run.Gives.bind (a := base) (Run.gives_pure base) ?_
    refine Run.Yields.bind (A := fun _ => True) (fun s hs => ⟨hs, ?_⟩) fun methods _ => ?_
    · cases (Run.lookup (base.methodsNamed _ _) s : Except Failure (List Method) × _).1 <;> trivial
    · exact Run.Yields.bind (finder.keeps_limit_gatherTopCallers _ watcher methods .empty)
        fun _ _ => Run.yields_pure trivial

theorem limit_sessionAfter (base : KnowledgeBase σ) (requests : List (Request ρ))
    (session : Session σ) :
    (finder.sessionAfter base requests session).cache.limit = session.cache.limit := by
  induction requests generalizing session with
  | nil => rfl
  | cons request requests ih =>
      refine (ih _).trans ?_
      cases request with
      | search watcher watch start =>
          exact (finder.keeps_limit_search _ watcher start ⟨session.base, watch, session.cache⟩
            rfl).1
      | statement watcher watch statementId =>
          exact (finder.keeps_limit_searchStatement base watcher statementId
            ⟨session.base, watch, session.cache⟩ rfl).1
      | clear => rfl

end Limit

end Finder

/-- The state in which a search of a session starts. -/
def Session.state (session : Session σ) (watch : ρ) : RunState σ ρ :=
  ⟨session.base, watch, session.cache⟩

/-- Whatever was asked of a session before, a search leaves at most as many entries in the cache
as the limit of the cache and the keys that this search visited together, whether it is completed,
cancelled or broken off and whichever lookups fail; and a completed search counts these keys. -/
theorem cache_bounded (finder : Finder) (base : KnowledgeBase σ) (requests : List (Request ρ))
    (session : Session σ) (hlimit : 0 ≤ session.cache.limit)
    (view : Except Failure (KnowledgeBase σ)) (watcher : Watcher ρ) (watch : ρ) (start : Method)
    {outcome : Except Failure SearchResult} {t : RunState σ ρ}
    (hran : finder.search view watcher start
      ((finder.sessionAfter base requests session).state watch) = (outcome, t)) :
    (∃ visited, finder.Visits view watcher start
      ((finder.sessionAfter base requests session).state watch) visited) ∧
      ∀ visited, finder.Visits view watcher start
          ((finder.sessionAfter base requests session).state watch) visited →
        (t.cache.size : Int) ≤ session.cache.limit + visited.size ∧
          ∀ result, outcome = .ok result → result.visitedCount = visited.size := by
  refine ⟨finder.exists_visits view watcher start _, fun visited hvisits => ?_⟩
  obtain ⟨-, hsize, hcounted⟩ := hvisits.bounded finder
  rw [hran] at hsize hcounted
  have hkept := finder.limit_sessionAfter base requests session
  have htrimmed := CallerCache.size_trim_le (hkept ▸ hlimit)
  rw [hkept] at htrimmed
  refine ⟨?_, hcounted⟩
  simp only [Session.state] at hsize
  omega

/-- A cache that may hold nothing, after a search that was completed and one that was stopped at
its fourth checkpoint. -/
theorem cache_bounded_after_cancellation :
    let before := (Finder.sessionAfter { maxDepth := 2, functional := [] } diamond.knowledgeBase
      [.search .idle 0 (letterMethod "a")] (⟨(), { limit := 0 }⟩ : Session Unit)).state 3
    ∃ outcome t visited, Finder.search { maxDepth := 2, functional := [] }
        (.ok diamond.knowledgeBase) Watcher.countdown (letterMethod "a") before = (outcome, t) ∧
      Finder.Visits { maxDepth := 2, functional := [] } (.ok diamond.knowledgeBase)
        Watcher.countdown (letterMethod "a") before visited ∧
      t.cache.size ≤ visited.size := by
  intro before
  cases hran : Finder.search { maxDepth := 2, functional := [] } (.ok diamond.knowledgeBase)
      Watcher.countdown (letterMethod "a") before with
  | mk outcome t =>
      obtain ⟨⟨visited, hvisits⟩, hbounded⟩ := cache_bounded { maxDepth := 2, functional := [] }
        diamond.knowledgeBase [.search .idle 0 (letterMethod "a")]
        (⟨(), { limit := 0 }⟩ : Session Unit) (by decide) (.ok diamond.knowledgeBase)
        Watcher.countdown 3 (letterMethod "a") hran
      have hsize := (hbounded visited hvisits).1
      exact ⟨outcome, t, visited, rfl, hvisits, by simpa using hsize⟩

end EntryPoints

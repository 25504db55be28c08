import EntryPoints.Proofs.FileOrder
import EntryPoints.Proofs.SessionTransparency
import EntryPoints.Proofs.UnmovedIndex
import EntryPoints.Service

/-!
# Searches after the code has changed

A service works over a disk whose files change.  A build installs a new snapshot and keeps the
callers that earlier searches have remembered; only a reindex that succeeds, or a request to
clear them, drops them.  A search that comes after a build may thus read callers that the
installed snapshot does not have.

The remembered callers belong to the snapshot that was searched last.  This is the invariant: no
order breaks it but a search on a snapshot that the remembered callers do not fit, and the place
where a service works keeps account of the snapshot that was searched.  A search finds what a
new service finds when nothing is remembered, when the snapshot is the one that was searched
last, or when the remembered callers are those of the new snapshot as well.  In every other case
the callers of some method are wrong.
-/

namespace EntryPoints

variable {ρ : Type}

/-- What happens to a service and to the files that it looks at. -/
inductive Order (ρ : Type) where
  | edit (disk : Disk)
  | build
  | buildInBackground
  | reindex
  | ask (request : Request ρ)

def Request.isSearch : Request ρ → Bool
  | .clear => false
  | _ => true

/-- Whether an order builds the index and keeps what is remembered. -/
def Order.isBuild : Order ρ → Bool
  | .build | .buildInBackground => true
  | _ => false

structure Workplace where
  disk : Disk
  state : ServiceState := {}
  /-- The snapshot of the last search since the remembered callers were dropped. -/
  searched : Option Snapshot := none

namespace Service

variable (service : Service)

def serve : Request ρ → ServiceState → Reply × ServiceState
  | .search watcher watch start, state =>
    let ran := service.search watcher start watch state
    (.search ran.1, ran.2.2)
  | .statement watcher watch statementId, state =>
    let ran := service.searchStatement watcher statementId watch state
    (.statement ran.1, ran.2.2)
  | .clear, state => (.clear, { state with cache := state.cache.clear })

def obey : Order ρ → Workplace → Workplace
  | .edit disk, place => { place with disk }
  | .build, place => { place with state := (service.build place.disk place.state).2 }
  | .buildInBackground, place =>
    { place with state := service.buildInBackground place.disk place.state }
  | .reindex, place =>
    match service.reindex place.disk place.state with
    | (.ok _, state) => { place with state, searched := none }
    | (.error _, state) => { place with state }
  | .ask request, place =>
    { place with
      state := (service.serve request place.state).2
      searched :=
        if request.isSearch then place.state.index.snapshot <|> place.searched else none }

def follow (orders : List (Order ρ)) (place : Workplace) : Workplace :=
  orders.foldl (fun place order => service.obey order place) place

/-- The callers of a method that a search finds when nothing disturbs it. -/
def callersOf (m : Method) (state : ServiceState) : Except Failure (List Method) :=
  (run (do
    let base ← (liftM state.view : Run IndexState Unit (KnowledgeBase IndexState))
    let scope ← Run.lookup base.productionScope
    (service.finder.setting base scope (Run.checkpoint base Watcher.idle)).callersOf m)
    () state).1

/-- A search that nothing disturbs returns the result, and so does every other search that is
completed. -/
def Finds (state : ServiceState) (start : Method) (result : SearchResult) : Prop :=
  ∀ (ρ : Type) (watch : ρ),
    (service.search Watcher.idle start watch state).1 = .ok result ∧
      ∀ (watcher : Watcher ρ) (found : SearchResult),
        (service.search watcher start watch state).1 = .ok found → found = result

end Service

/-! ## One search -/

namespace Run

variable {σ α : Type} {action : Run σ ρ α} {wrap : Failure → Failure} {s : RunState σ ρ}

theorem reporting_apply : Run.reporting wrap action s =
    match action s with
    | (.ok a, t) => (.ok a, t)
    | (.error failure, t) =>
      (.error (if failure.isForeseen then failure else wrap failure), t) := by
  unfold Run.reporting
  simp only [tryCatch, tryCatchThe, MonadExceptOf.tryCatch, ExceptT.tryCatch, ExceptT.mk, bind,
    StateT.bind]
  cases action s with
  | mk result t => cases result <;> rfl

theorem state_reporting : (Run.reporting wrap action s).2 = (action s).2 := by
  rw [reporting_apply]
  cases action s with
  | mk result t => cases result <;> rfl

theorem reporting_eq_ok {a : α} :
    (Run.reporting wrap action s).1 = .ok a ↔ (action s).1 = .ok a := by
  rw [reporting_apply]
  cases action s with
  | mk result t => cases result <;> simp

end Run

namespace Service

variable {service : Service} {state : ServiceState} {snapshot : Snapshot}
  {known : Method → Prop}

theorem isStill_of_view {base : KnowledgeBase IndexState} (hview : state.view = .ok base) :
    base.IsStill := by
  unfold ServiceState.view IndexState.settled at hview
  cases hinstalled : state.index.snapshot with
  | none =>
      rw [hinstalled] at hview
      cases hview
  | some snapshot =>
      rw [hinstalled] at hview
      cases hview
      exact snapshot.isStill_knowledgeBase

/-- The state in which a run has left the index and the cache. -/
def stateAfter (after : RunState IndexState ρ) : ServiceState := ⟨after.base, after.cache⟩

theorem state_run {α : Type} (wrap : Failure → Failure) (action : Run IndexState ρ α) (watch : ρ) :
    (run (Run.reporting wrap action) watch state).2.2 =
      stateAfter (action ⟨state.index, watch, state.cache⟩).2 :=
  congrArg stateAfter Run.state_reporting

theorem serve_search (watcher : Watcher ρ) (watch : ρ) (start : Method) :
    (service.serve (.search watcher watch start) state).2 =
      stateAfter (service.finder.search state.view watcher start
        ⟨state.index, watch, state.cache⟩).2 := by
  simp only [serve, search, state_run]

theorem serve_statement (watcher : Watcher ρ) (watch : ρ) (statementId : String) :
    (service.serve (.statement watcher watch statementId) state).2 =
      stateAfter (service.finder.searchStatement state.view watcher statementId
        ⟨state.index, watch, state.cache⟩).2 := by
  simp only [serve, searchStatement, state_run]

/-- Whatever is asked of a service, its index stays as it is. -/
theorem index_serve (request : Request ρ) :
    (service.serve request state).2.index = state.index := by
  have hstill : ∀ base, state.view = .ok base → base.IsStill := fun _ => isStill_of_view
  cases request with
  | clear => rfl
  | search watcher watch start =>
      rw [serve_search]
      exact (service.finder.ignores_search hstill watcher start).base_eq _
  | statement watcher watch statementId =>
      rw [serve_statement]
      exact (service.finder.ignores_searchStatement hstill watcher statementId).base_eq _

variable (hinstalled : state.index.snapshot = some snapshot)

include hinstalled

theorem view_of_installed : state.view = .ok snapshot.knowledgeBase := by
  unfold ServiceState.view IndexState.settled
  rw [hinstalled]
  rfl

/-- A service remembers what its finder does. -/
theorem cache_serve (request : Request ρ) : (service.serve request state).2.cache =
    (service.finder.serve snapshot.knowledgeBase request ⟨state.index, state.cache⟩).2.cache := by
  cases request with
  | clear => rfl
  | search watcher watch start =>
      rw [serve_search, view_of_installed hinstalled, stateAfter, Finder.serve]
  | statement watcher watch statementId =>
      rw [serve_statement, view_of_installed hinstalled, stateAfter, Finder.serve]

variable (happart : snapshot.answers.ToldApart service.finder.functional known)
  (hclosed : ∀ m, known m →
    ∀ above ∈ snapshot.answers.next service.finder.functional m, known above)

include happart hclosed

theorem complete_serve {request : Request ρ}
    (hstarts : ∀ start ∈ request.starts snapshot.answers, known start)
    (hcomplete : state.cache.Complete snapshot.answers known) :
    (service.serve request state).2.cache.Complete snapshot.answers known := by
  rw [cache_serve hinstalled]
  exact (Finder.serve_complete snapshot.follows_answers happart hclosed hstarts hcomplete).1

theorem finds_of_complete {start : Method} (hstart : known start)
    (hcomplete : state.cache.Complete snapshot.answers known) :
    service.Finds state start
      (snapshot.answers.searchResult service.finder.functional start service.finder.maxDepth) := by
  intro ρ watch
  have hbase : (snapshot.knowledgeBase : KnowledgeBase IndexState).Follows snapshot.answers :=
    snapshot.follows_answers
  constructor
  · have hidle : Undisturbed (snapshot.knowledgeBase : KnowledgeBase IndexState)
        (Watcher.idle : Watcher ρ) := undisturbed_idle fun _ => rfl
    refine Run.reporting_eq_ok.mpr ?_
    rw [view_of_installed hinstalled]
    exact (Finder.gives_search hbase
      (hidle.proceeds service.finder hbase happart hclosed) hstart).eq_ok hcomplete
  · intro watcher found hfound
    have hran : (service.finder.search (.ok snapshot.knowledgeBase) watcher start
        ⟨state.index, watch, state.cache⟩).1 = .ok found := by
      rw [← view_of_installed hinstalled]
      exact Run.reporting_eq_ok.mp hfound
    have hresult := ((Finder.gives_search hbase
      (service.finder.proceeds_of_follows watcher hbase happart hclosed) hstart).apply
        (s := ⟨state.index, watch, state.cache⟩) hcomplete).2
    rw [hran] at hresult
    exact hresult

omit happart hclosed

theorem callersOf_of_installed (m : Method) : service.callersOf m state =
    ((service.finder.setting snapshot.knowledgeBase snapshot.scope
      (Run.checkpoint snapshot.knowledgeBase Watcher.idle)).callersOf m none
        ⟨state.index, (), state.cache⟩).1 := by
  unfold callersOf
  rw [view_of_installed hinstalled]
  rfl

theorem callersOf_of_remembered {m : Method} {callers : List Method}
    (hentry : state.cache.get? m.key = some callers) :
    service.callersOf m state = .ok callers := by
  rw [callersOf_of_installed hinstalled, Setting.callersOf_of_cached _ none hentry]

theorem callersOf_of_complete
    (happart : snapshot.answers.ToldApart service.finder.functional known)
    (hcomplete : state.cache.Complete snapshot.answers known) {m : Method} (hm : known m) :
    service.callersOf m state = .ok (snapshot.answers.callers m) := by
  have hidle : Undisturbed (snapshot.knowledgeBase : KnowledgeBase IndexState)
      (Watcher.idle : Watcher Unit) := undisturbed_idle fun _ => rfl
  have hbase : (snapshot.knowledgeBase : KnowledgeBase IndexState).Follows snapshot.answers :=
    snapshot.follows_answers
  have hsetting := service.finder.setting_follows hbase
    (Run.checkpoint snapshot.knowledgeBase (Watcher.idle : Watcher Unit))
  rw [callersOf_of_installed hinstalled]
  exact (gives_callersOf hsetting happart hidle.gives_checkpoint (fun _ hfalse => hfalse.elim)
    hm).eq_ok hcomplete

omit hinstalled

theorem view_of_missing (hmissing : state.index.snapshot = none) :
    state.view = .error (.unusableIndex state.index.failure) := by
  unfold ServiceState.view IndexState.settled
  rw [hmissing]
  rfl

theorem search_of_missing (hmissing : state.index.snapshot = none) (watcher : Watcher ρ)
    (watch : ρ) (start : Method) :
    ∃ failure, (service.search watcher start watch state).1 = .error failure := by
  cases hsearch : (service.search watcher start watch state).1 with
  | error failure => exact ⟨failure, rfl⟩
  | ok result =>
      have hran := Run.reporting_eq_ok.mp hsearch
      rw [view_of_missing hmissing] at hran
      cases hran

/-- Without an index nothing new is remembered. -/
theorem get?_serve_of_missing (hmissing : state.index.snapshot = none) {request : Request ρ}
    (hsearch : request.isSearch = true) {key : String} {callers : List Method}
    (hentry : (service.serve request state).2.cache.get? key = some callers) :
    state.cache.get? key = some callers := by
  have hview := view_of_missing hmissing
  cases request with
  | clear => cases hsearch
  | search watcher watch start =>
      rw [serve_search, hview] at hentry
      change state.cache.trim.get? key = _ at hentry
      rw [CallerCache.get?_trim] at hentry
      split at hentry
      · cases hentry
      · exact hentry
  | statement watcher watch statementId =>
      rw [serve_statement, hview] at hentry
      unfold Finder.searchStatement at hentry
      by_cases hunnamed : String.ofList (Text.beforeLast '.' statementId.toList) = "" ∨
          TypeText.lastSegment statementId = ""
      · simp only [if_pos hunnamed] at hentry
        exact hentry
      · simp only [if_neg hunnamed] at hentry
        exact hentry

end Service

/-! ## Builds -/

/-- A snapshot of what a disk holds for a repository that is looked at. -/
def IndexSettings.Reads (settings : IndexSettings) (disk : Disk) (snapshot : Snapshot) : Prop :=
  ∃ repository sources, settings.repository? = some repository ∧
    settings.sourcesOf disk repository = .ok sources ∧ snapshot = settings.snapshotOf sources

theorem IndexSettings.Reads.unique {settings : IndexSettings} {disk : Disk}
    {snapshot other : Snapshot} (hreads : settings.Reads disk snapshot)
    (hother : settings.Reads disk other) : other = snapshot := by
  obtain ⟨repository, sources, hrepository, hsources, rfl⟩ := hreads
  obtain ⟨elsewhere, texts, helsewhere, htexts, rfl⟩ := hother
  rw [hrepository] at helsewhere
  cases helsewhere
  rw [hsources] at htexts
  cases htexts
  rfl

/-- The three ways in which a build ends: without a repository it touches nothing, and otherwise it
installs what it has read or notes why it could not. -/
theorem IndexState.build_exits (settings : IndexSettings) (disk : Disk) (state : IndexState) :
    (settings.repository? = none ∧ build settings disk state = (.error .noRepository, state)) ∨
    ∃ repository, settings.repository? = some repository ∧
      ((∃ sources, settings.sourcesOf disk repository = .ok sources ∧
        build settings disk state =
          (.ok (settings.snapshotOf sources), install (settings.snapshotOf sources))) ∨
      ∃ failure, settings.sourcesOf disk repository = .error failure ∧
        build settings disk state =
          (.error (.buildFailed failure), ⟨state.snapshot, true, some failure⟩)) := by
  unfold build
  cases hrepository : settings.repository? with
  | none => exact .inl ⟨rfl, rfl⟩
  | some repository =>
      refine .inr ⟨repository, rfl, ?_⟩
      cases hsources : settings.sourcesOf disk repository with
      | ok sources => exact .inl ⟨sources, rfl, by simp only [hsources]⟩
      | error failure => exact .inr ⟨failure, rfl, by simp only [hsources]⟩

/-- A build installs the snapshot of the disk, or there is none and it leaves the old one. -/
theorem IndexState.build_cases (settings : IndexSettings) (disk : Disk) (state : IndexState) :
    (∃ snapshot, settings.Reads disk snapshot ∧
      build settings disk state = (.ok snapshot, install snapshot)) ∨
    (∀ snapshot, ¬settings.Reads disk snapshot) ∧
      ∃ failure after, after.snapshot = state.snapshot ∧
        build settings disk state = (.error failure, after) := by
  rcases build_exits settings disk state with
    ⟨hnone, hbuilt⟩ | ⟨repository, hrepository, hread⟩
  · right
    refine ⟨?_, .noRepository, state, rfl, hbuilt⟩
    rintro snapshot ⟨repository, sources, hsome, -⟩
    rw [hnone] at hsome
    cases hsome
  · rcases hread with ⟨sources, hsources, hbuilt⟩ | ⟨failure, hfailure, hbuilt⟩
    · exact .inl ⟨_, ⟨repository, sources, hrepository, hsources, rfl⟩, hbuilt⟩
    · right
      refine ⟨?_, .buildFailed failure, ⟨state.snapshot, true, some failure⟩, rfl, hbuilt⟩
      rintro snapshot ⟨other, sources, hother, hsources, -⟩
      rw [hrepository] at hother
      cases hother
      rw [hfailure] at hsources
      cases hsources

/-- A reindex that succeeds drops what is remembered, and one that fails changes neither the
snapshot nor what is remembered. -/
theorem Service.obey_reindex_cases (service : Service) (place : Workplace) :
    (∃ snapshot, service.settings.Reads place.disk snapshot ∧
      service.obey (.reindex : Order ρ) place =
        ⟨place.disk, ⟨.install snapshot, place.state.cache.clear⟩, none⟩) ∨
    (∀ snapshot, ¬service.settings.Reads place.disk snapshot) ∧
      ∃ index, index.snapshot = place.state.index.snapshot ∧
        service.obey (.reindex : Order ρ) place =
          ⟨place.disk, ⟨index, place.state.cache⟩, place.searched⟩ := by
  unfold obey reindex build
  rcases place.state.index.build_cases service.settings place.disk with
    ⟨snapshot, hreads, hbuilt⟩ | ⟨hnone, failure, after, hkept, hbuilt⟩
  · exact .inl ⟨snapshot, hreads, by simp only [hbuilt]⟩
  · exact .inr ⟨hnone, after, hkept, by simp only [hbuilt]⟩

/-! ## What is remembered -/

namespace Workplace

/-- The remembered callers are those of the snapshot that was searched last. -/
structure IsSound (known : Snapshot → Method → Prop) (place : Workplace) : Prop where
  forgotten : place.searched = none → ∀ key, place.state.cache.get? key = none
  remembered : ∀ snapshot, place.searched = some snapshot →
    place.state.cache.Complete snapshot.answers (known snapshot)

/-- Nothing is remembered, or the installed snapshot was searched last, or the remembered callers
are its callers too. -/
def IsCovered (known : Snapshot → Method → Prop) (place : Workplace) : Prop :=
  ∀ snapshot, place.state.index.snapshot = some snapshot →
    place.searched = none ∨ place.searched = some snapshot ∨
      place.state.cache.Complete snapshot.answers (known snapshot)

variable {known : Snapshot → Method → Prop} {place : Workplace} {snapshot : Snapshot}

theorem IsSound.complete (hsound : place.IsSound known) (hcovered : place.IsCovered known)
    (hinstalled : place.state.index.snapshot = some snapshot) :
    place.state.cache.Complete snapshot.answers (known snapshot) := by
  rcases hcovered snapshot hinstalled with hnone | hsame | hcomplete
  · exact CallerCache.complete_of_empty (hsound.forgotten hnone)
  · exact hsound.remembered snapshot hsame
  · exact hcomplete

end Workplace

namespace Service

variable {service : Service} {known : Snapshot → Method → Prop} {place : Workplace}
  {orders : List (Order ρ)}

theorem isSound_serve (hsound : place.IsSound known) {request : Request ρ}
    (happart : ∀ snapshot, place.state.index.snapshot = some snapshot →
      snapshot.answers.ToldApart service.finder.functional (known snapshot))
    (hclosed : ∀ snapshot m, known snapshot m →
      ∀ above ∈ snapshot.answers.next service.finder.functional m, known snapshot above)
    (hstarts : ∀ snapshot, place.state.index.snapshot = some snapshot →
      ∀ start ∈ request.starts snapshot.answers, known snapshot start)
    (hcovered : request.isSearch = true → place.IsCovered known) :
    (service.obey (.ask request) place).IsSound known := by
  by_cases hsearch : request.isSearch = true
  · cases hinstalled : place.state.index.snapshot with
    | some snapshot =>
        have hcomplete := complete_serve hinstalled (happart snapshot hinstalled)
          (hclosed snapshot) (hstarts snapshot hinstalled)
          (hsound.complete (hcovered hsearch) hinstalled)
        have hsearched : (service.obey (.ask request) place).searched = some snapshot := by
          simp [obey, hsearch, hinstalled]
        constructor
        · intro hnone
          rw [hsearched] at hnone
          cases hnone
        · intro other hother
          rw [hsearched] at hother
          cases hother
          exact hcomplete
    | none =>
        -- The search fails, and at most drops callers.
        have hsearched : (service.obey (.ask request) place).searched = place.searched := by
          simp [obey, hsearch, hinstalled]
        have hkept {key : String} {callers : List Method}
            (hentry : (service.serve request place.state).2.cache.get? key = some callers) :
            place.state.cache.get? key = some callers :=
          get?_serve_of_missing hinstalled hsearch hentry
        constructor
        · intro hnone key
          rw [hsearched] at hnone
          rw [Option.eq_none_iff_forall_ne_some]
          intro callers hentry
          have hold := hkept hentry
          rw [hsound.forgotten hnone] at hold
          cases hold
        · intro snapshot hsnapshot m callers hm hentry
          rw [hsearched] at hsnapshot
          exact hsound.remembered snapshot hsnapshot m callers hm (hkept hentry)
  · cases request with
    | clear => exact ⟨fun _ => CallerCache.get?_clear _, fun _ hsome => by cases hsome⟩
    | search watcher watch start => exact absurd rfl hsearch
    | statement watcher watch statementId => exact absurd rfl hsearch

/-- What every order of a history has to respect, for the remembered callers to stay those of the
snapshot that was searched last. -/
structure IsOrderly (service : Service) (known : Snapshot → Method → Prop)
    (orders : List (Order ρ)) (place : Workplace) : Prop where
  closed : ∀ snapshot m, known snapshot m →
    ∀ above ∈ snapshot.answers.next service.finder.functional m, known snapshot above
  apart : ∀ done snapshot, done <+: orders →
    (service.follow done place).state.index.snapshot = some snapshot →
      snapshot.answers.ToldApart service.finder.functional (known snapshot)
  starts : ∀ done request snapshot, done ++ [.ask request] <+: orders →
    (service.follow done place).state.index.snapshot = some snapshot →
      ∀ start ∈ request.starts snapshot.answers, known snapshot start
  covered : ∀ done request, done ++ [.ask request] <+: orders → request.isSearch = true →
    (service.follow done place).IsCovered known

theorem IsOrderly.tail {order : Order ρ} (h : service.IsOrderly known (order :: orders) place) :
    service.IsOrderly known orders (service.obey order place) where
  closed := h.closed
  apart done snapshot hdone :=
    h.apart (order :: done) snapshot ((List.prefix_cons_inj order).mpr hdone)
  starts done request snapshot hdone :=
    h.starts (order :: done) request snapshot ((List.prefix_cons_inj order).mpr hdone)
  covered done request hdone :=
    h.covered (order :: done) request ((List.prefix_cons_inj order).mpr hdone)

theorem isSound_obey {order : Order ρ} (h : service.IsOrderly known (order :: orders) place)
    (hsound : place.IsSound known) : (service.obey order place).IsSound known := by
  cases order with
  | edit disk => exact ⟨hsound.forgotten, hsound.remembered⟩
  | build => exact ⟨hsound.forgotten, hsound.remembered⟩
  | buildInBackground => exact ⟨hsound.forgotten, hsound.remembered⟩
  | reindex =>
      rcases service.obey_reindex_cases (ρ := ρ) place with
        ⟨snapshot, -, hobey⟩ | ⟨-, index, -, hobey⟩
      · rw [hobey]
        exact ⟨fun _ => CallerCache.get?_clear _, fun _ hsome => by cases hsome⟩
      · rw [hobey]
        exact ⟨hsound.forgotten, hsound.remembered⟩
  | ask request =>
      have hfirst : [] ++ [.ask request] <+: Order.ask request :: orders := by simp
      exact isSound_serve hsound (fun snapshot => h.apart [] snapshot List.nil_prefix) h.closed
        (fun snapshot => h.starts [] request snapshot hfirst) (h.covered [] request hfirst)

/-- After every orderly history, the remembered callers are those of the snapshot that was
searched last. -/
theorem isSound_follow (h : service.IsOrderly known orders place) (hsound : place.IsSound known) :
    (service.follow orders place).IsSound known := by
  induction orders generalizing place with
  | nil => exact hsound
  | cons order orders ih => exact ih h.tail (isSound_obey h hsound)

/-! ## What is installed -/

theorem installed_obey {order : Order ρ} {snapshot : Snapshot}
    (hinstalled : (service.obey order place).state.index.snapshot = some snapshot) :
    place.state.index.snapshot = some snapshot ∨ service.settings.Reads place.disk snapshot := by
  have hbuild (state : IndexState) (hstate : state.snapshot = place.state.index.snapshot)
      (hinstalled : (state.build service.settings place.disk).2.snapshot = some snapshot) :
      place.state.index.snapshot = some snapshot ∨ service.settings.Reads place.disk snapshot := by
    rcases state.build_cases service.settings place.disk with
      ⟨built, hreads, hbuilt⟩ | ⟨-, failure, after, hkept, hbuilt⟩
    · rw [hbuilt] at hinstalled
      cases hinstalled
      exact .inr hreads
    · rw [hbuilt] at hinstalled
      exact .inl (hstate ▸ hkept ▸ hinstalled)
  cases order with
  | edit disk => exact .inl hinstalled
  | build => exact hbuild _ rfl hinstalled
  | buildInBackground => exact hbuild { place.state.index with isSettled := false } rfl hinstalled
  | reindex =>
      rcases service.obey_reindex_cases (ρ := ρ) place with
        ⟨built, hreads, hobey⟩ | ⟨-, index, hkept, hobey⟩
      · rw [hobey] at hinstalled
        cases hinstalled
        exact .inr hreads
      · rw [hobey] at hinstalled
        exact .inl (hkept ▸ hinstalled)
  | ask request =>
      change (service.serve request place.state).2.index.snapshot = some snapshot at hinstalled
      rw [index_serve] at hinstalled
      exact .inl hinstalled

theorem disk_obey {order : Order ρ} {disk : Disk} (hdisk : (service.obey order place).disk = disk) :
    disk = place.disk ∨ order = .edit disk := by
  cases order with
  | edit other => exact .inr (congrArg Order.edit hdisk)
  | build => exact .inl hdisk.symm
  | buildInBackground => exact .inl hdisk.symm
  | ask request => exact .inl hdisk.symm
  | reindex =>
      rcases service.obey_reindex_cases (ρ := ρ) place with
        ⟨built, -, hobey⟩ | ⟨-, index, -, hobey⟩
      · exact .inl (by rw [← hdisk, hobey])
      · exact .inl (by rw [← hdisk, hobey])

/-- The installed snapshot is the first one, or it was read from the disk as it was at some time
of the history. -/
theorem installed_follow {snapshot : Snapshot}
    (hinstalled : (service.follow orders place).state.index.snapshot = some snapshot) :
    place.state.index.snapshot = some snapshot ∨
      ∃ disk, (disk = place.disk ∨ .edit disk ∈ orders) ∧ service.settings.Reads disk snapshot := by
  induction orders generalizing place with
  | nil => exact .inl hinstalled
  | cons order orders ih =>
      rcases ih hinstalled with hobeyed | ⟨disk, hdisk | hedit, hreads⟩
      · rcases installed_obey hobeyed with hold | hreads
        · exact .inl hold
        · exact .inr ⟨place.disk, .inl rfl, hreads⟩
      · rcases disk_obey hdisk.symm with hold | hedit
        · exact .inr ⟨disk, .inl hold, hreads⟩
        · exact .inr ⟨disk, .inr (hedit ▸ List.mem_cons_self), hreads⟩
      · exact .inr ⟨disk, .inr (List.mem_cons_of_mem order hedit), hreads⟩

/-- Only a build that finds something remembered installs a snapshot beside the one that was
searched. -/
theorem searched_obey {order : Order ρ} (hbuild : order.isBuild = true → place.searched = none)
    (hplace : place.searched = none ∨ place.searched = place.state.index.snapshot) :
    (service.obey order place).searched = none ∨
      (service.obey order place).searched =
        (service.obey order place).state.index.snapshot := by
  cases order with
  | edit disk => exact hplace
  | build => exact .inl (hbuild rfl)
  | buildInBackground => exact .inl (hbuild rfl)
  | reindex =>
      rcases service.obey_reindex_cases (ρ := ρ) place with
        ⟨built, -, hobey⟩ | ⟨-, index, hkept, hobey⟩
      · rw [hobey]
        exact .inl rfl
      · rw [hobey]
        simp only [hkept]
        exact hplace
  | ask request =>
      change (if request.isSearch then _ else none) = none ∨
        (if request.isSearch then _ else none) =
          (service.serve request place.state).2.index.snapshot
      rw [index_serve]
      split
      · cases hinstalled : place.state.index.snapshot with
        | none =>
            rw [hinstalled] at hplace
            exact .inl (hplace.elim id id)
        | some snapshot => exact .inr rfl
      · exact .inl rfl

/-- A history is covered throughout when every build finds nothing remembered, as when the index
is built once and only reindexed later. -/
theorem isCovered_follow (known : Snapshot → Method → Prop)
    (hbuilds : ∀ done order, done ++ [order] <+: orders → order.isBuild = true →
      (service.follow done place).searched = none)
    (hplace : place.searched = none ∨ place.searched = place.state.index.snapshot) :
    (service.follow orders place).IsCovered known := by
  induction orders generalizing place with
  | nil =>
      intro snapshot hinstalled
      rcases hplace with hnone | hsame
      · exact .inl hnone
      · exact .inr (.inl (hsame.trans hinstalled))
  | cons order orders ih =>
      refine ih (fun done later hdone => ?_) (searched_obey (hbuilds [] order (by simp)) hplace)
      exact hbuilds (order :: done) later ((List.prefix_cons_inj order).mpr hdone)

/-! ## Searches of a history -/

/-- A start of a search on the snapshot: of the history, or of one more after it. -/
def Starts (service : Service) (orders : List (Order ρ)) (place : Workplace) (start : Method)
    (snapshot : Snapshot) (first : Method) : Prop :=
  (first = start ∧ (service.follow orders place).state.index.snapshot = some snapshot) ∨
    ∃ done request, done ++ [.ask request] <+: orders ∧
      (service.follow done place).state.index.snapshot = some snapshot ∧
      first ∈ request.starts snapshot.answers

/-- The methods that the searches on the snapshot may meet. -/
def Meets (service : Service) (orders : List (Order ρ)) (place : Workplace) (start : Method)
    (snapshot : Snapshot) (m : Method) : Prop :=
  ∃ first, service.Starts orders place start snapshot first ∧
    snapshot.answers.Reaches service.finder.functional first m

/-- A history from a service that remembers nothing, in which every search was covered.  After
it, searching without an index fails.  With an installed snapshot, a service finds the callers
that a new service with this snapshot finds, for every method that searches may meet, exactly
when the history has left it covered; and then a search returns what the new service returns. -/
theorem search_describes_installed (service : Service) {orders : List (Order ρ)}
    {place : Workplace} (start : Method)
    (hnew : place.searched = none ∧ ∀ key, place.state.cache.get? key = none)
    (happart : ∀ done snapshot, done <+: orders →
      (service.follow done place).state.index.snapshot = some snapshot →
        snapshot.answers.ToldApart service.finder.functional
          (service.Meets orders place start snapshot))
    (hcovered : ∀ done request, done ++ [.ask request] <+: orders → request.isSearch = true →
      (service.follow done place).IsCovered (service.Meets orders place start)) :
    let now := service.follow orders place
    (now.state.index.snapshot = none → ∀ (watcher : Watcher ρ) watch,
      ∃ failure, (service.search watcher start watch now.state).1 = .error failure) ∧
    ∀ snapshot, now.state.index.snapshot = some snapshot →
      ∀ fresh : ServiceState, fresh.index.snapshot = some snapshot →
        (∀ key, fresh.cache.get? key = none) →
          (now.IsCovered (service.Meets orders place start) ↔
            ∀ m, service.Meets orders place start snapshot m →
              service.callersOf m now.state = service.callersOf m fresh) ∧
          (now.IsCovered (service.Meets orders place start) →
            ∃ result, service.Finds now.state start result ∧ service.Finds fresh start result) := by
  intro now
  have horderly : service.IsOrderly (service.Meets orders place start) orders place := by
    refine ⟨?_, happart, ?_, hcovered⟩
    · rintro snapshot m ⟨first, hfirst, hm⟩ above habove
      exact ⟨first, hfirst, hm.next habove⟩
    · intro done request snapshot hdone hinstalled first hfirst
      exact ⟨first, .inr ⟨done, request, hdone, hinstalled, hfirst⟩, Answers.reaches_start first⟩
  have hsound : now.IsSound (service.Meets orders place start) := by
    refine isSound_follow horderly ⟨fun _ => hnew.2, fun snapshot hsearched => ?_⟩
    rw [hnew.1] at hsearched
    cases hsearched
  refine ⟨fun hmissing watcher watch => search_of_missing hmissing watcher watch start, ?_⟩
  intro snapshot hinstalled fresh hfresh hempty
  have hclosed := horderly.closed snapshot
  have hknown := happart orders snapshot List.prefix_rfl hinstalled
  have hnothing : fresh.cache.Complete snapshot.answers
      (service.Meets orders place start snapshot) := CallerCache.complete_of_empty hempty
  constructor
  · constructor
    · intro hnow m hm
      have hcomplete := hsound.complete hnow hinstalled
      rw [callersOf_of_complete hinstalled hknown hcomplete hm,
        callersOf_of_complete hfresh hknown hnothing hm]
    · -- The service returns what it remembers, so this has to be what the new one collects.
      intro hsame other hother
      have heq : other = snapshot := Option.some.inj (hother.symm.trans hinstalled)
      refine .inr (.inr fun m callers hm hentry => ?_)
      have hremembered : service.callersOf m now.state = .ok callers :=
        callersOf_of_remembered hother hentry
      rw [heq] at hm ⊢
      rw [hsame m hm, callersOf_of_complete hfresh hknown hnothing hm] at hremembered
      exact (Except.ok.inj hremembered).symm
  · intro hnow
    have hcomplete := hsound.complete hnow hinstalled
    have hstart : service.Meets orders place start snapshot start :=
      ⟨start, .inl ⟨rfl, hinstalled⟩, Answers.reaches_start start⟩
    exact ⟨_, finds_of_complete hinstalled hknown hclosed hstart hcomplete,
      finds_of_complete hfresh hknown hclosed hstart hnothing⟩

end Service

/-! ## A caller that is removed -/

theorem Disk.locate_eq (disk : Disk) (path : FilePath) :
    disk.locate path =
      if path.segments.any fun segment => decide ('\x00' ∈ segment.toList) then
        .error .embeddedNull
      else disk.follow path.segments (disk.startOf path) := by
  unfold Disk.locate
  simp only [String.contains_char_eq]

namespace Service

open CodeIndex

def overRepo : Service where
  settings := { repository := some "repo" }

def diskOf (text : String) : Disk where
  root := .directory [("repo", .directory [("A.java", .file text.toUTF8)])]

def called : String := "class A\x7bvoid f()\x7b\x7d\x7d"

def calledAndCaller : String := "class A\x7bvoid f()\x7b\x7dvoid g()\x7bf();\x7d\x7d"

def filesOf (text : String) : List FileFacts := [.ofText "repo/A.java" text (some "repo")]

/-- The first method that a text declares. -/
def methodIn (text : String) : Method :=
  (methodEntries (typesOf (filesOf text)) (filesOf text)).head!.1

/-- The index is built and searched, the caller is removed, and the index is built again. -/
def callerRemoved : List (Order Unit) :=
  [.build, .ask (.search .idle () (methodIn calledAndCaller)), .edit (diskOf called), .reindex]

theorem reads_diskOf {text : String}
    (hsources : (overRepo.settings.sourcesOf (diskOf text) "repo").toOption =
      some [("repo/A.java", text)]) :
    overRepo.settings.Reads (diskOf text) (.ofFiles (filesOf text) default) := by
  cases hread : overRepo.settings.sourcesOf (diskOf text) "repo" with
  | error failure =>
      rw [hread] at hsources
      cases hsources
  | ok sources =>
      rw [hread] at hsources
      cases hsources
      exact ⟨"repo", _, rfl, hread, rfl⟩

theorem reads_called :
    overRepo.settings.Reads (diskOf called) (.ofFiles (filesOf called) default) := by
  apply reads_diskOf
  simp only [IndexSettings.sourcesOf, ScanRules.scanAt, Disk.sourceText?, Disk.isWithin,
    Disk.read, Disk.lookup, Disk.locate_eq]
  decide +kernel

theorem reads_calledAndCaller : overRepo.settings.Reads (diskOf calledAndCaller)
    (.ofFiles (filesOf calledAndCaller) default) := by
  apply reads_diskOf
  simp only [IndexSettings.sourcesOf, ScanRules.scanAt, Disk.sourceText?, Disk.isWithin,
    Disk.read, Disk.lookup, Disk.locate_eq]
  decide +kernel

theorem declares_methodIn {text : String}
    (hsome : ((methodEntries (typesOf (filesOf text)) (filesOf text)).map (·.1.key)) ≠ []) :
    Declares (filesOf text) (methodIn text) := by
  unfold Declares methodIn
  cases hentries : methodEntries (typesOf (filesOf text)) (filesOf text) with
  | nil =>
      rw [hentries] at hsome
      exact absurd rfl hsome
  | cons a entries => exact ⟨a, List.mem_cons_self, rfl⟩

theorem areDistinct_filesOf {text : String}
    (h : (∀ file ∈ filesOf text, ∀ decl ∈ file.methods, '#' ∉ decl.name.toList) ∧
      ((typeEntries (filesOf text)).map (·.decl.binaryName)).Nodup ∧
      (((typeEntries (filesOf text)).filter (·.decl.qualifiedName.isSome)).map
        (·.decl.qualifiedName)).Nodup ∧
      ((methodEntries (typesOf (filesOf text)) (filesOf text)).map (·.1.key)).Nodup) :
    AreDistinct (filesOf text) where
  analyzed _ hfile := ⟨_, _, _, List.mem_singleton.mp hfile⟩
  methodNames := h.1
  paths := List.nodup_singleton _
  binaryNames := h.2.1
  qualifiedNames := h.2.2.1
  methodKeys := h.2.2.2

theorem areDistinct_called : AreDistinct (filesOf called) := by
  apply areDistinct_filesOf
  rw [methodEntries_typesOf]
  decide +kernel

theorem areDistinct_calledAndCaller : AreDistinct (filesOf calledAndCaller) := by
  apply areDistinct_filesOf
  rw [methodEntries_typesOf]
  decide +kernel

def firstPlace : Workplace := ⟨diskOf calledAndCaller, {}, none⟩

theorem asked_callerRemoved {done : List (Order Unit)} {request : Request Unit}
    (hdone : done ++ [.ask request] <+: callerRemoved) :
    done = [.build] ∧ request = .search .idle () (methodIn calledAndCaller) := by
  cases done with
  | nil => simp [callerRemoved] at hdone
  | cons order done =>
      cases done with
      | nil => simpa [callerRemoved] using hdone
      | cons other done =>
          have hlater : .ask request ∈ [Order.edit (diskOf called), .reindex] := by
            simp only [callerRemoved, List.cons_append, List.cons_prefix_cons] at hdone
            exact hdone.2.2.subset (by simp)
          simp at hlater

theorem installed_callerRemoved : (overRepo.follow callerRemoved firstPlace).state.index.snapshot =
    some (.ofFiles (filesOf called) default) := by
  rcases overRepo.obey_reindex_cases (ρ := Unit) (overRepo.follow
    (callerRemoved.take 3) firstPlace) with ⟨built, hreads, hobey⟩ | ⟨hnone, -⟩
  · have hnow : overRepo.follow callerRemoved firstPlace = _ := hobey
    rw [hnow, hreads.unique reads_called]
    rfl
  · exact absurd reads_called (hnone _)

theorem starts_callerRemoved {snapshot : Snapshot} {first : Method}
    (hfirst : overRepo.Starts callerRemoved firstPlace (methodIn called) snapshot first) :
    Declares snapshot.files first := by
  rcases hfirst with ⟨rfl, hinstalled⟩ | ⟨done, request, hdone, hinstalled, hfirst⟩
  · rw [installed_callerRemoved] at hinstalled
    cases hinstalled
    apply declares_methodIn
    rw [methodEntries_typesOf]
    decide +kernel
  · obtain ⟨rfl, rfl⟩ := asked_callerRemoved hdone
    have hstart : first = methodIn calledAndCaller := List.mem_singleton.mp hfirst
    rcases installed_follow hinstalled with hnone | ⟨disk, rfl | hedit, hreads⟩
    · cases hnone
    · rw [hstart, reads_calledAndCaller.unique hreads]
      apply declares_methodIn
      rw [methodEntries_typesOf]
      decide +kernel
    · simp at hedit

/-- After the reindex, a search of the method finds what a new service finds. -/
theorem search_after_reindex :
    let now := overRepo.follow callerRemoved firstPlace
    ∃ snapshot, now.state.index.snapshot = some snapshot ∧
      ∃ result, overRepo.Finds now.state (methodIn called) result ∧
        overRepo.Finds ⟨.install snapshot, {}⟩ (methodIn called) result := by
  intro now
  have hbuilds (done : List (Order Unit)) (order : Order Unit)
      (hdone : done ++ [order] <+: callerRemoved) (hbuild : order.isBuild = true) :
      (overRepo.follow done firstPlace).searched = none := by
    cases done with
    | nil => rfl
    | cons other done =>
        simp only [callerRemoved, List.cons_append, List.cons_prefix_cons] at hdone
        have hlater := hdone.2.subset (List.mem_append_right done List.mem_cons_self)
        simp only [List.mem_cons, List.not_mem_nil, or_false] at hlater
        rcases hlater with rfl | rfl | rfl <;> cases hbuild
  have hcovered (done : List (Order Unit)) (hdone : done <+: callerRemoved) :
      (overRepo.follow done firstPlace).IsCovered
        (overRepo.Meets callerRemoved firstPlace (methodIn called)) :=
    isCovered_follow _ (fun earlier order hearlier => hbuilds earlier order (hearlier.trans hdone))
      (.inl rfl)
  have happart (done : List (Order Unit)) (snapshot : Snapshot) (hdone : done <+: callerRemoved)
      (hinstalled : (overRepo.follow done firstPlace).state.index.snapshot = some snapshot) :
      snapshot.answers.ToldApart overRepo.finder.functional
        (overRepo.Meets callerRemoved firstPlace (methodIn called) snapshot) := by
    have hstarts (first : Method)
        (hfirst : overRepo.Starts callerRemoved firstPlace (methodIn called) snapshot first) :
        Declares snapshot.files first := starts_callerRemoved hfirst
    rcases installed_follow hinstalled with hnone | ⟨disk, hdisk, hreads⟩
    · cases hnone
    · rcases hdisk with rfl | hedit
      · cases reads_calledAndCaller.unique hreads
        exact Snapshot.toldApart_reaches areDistinct_calledAndCaller _ hstarts
      · have hdisk : disk = diskOf called := by
          have hlater := hdone.subset hedit
          simpa [callerRemoved] using hlater
        cases hdisk
        cases reads_called.unique hreads
        exact Snapshot.toldApart_reaches areDistinct_called _ hstarts
  have hdescribes := search_describes_installed overRepo (methodIn called)
    ⟨rfl, CallerCache.get?_new⟩ happart
    (fun done request hdone _ => hcovered done ((List.prefix_append done _).trans hdone))
  refine ⟨_, installed_callerRemoved, ?_⟩
  exact (hdescribes.2 _ installed_callerRemoved ⟨.install _, {}⟩ rfl CallerCache.get?_new).2
    (hcovered callerRemoved List.prefix_rfl)

end Service

end EntryPoints

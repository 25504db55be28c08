import EntryPoints.Proofs.InstalledSnapshot

/-!
# A reindex that fails

A reindex builds the index and then drops what earlier searches have remembered.  The build may
fail before it has looked at the repository, or while it scans and reads it; the readiness of the
index is withdrawn in between.  A ready index is ready again after every failure, with the
snapshot that it had, and only the failure itself is noted.

A search does not see this note.  It neither reads nor moves the state of the index, so whatever
is asked after a failed reindex is answered as if there had been none.  The replies are compared
one by one, and the two services stay in step: they differ in the note, and in nothing else.

A service remembers keys of methods beside their callers.  A remembered key is the key of its
method, so no reply depends on which keys are remembered; a reindex that succeeds drops them too.
-/

namespace EntryPoints

variable {ρ α : Type}

/-- A service with both of its caches. -/
structure ServiceMemory where
  state : ServiceState := {}
  keys : KeyCache := .empty

def ServiceMemory.clearCaches (memory : ServiceMemory) : ServiceMemory :=
  ⟨{ memory.state with cache := memory.state.cache.clear }, .empty⟩

/-- What is asked of a service, where a search may name its start by a spec. -/
inductive Inquiry (ρ : Type) where
  | named (watcher : Watcher ρ) (watch : ρ) (spec : String)
  | request (request : Request ρ)

namespace Service

variable (service : Service)

/-- Builds the index again and clears both caches. -/
def reindexMemory (disk : Disk) (memory : ServiceMemory) :
    Except Failure Snapshot × ServiceMemory :=
  match service.build disk memory.state with
  | (.ok snapshot, state) => (.ok snapshot, { memory with state }.clearCaches)
  | (.error failure, state) => (.error failure, { memory with state })

theorem reindexMemory_state (disk : Disk) (memory : ServiceMemory) :
    service.reindex disk memory.state =
      ((service.reindexMemory disk memory).1, (service.reindexMemory disk memory).2.state) := by
  unfold reindex reindexMemory
  rcases service.build disk memory.state with ⟨result, state⟩
  cases result <;> rfl

def answer : Inquiry ρ → ServiceState → Reply × ServiceState
  | .named watcher watch spec, state =>
    match resolve spec state with
    | .ok start => service.serve (.search watcher watch start) state
    | .error failure => (.search (.error failure), state)
  | .request request, state => service.serve request state

def answerAll : List (Inquiry ρ) → ServiceState → List Reply
  | [], _ => []
  | inquiry :: inquiries, state =>
    (service.answer inquiry state).1 :: answerAll inquiries (service.answer inquiry state).2

end Service

/-! ## What the state of the index has no influence on -/

namespace Service

variable {service : Service} {state : ServiceState} {index : IndexState} {snapshot : Snapshot}

theorem run_withIndex (state : ServiceState) (index : IndexState) {action : Run IndexState ρ α}
    (haction : Ignores RunState.rebase action) (watch : ρ) :
    run action watch { state with index } =
      ((run action watch state).1, (run action watch state).2.1,
        { (run action watch state).2.2 with index }) := by
  have hsame := haction index ⟨state.index, watch, state.cache⟩
  change action ⟨index, watch, state.cache⟩ = _ at hsame
  simp only [run, hsame]
  rfl

variable (hinstalled : state.index.snapshot = some snapshot)
  (hsame : index.snapshot = some snapshot)

include hinstalled hsame

theorem view_withIndex : ({ state with index } : ServiceState).view = state.view := by
  rw [view_of_installed hinstalled]
  exact view_of_installed hsame

theorem resolve_withIndex (spec : String) :
    resolve spec { state with index } = resolve spec state := by
  have hstill : ∀ base, state.view = .ok base → base.IsStill := fun _ => isStill_of_view
  have hran := run_withIndex state index (MethodSpec.ignores_resolve hstill spec) ()
  unfold resolve
  rw [view_withIndex hinstalled hsame, hran]

theorem serve_withIndex (request : Request ρ) :
    service.serve request { state with index } =
      ((service.serve request state).1, { (service.serve request state).2 with index }) := by
  have hstill : ∀ base, state.view = .ok base → base.IsStill := fun _ => isStill_of_view
  have hview := view_withIndex hinstalled hsame
  cases request with
  | clear => rfl
  | search watcher watch start =>
      have hignores := service.finder.ignores_search hstill watcher start
      have hran := run_withIndex state index (Run.ignores_reporting .searchFailed hignores) watch
      simp only [serve, search, hview, hran]
  | statement watcher watch statementId =>
      have hignores := service.finder.ignores_searchStatement hstill watcher statementId
      have hran := run_withIndex state index
        (Run.ignores_reporting .statementSearchFailed hignores) watch
      simp only [serve, searchStatement, hview, hran]

/-- What is asked is answered alike, and the indexes stay what they are. -/
theorem answer_withIndex (inquiry : Inquiry ρ) :
    service.answer inquiry { state with index } =
      ((service.answer inquiry state).1, { (service.answer inquiry state).2 with index }) := by
  cases inquiry with
  | request request => exact serve_withIndex hinstalled hsame request
  | named watcher watch spec =>
      simp only [answer, resolve_withIndex hinstalled hsame]
      cases resolve spec state with
      | error failure => rfl
      | ok start => exact serve_withIndex hinstalled hsame _

omit hinstalled hsame

theorem index_answer (inquiry : Inquiry ρ) :
    (service.answer inquiry state).2.index = state.index := by
  cases inquiry with
  | request request => exact index_serve request
  | named watcher watch spec =>
      simp only [answer]
      cases resolve spec state with
      | error failure => rfl
      | ok start => exact index_serve _

theorem answerAll_withIndex (hinstalled : state.index.snapshot = some snapshot)
    (hsame : index.snapshot = some snapshot) (inquiries : List (Inquiry ρ)) :
    service.answerAll inquiries { state with index } = service.answerAll inquiries state := by
  induction inquiries generalizing state with
  | nil => rfl
  | cons inquiry inquiries ih =>
      have hstays : (service.answer inquiry state).2.index.snapshot = some snapshot := by
        rw [index_answer, hinstalled]
      simp only [answerAll, answer_withIndex hinstalled hsame]
      rw [ih hstays]

/-! ## Reindexing -/

theorem build_of_error {disk : Disk} {failure : Failure} (hready : state.index.isReady = true)
    (hfailed : (service.build disk state).1 = .error failure) :
    ∃ index, service.build disk state = (.error failure, { state with index }) ∧
      index.snapshot = state.index.snapshot ∧ index.isReady = true := by
  have hparts : state.index.isSettled = true ∧ state.index.snapshot.isSome = true := by
    simpa [IndexState.isReady] using hready
  unfold build at hfailed ⊢
  rcases state.index.build_exits service.settings disk with
    ⟨-, hbuilt⟩ | ⟨repository, -, ⟨sources, -, hbuilt⟩ | ⟨cause, -, hbuilt⟩⟩
  · rw [hbuilt] at hfailed ⊢
    cases hfailed
    exact ⟨state.index, rfl, rfl, hready⟩
  · rw [hbuilt] at hfailed
    cases hfailed
  · rw [hbuilt] at hfailed ⊢
    cases hfailed
    exact ⟨_, rfl, rfl, hparts.2⟩

theorem build_of_ok {disk : Disk} (hbuilt : (service.build disk state).1 = .ok snapshot) :
    service.build disk state = (.ok snapshot, { state with index := .install snapshot }) ∧
      service.settings.Reads disk snapshot := by
  unfold build at hbuilt ⊢
  rcases state.index.build_cases service.settings disk with
    ⟨read, hreads, hindex⟩ | ⟨-, failure, after, -, hindex⟩
  · rw [hindex] at hbuilt ⊢
    cases hbuilt
    exact ⟨rfl, hreads⟩
  · rw [hindex] at hbuilt
    cases hbuilt

/-- A reindex of a ready service that fails changes nothing that can be asked for: the snapshot
and both caches are as before, the index is ready, and all that is asked later is answered as it
would have been.  A reindex that succeeds has installed what the disk holds, and nothing is
remembered. -/
theorem reindex_all_or_nothing (disk : Disk) (memory : ServiceMemory)
    (hready : memory.state.index.isReady = true) :
    let ran := service.reindexMemory disk memory
    (∀ failure, ran.1 = .error failure →
      ran.2.state.index.snapshot = memory.state.index.snapshot ∧
      ran.2.state.index.isReady = true ∧
      ran.2.state.cache = memory.state.cache ∧ ran.2.keys = memory.keys ∧
      ∀ inquiries : List (Inquiry ρ),
        service.answerAll inquiries ran.2.state = service.answerAll inquiries memory.state) ∧
    (∀ snapshot, ran.1 = .ok snapshot →
      service.settings.Reads disk snapshot ∧ ran.2.state.index = .install snapshot ∧
      ran.2.state.cache.size = 0 ∧ ran.2.keys.size = 0) := by
  intro ran
  cases hbuild : (service.build disk memory.state).1 with
  | error failure =>
      obtain ⟨index, hbuilt, hkept, hstill⟩ := build_of_error hready hbuild
      have hran : ran = (.error failure, ⟨{ memory.state with index }, memory.keys⟩) := by
        simp only [ran, reindexMemory, hbuilt]
      simp only [IndexState.isReady, Bool.and_eq_true] at hready
      obtain ⟨snapshot, hinstalled⟩ := Option.isSome_iff_exists.mp hready.2
      rw [hran]
      refine ⟨fun _ _ => ⟨hkept, hstill, rfl, rfl, fun inquiries => ?_⟩, nofun⟩
      exact answerAll_withIndex hinstalled (hkept.trans hinstalled) inquiries
  | ok snapshot =>
      obtain ⟨hbuilt, hreads⟩ := build_of_ok hbuild
      have hran :
          ran = (.ok snapshot, ⟨⟨.install snapshot, memory.state.cache.clear⟩, .empty⟩) := by
        simp only [ran, reindexMemory, hbuilt, ServiceMemory.clearCaches]
      rw [hran]
      refine ⟨nofun, fun other hok => ?_⟩
      cases hok
      exact ⟨hreads, rfl, CallerCache.size_clear _, Std.HashMap.size_empty⟩

/-- A ready service that has searched, and remembers a method without callers and its key. -/
def searchedMemory : ServiceMemory :=
  ⟨⟨.install (.ofFiles (filesOf calledAndCaller) default),
    CallerCache.put {} (methodIn calledAndCaller).key []⟩,
    (KeyCache.empty.keyOf (methodIn calledAndCaller)).2⟩

theorem reindex_searchedMemory {disk : Disk} {failure : Failure}
    (hsources : overRepo.settings.sourcesOf disk "repo" = .error failure) :
    (overRepo.reindexMemory disk searchedMemory).1 = .error (.buildFailed failure) := by
  have hrepository : overRepo.settings.repository? = some "repo" := rfl
  simp only [reindexMemory, build, IndexState.build, hrepository, hsources]

/-- Without its directory the repository cannot be indexed again, and what was remembered stays;
with the directory it is forgotten. -/
theorem reindex_without_directory :
    (∃ failure, (overRepo.reindexMemory {} searchedMemory).1 = .error failure) ∧
      (overRepo.reindexMemory {} searchedMemory).2.state.index.isReady = true ∧
      (overRepo.reindexMemory {} searchedMemory).2.state.cache.size = 1 ∧
      overRepo.answerAll [.named Watcher.idle () "A#f"]
          (overRepo.reindexMemory {} searchedMemory).2.state =
        overRepo.answerAll [.named Watcher.idle () "A#f"] searchedMemory.state ∧
      (overRepo.reindexMemory (diskOf called) searchedMemory).2.state.cache.size = 0 := by
  have hmissing : (overRepo.settings.sourcesOf {} "repo").toOption = none := by
    simp only [IndexSettings.sourcesOf, ScanRules.scanAt, Disk.sourceText?, Disk.isWithin,
      Disk.read, Disk.lookup, Disk.locate_eq]
    decide +kernel
  have hfails : ∃ failure, (overRepo.reindexMemory {} searchedMemory).1 = .error failure := by
    cases hsources : overRepo.settings.sourcesOf {} "repo" with
    | error failure => exact ⟨_, reindex_searchedMemory hsources⟩
    | ok sources =>
        rw [hsources] at hmissing
        cases hmissing
  have hreturns : ∃ snapshot,
      (overRepo.reindexMemory (diskOf called) searchedMemory).1 = .ok snapshot := by
    rcases searchedMemory.state.index.build_cases overRepo.settings (diskOf called) with
      ⟨snapshot, -, hbuilt⟩ | ⟨hnone, -⟩
    · exact ⟨snapshot, by simp only [reindexMemory, build, hbuilt]⟩
    · exact absurd reads_called (hnone _)
  obtain ⟨failure, hfailed⟩ := hfails
  obtain ⟨snapshot, hreturned⟩ := hreturns
  obtain ⟨-, hready, hcache, -, hanswers⟩ :=
    (overRepo.reindex_all_or_nothing {} searchedMemory rfl).1 failure hfailed
  obtain ⟨-, -, hempty, -⟩ :=
    (overRepo.reindex_all_or_nothing (ρ := Unit) (diskOf called) searchedMemory rfl).2 snapshot
      hreturned
  refine ⟨⟨failure, hfailed⟩, hready, ?_, hanswers _, hempty⟩
  rw [hcache]
  simp [searchedMemory, CallerCache.size, CallerCache.put, Std.HashMap.size_insert]

end Service

end EntryPoints

import EntryPoints.Proofs.SearchExactness

/-!
# Transparency of the caller cache

The searches of a session share one caller cache.  Some of them are completed, some
are cancelled at a checkpoint, some are broken off by their observer, and the cache
is cleared or trimmed in between.  A completed search returns what it would have
returned on a cache of its own.

The argument is one invariant: after every request the cache holds complete callers
only.  A search on such a cache is either stopped or returns the result that the
record of answers determines, and this result does not mention a cache.
-/

namespace EntryPoints

variable {σ ρ : Type} {answers : Answers} {names : List String}

/-- What is asked of a session; a search has its own watcher. -/
inductive Request (ρ : Type) where
  | search (watcher : Watcher ρ) (watch : ρ) (start : Method)
  | statement (watcher : Watcher ρ) (watch : ρ) (statementId : String)
  | clear

inductive Reply where
  | search (outcome : Except Failure SearchResult)
  | statement (outcome : Except Failure (List StatementCaller))
  | clear

structure Session (σ : Type) where
  base : σ
  cache : CallerCache

namespace Finder

variable (finder : Finder) (base : KnowledgeBase σ)

def serve : Request ρ → Session σ → Reply × Session σ
  | .search watcher watch start, session =>
    let ran := finder.search (.ok base) watcher start ⟨session.base, watch, session.cache⟩
    (.search ran.1, ⟨ran.2.base, ran.2.cache⟩)
  | .statement watcher watch statementId, session =>
    let ran := finder.searchStatement (.ok base) watcher statementId
      ⟨session.base, watch, session.cache⟩
    (.statement ran.1, ⟨ran.2.base, ran.2.cache⟩)
  | .clear, session => (.clear, { session with cache := session.cache.clear })

def serveAll : List (Request ρ) → Session σ → List (Request ρ × Reply)
  | [], _ => []
  | request :: requests, session =>
    let served := finder.serve base request session
    (request, served.1) :: serveAll requests served.2

/-- What is left of a session after some requests. -/
def sessionAfter (requests : List (Request ρ)) (session : Session σ) : Session σ :=
  requests.foldl (fun session request => (finder.serve base request session).2) session

end Finder

def Request.starts (answers : Answers) : Request ρ → List Method
  | .search _ _ start => [start]
  | .statement _ _ statementId => answers.mapperMethods statementId
  | .clear => []

/-- The methods that the searches of a session may meet. -/
def Request.Met (answers : Answers) (names : List String) (requests : List (Request ρ))
    (m : Method) : Prop :=
  ∃ request ∈ requests, ∃ start ∈ request.starts answers, answers.Reaches names start m

/-- A completed search has returned the result that the record determines. -/
def Reply.Determined (answers : Answers) (finder : Finder) : Request ρ → Reply → Prop
  | .search _ _ start, .search (.ok result) =>
    result = answers.searchResult finder.functional start finder.maxDepth
  | .statement _ _ statementId, .statement (.ok callers) =>
    callers = answers.statementCallers finder statementId
  | _, _ => True

section Session

variable {finder : Finder} {base : KnowledgeBase σ} {known : Method → Prop}

/-- A search whose watcher may stop it anywhere, over a knowledge base that may ask it to
stop anywhere. -/
theorem Finder.proceeds_of_follows (finder : Finder) (watcher : Watcher ρ)
    (hbase : base.Follows answers) (happart : answers.ToldApart finder.functional known)
    (hclosed : ∀ m, known m → ∀ above ∈ answers.next finder.functional m, known above) :
    Search.Proceeds
      (finder.setting base answers.productionScope (Run.checkpoint base watcher)) watcher
      answers finder.functional known (fun failure => failure.isCancellation = true)
      (fun _ => True) where
  follows := finder.setting_follows hbase _
  apart := happart
  closed := hclosed
  checkpoint := Run.gives_checkpoint (fun _ _ => rfl) (fun _ _ => rfl)
  cancels _ hcancel := hcancel
  stops _ _ := trivial
  reports _ _ _ _ := trivial

theorem Request.met_closed (requests : List (Request ρ)) :
    ∀ m, Request.Met answers names requests m →
      ∀ above ∈ answers.next names m, Request.Met answers names requests above := by
  rintro m ⟨request, hrequest, start, hstart, hm⟩ above habove
  exact ⟨request, hrequest, start, hstart, hm.next habove⟩

theorem Reply.determined_search (watcher : Watcher ρ) (watch : ρ) {start : Method}
    {outcome : Except Failure SearchResult}
    (houtcome : AnswerOrStop (fun _ => True)
      (· = answers.searchResult finder.functional start finder.maxDepth) outcome) :
    Reply.Determined answers finder (.search watcher watch start) (.search outcome) := by
  cases outcome with
  | ok result => exact houtcome
  | error failure => trivial

theorem Reply.determined_statement (watcher : Watcher ρ) (watch : ρ) {statementId : String}
    {outcome : Except Failure (List StatementCaller)}
    (houtcome : AnswerOrStop (fun _ => True)
      (· = answers.statementCallers finder statementId) outcome) :
    Reply.Determined answers finder (.statement watcher watch statementId)
      (.statement outcome) := by
  cases outcome with
  | ok callers => exact houtcome
  | error failure => trivial

theorem Finder.serve_complete (hbase : base.Follows answers)
    (happart : answers.ToldApart finder.functional known)
    (hclosed : ∀ m, known m → ∀ above ∈ answers.next finder.functional m, known above)
    {request : Request ρ} (hstarts : ∀ start ∈ request.starts answers, known start)
    {session : Session σ} (hcomplete : session.cache.Complete answers known) :
    (finder.serve base request session).2.cache.Complete answers known ∧
      Reply.Determined answers finder request (finder.serve base request session).1 := by
  cases request with
  | clear => exact ⟨CallerCache.complete_of_empty (by simp [serve]), trivial⟩
  | search watcher watch start =>
      have hproceeds := finder.proceeds_of_follows watcher hbase happart hclosed
      have hstart : known start := hstarts start (List.mem_singleton_self start)
      obtain ⟨hsound, hresult⟩ := (Finder.gives_search hbase hproceeds hstart).apply
        (s := ⟨session.base, watch, session.cache⟩) hcomplete
      simp only [serve]
      generalize finder.search (.ok base) watcher start _ = ran
        at hsound hresult ⊢
      exact ⟨hsound, Reply.determined_search watcher watch hresult⟩
  | statement watcher watch statementId =>
      have hproceeds := finder.proceeds_of_follows watcher hbase happart hclosed
      have hmethods : ∀ start ∈ answers.mapperMethods statementId, known start := hstarts
      obtain ⟨hsound, hresult⟩ := (Finder.gives_searchStatement hbase hproceeds hmethods).apply
        (s := ⟨session.base, watch, session.cache⟩) hcomplete
      simp only [serve]
      generalize finder.searchStatement (.ok base) watcher statementId _ = ran
        at hsound hresult ⊢
      exact ⟨hsound, Reply.determined_statement watcher watch hresult⟩

theorem Finder.serveAll_determined (hbase : base.Follows answers)
    (happart : answers.ToldApart finder.functional known)
    (hclosed : ∀ m, known m → ∀ above ∈ answers.next finder.functional m, known above)
    (requests : List (Request ρ))
    (hstarts : ∀ request ∈ requests, ∀ start ∈ request.starts answers, known start)
    (session : Session σ) (hcomplete : session.cache.Complete answers known) :
    ∀ served ∈ finder.serveAll base requests session,
      Reply.Determined answers finder served.1 served.2 := by
  induction requests generalizing session with
  | nil => simp [serveAll]
  | cons request requests ih =>
      obtain ⟨hsound, hreply⟩ := Finder.serve_complete hbase happart hclosed
        (hstarts request List.mem_cons_self) hcomplete
      intro served hserved
      rcases List.mem_cons.mp hserved with rfl | hserved
      · exact hreply
      · exact ih (fun other hother => hstarts other (List.mem_cons_of_mem request hother)) _
          hsound served hserved

theorem Finder.sessionAfter_complete (hbase : base.Follows answers)
    (happart : answers.ToldApart finder.functional known)
    (hclosed : ∀ m, known m → ∀ above ∈ answers.next finder.functional m, known above)
    (requests : List (Request ρ))
    (hstarts : ∀ request ∈ requests, ∀ start ∈ request.starts answers, known start)
    {session : Session σ} (hcomplete : session.cache.Complete answers known) :
    (finder.sessionAfter base requests session).cache.Complete answers known := by
  induction requests generalizing session with
  | nil => exact hcomplete
  | cons request requests ih =>
      have hserved := (Finder.serve_complete hbase happart hclosed
        (hstarts request List.mem_cons_self) hcomplete).1
      exact ih (fun other hother => hstarts other (List.mem_cons_of_mem request hother)) hserved

theorem Finder.mem_of_mem_serveAll {requests : List (Request ρ)} {session : Session σ}
    {served : Request ρ × Reply} (hserved : served ∈ finder.serveAll base requests session) :
    served.1 ∈ requests := by
  induction requests generalizing session with
  | nil => simp [serveAll] at hserved
  | cons request requests ih =>
      rcases List.mem_cons.mp hserved with rfl | hserved
      · exact List.mem_cons_self
      · exact List.mem_cons_of_mem request (ih hserved)

end Session

/-! ## Searches on a cache of their own -/

/-- The same knowledge base, but it never asks a search to stop. -/
def KnowledgeBase.patient (base : KnowledgeBase σ) : KnowledgeBase σ :=
  { base with cancellationRequested := pure false }

theorem KnowledgeBase.Follows.patient {base : KnowledgeBase σ} (hbase : base.Follows answers) :
    base.patient.Follows answers :=
  { hbase with }

theorem KnowledgeBase.undisturbed_patient (base : KnowledgeBase σ) :
    Undisturbed base.patient (Watcher.idle : Watcher ρ) :=
  undisturbed_idle fun _ => rfl

/-- However a session has gone so far, a completed search returns what it returns on an
empty cache: when nothing disturbs it there, and whenever it is completed there. -/
theorem session_transparent (finder : Finder) {base : KnowledgeBase σ}
    {requests : List (Request ρ)} {session : Session σ} (hbase : base.Follows answers)
    (happart : answers.ToldApart finder.functional
      (Request.Met answers finder.functional requests))
    (hnew : ∀ key, session.cache.get? key = none) :
    ∀ fresh : RunState σ ρ, (∀ key, fresh.cache.get? key = none) →
      (∀ watcher watch start result,
        (Request.search watcher watch start, Reply.search (.ok result)) ∈
            finder.serveAll base requests session →
          (finder.search (.ok base.patient) Watcher.idle start fresh).1 = .ok result ∧
          ∀ (other : Watcher ρ) alone,
            (finder.search (.ok base) other start fresh).1 = .ok alone → alone = result) ∧
      (∀ watcher watch statementId callers,
        (Request.statement watcher watch statementId, Reply.statement (.ok callers)) ∈
            finder.serveAll base requests session →
          (finder.searchStatement (.ok base.patient) Watcher.idle statementId fresh).1 =
            .ok callers ∧
          ∀ (other : Watcher ρ) alone,
            (finder.searchStatement (.ok base) other statementId fresh).1 = .ok alone →
              alone = callers) := by
  intro fresh hfresh
  have hclosed : ∀ m, Request.Met answers finder.functional requests m →
      ∀ above ∈ answers.next finder.functional m,
        Request.Met answers finder.functional requests above := Request.met_closed requests
  have hcomplete : fresh.cache.Complete answers
      (Request.Met answers finder.functional requests) := CallerCache.complete_of_empty hfresh
  have hserved := Finder.serveAll_determined hbase happart hclosed requests
    (fun request hrequest start hstart =>
      ⟨request, hrequest, start, hstart, Answers.reaches_start start⟩)
    session (CallerCache.complete_of_empty hnew)
  have hpatient := (base.undisturbed_patient (ρ := ρ)).proceeds finder hbase.patient happart
    hclosed
  constructor
  · intro watcher watch start result hmem
    have hdetermined : result = answers.searchResult finder.functional start finder.maxDepth :=
      hserved _ hmem
    rw [hdetermined]
    have hstart : Request.Met answers finder.functional requests start :=
      ⟨_, Finder.mem_of_mem_serveAll hmem, start, List.mem_singleton_self start,
        Answers.reaches_start start⟩
    refine ⟨(Finder.gives_search hbase.patient hpatient hstart).eq_ok hcomplete, ?_⟩
    intro other alone halone
    have hresult := ((Finder.gives_search hbase
      (finder.proceeds_of_follows other hbase happart hclosed) hstart).apply hcomplete).2
    rw [halone] at hresult
    exact hresult
  · intro watcher watch statementId callers hmem
    have hdetermined : callers = answers.statementCallers finder statementId :=
      hserved _ hmem
    rw [hdetermined]
    have hstarts : ∀ start ∈ answers.mapperMethods statementId,
        Request.Met answers finder.functional requests start :=
      fun start hstart => ⟨_, Finder.mem_of_mem_serveAll hmem, start, hstart,
        Answers.reaches_start start⟩
    refine ⟨(Finder.gives_searchStatement hbase.patient hpatient hstarts).eq_ok hcomplete, ?_⟩
    intro other alone halone
    have hresult := ((Finder.gives_searchStatement hbase
      (finder.proceeds_of_follows other hbase happart hclosed) hstarts).apply hcomplete).2
    rw [halone] at hresult
    exact hresult

/-- Asks a search to stop at the checkpoint after so many others. -/
def Watcher.countdown : Watcher Nat where
  isCancelled := fun left => (left == 0, left - 1)
  report _ := pure none

def cancelledThenRepeated : List (Request Nat) :=
  [.search .countdown 3 (letterMethod "a"), .search .idle 0 (letterMethod "a")]

theorem toldApart_cancelledThenRepeated :
    diamond.ToldApart [] (Request.Met diamond [] cancelledThenRepeated) := by
  refine toldApart_diamond.mono ?_
  rintro m ⟨request, hrequest, start, hstart, hm⟩
  simp only [cancelledThenRepeated, List.mem_cons, List.not_mem_nil, or_false] at hrequest
  rcases hrequest with rfl | rfl
  · rw [show start = letterMethod "a" from List.mem_singleton.mp hstart] at hm
    exact hm
  · rw [show start = letterMethod "a" from List.mem_singleton.mp hstart] at hm
    exact hm

/-- A search of the diamond after one that was asked to stop at its fourth checkpoint. -/
theorem session_transparent_after_cancellation :
    ∃ result,
      (Request.search Watcher.idle 0 (letterMethod "a"), Reply.search (.ok result)) ∈
        Finder.serveAll { maxDepth := 2, functional := [] } diamond.knowledgeBase
          cancelledThenRepeated (⟨(), {}⟩ : Session Unit) ∧
      (Finder.search { maxDepth := 2, functional := [] }
        (.ok (diamond.knowledgeBase : KnowledgeBase Unit).patient) Watcher.idle
        (letterMethod "a") (⟨(), 0, {}⟩ : RunState Unit Nat)).1 = .ok result := by
  have hclosed : ∀ m, Request.Met diamond [] cancelledThenRepeated m →
      ∀ above ∈ diamond.next [] m, Request.Met diamond [] cancelledThenRepeated above :=
    Request.met_closed cancelledThenRepeated
  have hmet : Request.Met diamond [] cancelledThenRepeated (letterMethod "a") :=
    ⟨_, List.mem_cons_self, _, List.mem_singleton_self _, Answers.reaches_start _⟩
  have hcancelled : (Finder.serve { maxDepth := 2, functional := [] } diamond.knowledgeBase
      (.search .countdown 3 (letterMethod "a")) (⟨(), {}⟩ : Session Unit)).2.cache.Complete
        diamond (Request.Met diamond [] cancelledThenRepeated) := by
    refine (Finder.serve_complete Answers.follows_knowledgeBase
      toldApart_cancelledThenRepeated hclosed ?_ (CallerCache.complete_of_empty CallerCache.get?_new)).1
    intro start hstart
    rw [show start = letterMethod "a" from List.mem_singleton.mp hstart]
    exact hmet
  have hrepeated := (Finder.gives_search Answers.follows_knowledgeBase
    ((undisturbed_idle fun _ => rfl).proceeds { maxDepth := 2, functional := [] }
      Answers.follows_knowledgeBase toldApart_cancelledThenRepeated hclosed) hmet).eq_ok
    (s := (⟨(), 0, _⟩ : RunState Unit Nat)) hcancelled
  have hserved : (Request.search Watcher.idle 0 (letterMethod "a"),
      Reply.search (.ok (diamond.searchResult [] (letterMethod "a") 2))) ∈
        Finder.serveAll { maxDepth := 2, functional := [] } diamond.knowledgeBase
          cancelledThenRepeated (⟨(), {}⟩ : Session Unit) := by
    refine List.mem_cons_of_mem _ (List.mem_cons.mpr (.inl ?_))
    exact congrArg (Prod.mk _) (congrArg Reply.search hrepeated.symm)
  refine ⟨_, hserved, ?_⟩
  exact ((session_transparent { maxDepth := 2, functional := [] }
    Answers.follows_knowledgeBase toldApart_cancelledThenRepeated CallerCache.get?_new
    (⟨(), 0, {}⟩ : RunState Unit Nat) CallerCache.get?_new).1 _ _ _ _ hserved).1

end EntryPoints

import EntryPoints.Proofs.SessionTransparency

/-!
# Statements are unions of searches

A statement stands for every method of its name in its mapper, and its answer has the top callers
of all of them.  One of these methods may call another, and the searches share the cache that they
trim and fill; each of them hides its own start only.  None of this shows in the answer.  Its keys
are those that searches from these methods find on caches of their own, whatever was asked of the
session before.

A key occurs once, since only the first of its methods is kept.  Which method this is depends on
the order in which the searches and their results are gone through.  Which keys there are does not.
-/

namespace EntryPoints

variable {σ ρ : Type} {answers : Answers} {finder : Finder} {base : KnowledgeBase σ}

/-! ## Statement ids -/

/-- A statement id names a mapper and one of its methods. -/
theorem Answers.mapperMethods_append {answers : Answers} {mapper name : String}
    (hmapper : mapper ≠ "") (hname : name ≠ "") (hdot : '.' ∉ name.toList) :
    answers.mapperMethods (mapper ++ "." ++ name) = answers.methodsNamed mapper name := by
  have htext : (mapper ++ "." ++ name).toList = mapper.toList ++ '.' :: name.toList := by simp
  have hcut : String.ofList (Text.beforeLast '.' (mapper ++ "." ++ name).toList) = mapper ∧
      TypeText.lastSegment (mapper ++ "." ++ name) = name := by
    rw [TypeText.lastSegment, htext, Text.beforeLast_append hdot, Text.afterLast_append hdot]
    exact ⟨String.ofList_toList, String.ofList_toList⟩
  unfold mapperMethods
  rw [hcut.1, hcut.2]
  simp only [hmapper, hname, or_self, if_false]

/-! ## Keys of a union -/

theorem MethodSet.mem_keys_ofList (ms : List Method) (key : String) :
    key ∈ ((ms.foldl MethodSet.insert .empty).toList).map Method.key ↔ key ∈ ms.map Method.key := by
  rw [toList_foldl_insert_empty, mem_keys_firstOfKeys]

/-- Whatever order methods are added in, the same keys are there in the end. -/
theorem MethodSet.keys_flatMap_perm {methods others : List Method} {f g : Method → List Method}
    (hmethods : methods.Perm others) (hresults : ∀ m ∈ methods, (f m).Perm (g m)) :
    ((((methods.flatMap f).foldl MethodSet.insert .empty).toList).map Method.key).Perm
      ((((others.flatMap g).foldl MethodSet.insert .empty).toList).map Method.key) := by
  refine (List.perm_ext_iff_of_nodup (nodup_keys _) (nodup_keys _)).mpr fun key => ?_
  rw [mem_keys_ofList, mem_keys_ofList]
  simp only [List.map_flatMap, List.mem_flatMap]
  constructor
  · rintro ⟨m, hm, hkey⟩
    exact ⟨m, hmethods.mem_iff.mp hm, ((hresults m hm).map _).mem_iff.mp hkey⟩
  · rintro ⟨m, hm, hkey⟩
    have hm := hmethods.mem_iff.mpr hm
    exact ⟨m, hm, ((hresults m hm).map _).mem_iff.mpr hkey⟩

namespace Answers

variable (answers) (finder)

/-- Adding the results one after the other is adding all of their methods in turn. -/
theorem gatherTopCallers_eq (methods : List Method) (callers : MethodSet) :
    answers.gatherTopCallers finder methods callers =
      (methods.flatMap fun m => (answers.searchResult finder.functional m
        finder.maxDepth).topCallers).foldl MethodSet.insert callers := by
  induction methods generalizing callers with
  | nil => rfl
  | cons m rest ih =>
      rw [gatherTopCallers, ih, List.flatMap_cons, List.foldl_append]

theorem methods_statementCallers (statementId : String) :
    (answers.statementCallers finder statementId).map StatementCaller.method =
      (((answers.mapperMethods statementId).flatMap fun m => (answers.searchResult
        finder.functional m finder.maxDepth).topCallers).foldl MethodSet.insert .empty).toList := by
  rw [statementCallers, gatherTopCallers_eq, List.map_map]
  exact List.map_id _

end Answers

/-! ## The union -/

/-- Whatever was asked before, a search behind a statement finds the keys that searches from its
methods find on an empty cache, each of them once; and adding what these searches find in any order
of the methods and of each result gives the same keys. -/
theorem statement_union (finder : Finder) {requests : List (Request ρ)} {watcher : Watcher ρ}
    {watch : ρ} {mapper name : String} (session : Session σ) (hbase : base.Follows answers)
    (hmapper : mapper ≠ "") (hname : name ≠ "") (hdot : '.' ∉ name.toList)
    (happart : answers.ToldApart finder.functional (Request.Met answers finder.functional
      (.statement watcher watch (mapper ++ "." ++ name) :: requests)))
    (hnew : ∀ key, session.cache.get? key = none) :
    (Undisturbed base watcher → ∃ callers,
      (finder.serve base (.statement watcher watch (mapper ++ "." ++ name))
        (finder.sessionAfter base requests session)).1 = .statement (.ok callers)) ∧
    ∀ s : RunState σ ρ, (∀ key, s.cache.get? key = none) →
      ∃ fresh : Method → SearchResult,
        (∀ m ∈ answers.methodsNamed mapper name,
          (finder.search (.ok base.patient) Watcher.idle m s).1 = .ok (fresh m)) ∧
        ∀ callers, (finder.serve base (.statement watcher watch (mapper ++ "." ++ name))
            (finder.sessionAfter base requests session)).1 = .statement (.ok callers) →
          (callers.map fun caller => caller.method.key).Nodup ∧
          (∀ key, key ∈ (callers.map fun caller => caller.method.key) ↔
            ∃ m ∈ answers.methodsNamed mapper name, key ∈ (fresh m).topCallers.map Method.key) ∧
          ∀ (methods : List Method) (arranged : Method → List Method),
            methods.Perm (answers.methodsNamed mapper name) →
            (∀ m ∈ methods, (arranged m).Perm (fresh m).topCallers) →
            (((methods.flatMap arranged).foldl MethodSet.insert .empty).toList.map
              Method.key).Perm (callers.map fun caller => caller.method.key) := by
  have hmethods := answers.mapperMethods_append hmapper hname hdot
  set statement : Request ρ := .statement watcher watch (mapper ++ "." ++ name)
  have hclosed : ∀ m, Request.Met answers finder.functional (statement :: requests) m →
      ∀ above ∈ answers.next finder.functional m,
        Request.Met answers finder.functional (statement :: requests) above :=
    Request.met_closed _
  have hstarts : ∀ request ∈ statement :: requests, ∀ start ∈ request.starts answers,
      Request.Met answers finder.functional (statement :: requests) start :=
    fun request hrequest start hstart =>
      ⟨request, hrequest, start, hstart, Answers.reaches_start start⟩
  have hsession := Finder.sessionAfter_complete hbase happart hclosed requests
    (fun request hrequest => hstarts request (List.mem_cons_of_mem _ hrequest))
    (CallerCache.complete_of_empty hnew)
  constructor
  · intro hundisturbed
    have hproceeds := hundisturbed.proceeds finder hbase happart hclosed
    have hsearch := (Finder.gives_searchStatement hbase hproceeds
      (hstarts statement List.mem_cons_self)).eq_ok
      (s := ⟨(finder.sessionAfter base requests session).base, watch,
        (finder.sessionAfter base requests session).cache⟩) hsession
    exact ⟨_, congrArg Reply.statement hsearch⟩
  intro s hs
  refine ⟨fun m => answers.searchResult finder.functional m finder.maxDepth, ?_, ?_⟩
  · intro m hm
    have hpatient := (base.undisturbed_patient (ρ := ρ)).proceeds finder hbase.patient happart
      hclosed
    have hmet := hstarts statement List.mem_cons_self m (by rwa [← hmethods] at hm)
    exact (Finder.gives_search hbase.patient hpatient hmet).eq_ok
      (CallerCache.complete_of_empty hs)
  intro callers hserved
  have hcallers : callers = answers.statementCallers finder (mapper ++ "." ++ name) := by
    have hdetermined := (Finder.serve_complete hbase happart hclosed
      (hstarts statement List.mem_cons_self) hsession).2
    rwa [hserved] at hdetermined
  have hkeys : (callers.map fun caller => caller.method.key) =
      ((((answers.methodsNamed mapper name).flatMap fun m => (answers.searchResult
        finder.functional m finder.maxDepth).topCallers).foldl MethodSet.insert
          .empty).toList).map Method.key := by
    rw [hcallers, ← hmethods, ← answers.methods_statementCallers finder, List.map_map]
    rfl
  rw [hkeys]
  refine ⟨MethodSet.nodup_keys _, fun key => ?_, fun methods arranged hmethods harranged =>
    MethodSet.keys_flatMap_perm hmethods harranged⟩
  rw [MethodSet.mem_keys_ofList]
  simp only [List.map_flatMap, List.mem_flatMap]

/-! ## Two methods behind a statement -/

/-- The diamond as a mapper, with `a` and `b` as the methods of one statement. -/
def mapperDiamond : Answers :=
  { diamond with methodsNamed := fun _ _ => [letterMethod "a", letterMethod "b"] }

theorem mem_diamondMethods_of_met {requests : List (Request Nat)}
    (hstarts : ∀ request ∈ requests, ∀ start ∈ request.starts mapperDiamond,
      start = letterMethod "a" ∨ start = letterMethod "b") {m : Method}
    (hm : Request.Met mapperDiamond [] requests m) : m ∈ diamondMethods := by
  obtain ⟨request, hrequest, start, hstart, hm⟩ := hm
  have ha : diamond.Reaches [] (letterMethod "a") (letterMethod "a") := Answers.reaches_start _
  have hb : letterMethod "b" ∈ diamond.next [] (letterMethod "a") := List.mem_cons_self
  have hreached : diamond.Reaches [] (letterMethod "a") start := by
    rcases hstarts request hrequest start hstart with rfl | rfl
    · exact ha
    · exact ha.next hb
  refine mem_diamondMethods_of_reaches (hm.induction hreached ?_)
  exact fun _ hn _ habove => hn.next habove

def cancelledThenStatement : List (Request Nat) :=
  [.statement .idle 0 "p.C.x", .search .countdown 3 (letterMethod "a")]

theorem toldApart_cancelledThenStatement :
    mapperDiamond.ToldApart [] (Request.Met mapperDiamond [] cancelledThenStatement) := by
  have hstarts : ∀ request ∈ cancelledThenStatement, ∀ start ∈ request.starts mapperDiamond,
      start = letterMethod "a" ∨ start = letterMethod "b" := by
    intro request hrequest start hstart
    simp only [cancelledThenStatement, List.mem_cons, List.not_mem_nil, or_false] at hrequest
    rcases hrequest with rfl | rfl
    · have hmethods : mapperDiamond.mapperMethods ("p.C" ++ "." ++ "x") =
          [letterMethod "a", letterMethod "b"] :=
        Answers.mapperMethods_append (by decide) (by decide) (by decide)
      have hstart : start ∈ mapperDiamond.mapperMethods ("p.C" ++ "." ++ "x") := hstart
      rw [hmethods] at hstart
      simpa using hstart
    · exact .inl (List.mem_singleton.mp hstart)
  refine Answers.ToldApart.of_key_injective fun m n hm hn hkey => ?_
  have hkeys : (diamondMethods.map Method.key).Nodup := by decide
  exact List.inj_on_of_nodup_map hkeys (mem_diamondMethods_of_met hstarts hm)
    (mem_diamondMethods_of_met hstarts hn) hkey

/-- After a search that was cancelled, the statement finds `d` from both of its methods, and has
it once. -/
theorem statement_union_diamond :
    ∃ callers, (Finder.serve { maxDepth := 2, functional := [] } mapperDiamond.knowledgeBase
        (.statement Watcher.idle 0 "p.C.x")
        (Finder.sessionAfter { maxDepth := 2, functional := [] } mapperDiamond.knowledgeBase
          [.search .countdown 3 (letterMethod "a")] (⟨(), {}⟩ : Session Unit))).1 =
          .statement (.ok callers) ∧
      (callers.map fun caller => caller.method.key).Nodup ∧
      (letterMethod "d").key ∈ callers.map fun caller => caller.method.key := by
  have hfollows : (mapperDiamond.knowledgeBase : KnowledgeBase Unit).Follows mapperDiamond :=
    Answers.follows_knowledgeBase
  obtain ⟨hends, hunion⟩ := statement_union { maxDepth := 2, functional := [] } ⟨(), {}⟩ hfollows
    (show "p.C" ≠ "" by decide) (show "x" ≠ "" by decide) (by decide)
    toldApart_cancelledThenStatement CallerCache.get?_new
  obtain ⟨callers, hcallers⟩ := hends (undisturbed_idle fun _ => rfl)
  obtain ⟨fresh, hfresh, hkeys⟩ := hunion ⟨(), 0, {}⟩ CallerCache.get?_new
  obtain ⟨hnodup, hmem, -⟩ := hkeys callers hcallers
  refine ⟨callers, hcallers, hnodup, (hmem _).mpr ⟨letterMethod "a", List.mem_cons_self, ?_⟩⟩
  have happart : mapperDiamond.ToldApart [] (mapperDiamond.Reaches [] (letterMethod "a")) :=
    toldApart_cancelledThenStatement.mono fun m hm =>
      ⟨.search .countdown 3 (letterMethod "a"), by simp [cancelledThenStatement], _,
        List.mem_singleton_self _, hm⟩
  have hsearch := hfresh (letterMethod "a") List.mem_cons_self
  rw [(KnowledgeBase.undisturbed_patient _).search_eq _ hfollows.patient happart
    (CallerCache.complete_of_empty CallerCache.get?_new), Except.ok.injEq] at hsearch
  rw [← hsearch]
  refine (Answers.mem_topCallers_searchResult happart 2 _).mpr
    ⟨by decide, letterMethod "d", ⟨2, by decide, ?_⟩, rfl, rfl⟩
  have hb : letterMethod "b" ∈ mapperDiamond.next [] (letterMethod "a") := List.mem_cons_self
  have hd : letterMethod "d" ∈ mapperDiamond.next [] (letterMethod "b") := List.mem_cons_self
  exact .step (.step .start hb) hd

end EntryPoints

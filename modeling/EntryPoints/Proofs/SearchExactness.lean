import EntryPoints.Proofs.SearchReplay

/-!
# Exactness of the search

A search that starts on an empty cache finds exactly the top callers within its
depth limit.  The statement speaks of the callers and the substitutes that the
parts of the search themselves return, so that the graph is the one that the
search walks.  Cycles, diamonds and chains of substitutes need no extra
condition, since the depth of a method is the length of its shortest way up.
-/

namespace EntryPoints

variable {σ ρ : Type} {answers : Answers} {base : KnowledgeBase σ} {watcher : Watcher ρ}

theorem nodup_toList_visited (visited : Std.HashSet String) : visited.toList.Nodup := by
  refine Std.HashSet.distinct_toList.imp ?_
  intro a b hab
  simpa using hab

theorem encard_eq_size_of_mem_iff {visited : Std.HashSet String} {keys : Set String}
    (hkeys : ∀ k, k ∈ visited ↔ k ∈ keys) : keys.encard = visited.size := by
  have hset : keys = (visited.toList.toFinset : Finset String) := by
    ext k
    rw [Finset.mem_coe, List.mem_toFinset, Std.HashSet.mem_toList, hkeys]
  rw [hset, Set.encard_coe_eq_coe_finsetCard,
    List.toFinset_card_of_nodup (nodup_toList_visited visited), Std.HashSet.length_toList]

theorem Search.lt_levelsWithin {maxDepth : Int} {n : Nat} :
    n < Search.levelsWithin maxDepth ↔ (n : Int) ≤ maxDepth := by
  unfold Search.levelsWithin
  omega

namespace Answers

variable {names : List String} {start : Method}

theorem isTop_iff {m : Method} :
    answers.isTop names m = true ↔
      answers.substitutes names m = none ∧ answers.callers m = [] ∧
        answers.isFunctional names m = false := by
  simp [isTop, and_assoc]

theorem mem_topCallers_searchResult
    (happart : answers.ToldApart names (answers.Reaches names start)) (maxDepth : Int)
    (key : String) :
    key ∈ (answers.searchResult names start maxDepth).topCallers.map Method.key ↔
      key ≠ start.key ∧ ∃ m, answers.ReachesWithin names maxDepth start m ∧
        answers.isTop names m = true ∧ m.key = key := by
  have hfound := (explore_levels happart (Search.levelsWithin maxDepth)
    levelInvariant_start).2 key
  rw [MethodSet.mem_keys_iff] at hfound
  simp only [searchResult, Search.Tally.toResult, MethodSet.toList_erase, List.mem_map,
    List.mem_filter, decide_eq_true_eq]
  constructor
  · rintro ⟨m, ⟨hm, hne⟩, rfl⟩
    obtain ⟨j, hj, n, hn, htop, hkey⟩ := hfound.mp ⟨m, hm, rfl⟩
    rw [Nat.zero_add, Search.lt_levelsWithin] at hj
    exact ⟨hne, n, ⟨j, hj, hn⟩, htop, hkey⟩
  · rintro ⟨hne, n, ⟨j, hj, hn⟩, htop, rfl⟩
    rw [← Search.lt_levelsWithin, ← Nat.zero_add (Search.levelsWithin maxDepth)] at hj
    obtain ⟨m, hm, hkey⟩ := hfound.mpr ⟨j, hj, n, hn, htop, rfl⟩
    rw [← hkey] at hne
    exact ⟨m, ⟨hm, hne⟩, hkey⟩

theorem mem_visited_explore
    (happart : answers.ToldApart names (answers.Reaches names start)) (maxDepth : Int)
    (key : String) :
    key ∈ (answers.explore names (Search.levelsWithin maxDepth) [start] {}).visited ↔
      ∃ m, answers.ReachesWithin names maxDepth start m ∧ m.key = key := by
  rw [(explore_levels happart (Search.levelsWithin maxDepth) levelInvariant_start).1 key,
    Nat.zero_add]
  constructor
  · rintro ⟨j, hj, m, hm, hkey⟩
    exact ⟨m, ⟨j, Search.lt_levelsWithin.mp hj, hm⟩, hkey⟩
  · rintro ⟨m, ⟨j, hj, hm⟩, hkey⟩
    exact ⟨j, Search.lt_levelsWithin.mpr hj, m, hm, hkey⟩

theorem encard_visited_searchResult
    (happart : answers.ToldApart names (answers.Reaches names start)) (maxDepth : Int) :
    {key | ∃ m, answers.ReachesWithin names maxDepth start m ∧ m.key = key}.encard =
      (answers.searchResult names start maxDepth).visitedCount :=
  encard_eq_size_of_mem_iff (mem_visited_explore happart maxDepth)

theorem nodup_topCallers_searchResult (names : List String) (start : Method)
    (maxDepth : Int) :
    ((answers.searchResult names start maxDepth).topCallers.map Method.key).Nodup :=
  MethodSet.nodup_keys _

end Answers

/-- A search on an empty cache returns the keys of exactly the methods within its depth limit
that nothing stands in for, that nobody calls and that are not implemented by lambdas, but
not the key of the start; and it counts every key within the limit. -/
theorem search_exact (finder : Finder) (start : Method) (s : RunState σ ρ)
    (hbase : base.Follows answers) (hundisturbed : Undisturbed base watcher)
    (happart : answers.ToldApart finder.functional (answers.Reaches finder.functional start))
    (hempty : ∀ key, s.cache.get? key = none) :
    (∀ (m : Method) (t : RunState σ ρ), (∀ key, t.cache.get? key = none) →
      ((finder.setting base answers.productionScope
          (Run.checkpoint base watcher)).substitutes m t).1 =
        .ok (answers.substitutes finder.functional m) ∧
      ((finder.setting base answers.productionScope
          (Run.checkpoint base watcher)).callersOf m none t).1 = .ok (answers.callers m) ∧
      ((finder.setting base answers.productionScope
          (Run.checkpoint base watcher)).isFunctional m t).1 =
        .ok (answers.isFunctional finder.functional m)) ∧
    ∃ result, (finder.search (.ok base) watcher start s).1 = .ok result ∧
      (result.topCallers.map Method.key).Nodup ∧
      (∀ key, key ∈ result.topCallers.map Method.key ↔
        key ≠ start.key ∧
          ∃ m, answers.ReachesWithin finder.functional finder.maxDepth start m ∧
            answers.substitutes finder.functional m = none ∧ answers.callers m = [] ∧
            answers.isFunctional finder.functional m = false ∧ m.key = key) ∧
      {key | ∃ m, answers.ReachesWithin finder.functional finder.maxDepth start m ∧
        m.key = key}.encard = result.visitedCount := by
  refine ⟨fun m t ht => hundisturbed.parts_eq finder hbase m ht, ?_⟩
  refine ⟨answers.searchResult finder.functional start finder.maxDepth, ?_, ?_, ?_, ?_⟩
  · exact hundisturbed.search_eq finder hbase happart (CallerCache.complete_of_empty hempty)
  · exact Answers.nodup_topCallers_searchResult _ _ _
  · intro key
    rw [Answers.mem_topCallers_searchResult happart]
    simp only [Answers.isTop_iff, and_assoc]
  · exact Answers.encard_visited_searchResult happart finder.maxDepth

/-! ## A diamond with a cycle -/

def letterMethod (name : String) : Method where
  owner := { qualifiedName := some "p.C", name := "C", binaryName := "p.C" }
  name

def siteIn (caller : String) : CallSite where
  location := ⟨caller, 1, 0, 1⟩

/-- Both `b` and `c` call `a`, and `d` calls both; moreover `a` calls `c`. -/
def diamond : Answers where
  callSites m _ :=
    match m.name with
    | "a" => [siteIn "b", siteIn "c"]
    | "b" => [siteIn "d"]
    | "c" => [siteIn "d", siteIn "a"]
    | _ => []
  overriddenRoots _ := []
  functionalImplementations _ _ := []
  enclosingMethod place := some (letterMethod place.file)
  isSubtypeOrSelf _ _ := false
  isInDocComment _ := false
  productionScope := { testRoots := [] }
  methodsNamed _ _ := []

def diamondMethods : List Method := ["a", "b", "c", "d"].map letterMethod

theorem mem_diamondMethods_of_reaches {m : Method}
    (hm : diamond.Reaches [] (letterMethod "a") m) : m ∈ diamondMethods := by
  refine hm.induction (by simp [diamondMethods]) ?_
  intro n hn above habove
  simp only [diamondMethods, List.map_cons, List.map_nil, List.mem_cons, List.not_mem_nil,
    or_false] at hn
  have ha : diamond.next [] (letterMethod "a") = [letterMethod "b", letterMethod "c"] := by rfl
  have hb : diamond.next [] (letterMethod "b") = [letterMethod "d"] := by rfl
  have hc : diamond.next [] (letterMethod "c") = [letterMethod "d", letterMethod "a"] := by rfl
  have hd : diamond.next [] (letterMethod "d") = [] := by rfl
  rcases hn with rfl | rfl | rfl | rfl
  · rw [ha] at habove
    simp only [List.mem_cons, List.not_mem_nil, or_false] at habove
    rcases habove with rfl | rfl <;> simp [diamondMethods]
  · rw [hb, List.mem_singleton] at habove
    simp [habove, diamondMethods]
  · rw [hc] at habove
    simp only [List.mem_cons, List.not_mem_nil, or_false] at habove
    rcases habove with rfl | rfl <;> simp [diamondMethods]
  · rw [hd] at habove
    cases habove

theorem toldApart_diamond :
    diamond.ToldApart [] (diamond.Reaches [] (letterMethod "a")) := by
  refine Answers.ToldApart.of_key_injective ?_
  intro m n hm hn hkey
  have hkeys : (diamondMethods.map Method.key).Nodup := by decide
  exact List.inj_on_of_nodup_map hkeys (mem_diamondMethods_of_reaches hm)
    (mem_diamondMethods_of_reaches hn) hkey

/-- From `a` the search finds `d` alone, although the way up has a diamond and a cycle. -/
theorem search_exact_diamond :
    ∃ result,
      (Finder.search { maxDepth := 2, functional := [] } (.ok diamond.knowledgeBase)
        Watcher.idle (letterMethod "a") (⟨(), (), {}⟩ : RunState Unit Unit)).1 = .ok result ∧
      (∀ key, key ∈ result.topCallers.map Method.key ↔ key = (letterMethod "d").key) := by
  obtain ⟨result, hresult, -, hkeys, -⟩ :=
    (search_exact { maxDepth := 2, functional := [] } (letterMethod "a")
      (⟨(), (), {}⟩ : RunState Unit Unit) Answers.follows_knowledgeBase
      (undisturbed_idle fun _ => rfl) toldApart_diamond CallerCache.get?_new).2
  refine ⟨result, hresult, ?_⟩
  intro key
  rw [hkeys]
  constructor
  · rintro ⟨-, m, ⟨n, -, hm⟩, -, hcallers, -, rfl⟩
    have hmember := mem_diamondMethods_of_reaches ⟨n, hm⟩
    simp only [diamondMethods, List.map_cons, List.map_nil, List.mem_cons, List.not_mem_nil,
      or_false] at hmember
    rcases hmember with rfl | rfl | rfl | rfl
    · exact absurd hcallers (List.cons_ne_nil _ _)
    · exact absurd hcallers (List.cons_ne_nil _ _)
    · exact absurd hcallers (List.cons_ne_nil _ _)
    · rfl
  · rintro rfl
    refine ⟨by decide, letterMethod "d", ⟨2, by decide, ?_⟩, rfl, rfl, rfl, rfl⟩
    have hb : letterMethod "b" ∈ diamond.next [] (letterMethod "a") := List.mem_cons_self
    have hd : letterMethod "d" ∈ diamond.next [] (letterMethod "b") := List.mem_cons_self
    exact .step (.step .start hb) hd

end EntryPoints

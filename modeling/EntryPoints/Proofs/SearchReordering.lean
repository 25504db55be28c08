import EntryPoints.Proofs.MatchingAnswers
import EntryPoints.Proofs.ScopeConfinement
import EntryPoints.Proofs.SearchAgreement
import Mathlib.Data.List.Perm.Basic

/-!
# Searches in another order

The methods one step up from a method are found in the order in which the code lists them.
A search takes them up in that order, and its result lists what it found in that order too.
Nothing else depends on it: when two records give the same steps up to order, their searches
visit the same keys, find the same methods and cut off the same ones, as often.

For this the methods that are found must be told apart by their keys, as otherwise the first
of a key would hide the others.  The start of a search is exempt.  It is visited first, so
it hides the methods of its key in every order.

A search that starts on an empty cache asks for the callers of every key at most once.  Hence
it never reads what it remembers, and its result is the one that its record determines.
-/

namespace EntryPoints

/-! ## The first methods of keys -/

/-- Methods that are told apart by their keys. -/
def KeyedApart (ms : List Method) : Prop := ∀ m ∈ ms, ∀ n ∈ ms, m.key = n.key → m = n

theorem KeyedApart.subset {ms ns : List Method} (h : KeyedApart ms) (hsub : ns ⊆ ms) :
    KeyedApart ns :=
  fun m hm n hn => h m (hsub hm) n (hsub hn)

theorem nodup_firstOfKeys (ms : List Method) : (firstOfKeys ms).Nodup := by
  have hkeys := (ms.foldl MethodSet.insert .empty).nodup_keys
  rw [MethodSet.toList_foldl_insert_empty] at hkeys
  exact List.Nodup.of_map _ hkeys

theorem mem_firstOfKeys {ms : List Method} (h : KeyedApart ms) (m : Method) :
    m ∈ firstOfKeys ms ↔ m ∈ ms := by
  refine ⟨mem_of_mem_firstOfKeys, fun hm => ?_⟩
  have hkey : m.key ∈ (firstOfKeys ms).map Method.key :=
    (mem_keys_firstOfKeys ms m.key).mpr (List.mem_map_of_mem hm)
  obtain ⟨n, hn, hsame⟩ := List.mem_map.mp hkey
  rw [← h n (mem_of_mem_firstOfKeys hn) m hm hsame]
  exact hn

theorem firstOfKeys_perm {ms ns : List Method} (hperm : ns.Perm ms) (h : KeyedApart ms) :
    (firstOfKeys ns).Perm (firstOfKeys ms) := by
  rw [List.perm_ext_iff_of_nodup (nodup_firstOfKeys ns) (nodup_firstOfKeys ms)]
  intro m
  rw [mem_firstOfKeys h, mem_firstOfKeys (h.subset hperm.subset), hperm.mem_iff]

theorem filter_firstOfKeys (ms : List Method) (k : String) :
    (firstOfKeys ms).filter (·.key ≠ k) = firstOfKeys (ms.filter (·.key ≠ k)) := by
  induction ms with
  | nil => rfl
  | cons m ms ih =>
      rw [firstOfKeys, List.filter_cons, List.filter_cons, List.filter_comm, ih]
      by_cases hkey : m.key = k
      · rw [if_neg (by simp [hkey]), if_neg (by simp [hkey]), hkey, ← ih, List.filter_filter]
        simp
      · rw [if_pos (by simpa using hkey), if_pos (by simpa using hkey), firstOfKeys]

/-! ## Levels in another order -/

/-- The methods of a level that are visited: the first of every key that is not marked. -/
def freshOf (visited : Std.HashSet String) (level : List Method) : List Method :=
  firstOfKeys (level.filter fun m => !visited.contains m.key)

theorem freshOf_cons (visited : Std.HashSet String) (m : Method) (level : List Method) :
    freshOf visited (m :: level) =
      if visited.contains m.key then freshOf visited level
      else m :: freshOf (visited.insert m.key) level := by
  unfold freshOf
  rw [List.filter_cons]
  cases hvisited : visited.contains m.key with
  | true => rfl
  | false =>
      simp only [Bool.not_false, if_true, Bool.false_eq_true, if_false]
      rw [firstOfKeys, filter_firstOfKeys, List.filter_filter]
      congr 2
      apply List.filter_congr
      intro n _
      rw [Std.HashSet.contains_insert]
      by_cases hkey : n.key = m.key
      · simp [hkey]
      · simp [hkey, Ne.symm hkey]

theorem freshOf_perm {visited marked : Std.HashSet String} (hmarked : ∀ k, k ∈ marked ↔ k ∈ visited)
    {level other : List Method} (hperm : other.Perm level) (hapart : KeyedApart level) :
    (freshOf marked other).Perm (freshOf visited level) := by
  have hcontains : marked.contains = visited.contains := by
    funext k
    rw [Bool.eq_iff_iff, Std.HashSet.contains_iff_mem, Std.HashSet.contains_iff_mem, hmarked]
  unfold freshOf
  rw [hcontains]
  exact firstOfKeys_perm (hperm.filter _) (hapart.subset (List.filter_subset_self _))

namespace Answers

theorem sweep_eq (answers : Answers) (names : List String) (level : List Method) (tally : Tally) :
    (answers.sweep names level tally).1 =
        (freshOf tally.visited level).flatMap (answers.next names) ∧
      (answers.sweep names level tally).2.found =
        ((freshOf tally.visited level).filter (answers.isTop names)).foldl MethodSet.insert
          tally.found ∧
      (answers.sweep names level tally).2.processed = tally.processed + level.length ∧
      (answers.sweep names level tally).2.cutOff = tally.cutOff := by
  induction level generalizing tally with
  | nil => exact ⟨rfl, rfl, rfl, rfl⟩
  | cons m level ih =>
      obtain ⟨hnext, hfound, hprocessed, hcutOff⟩ := ih (answers.visit names m tally.takeUp).2
      simp only [sweep, freshOf_cons]
      rw [hnext, hfound, hprocessed, hcutOff, List.length_cons]
      have hvisited : tally.takeUp.visited = tally.visited := rfl
      unfold visit
      rw [hvisited]
      cases tally.visited.contains m.key with
      | true => exact ⟨rfl, rfl, Nat.add_right_comm _ _ _, rfl⟩
      | false =>
          simp only [Bool.false_eq_true, if_false]
          refine ⟨?_, ?_, ?_, ?_⟩
          · cases answers.isTop names m <;> rfl
          · rw [List.filter_cons]
            cases answers.isTop names m <;> rfl
          · cases answers.isTop names m <;> exact Nat.add_right_comm _ _ _
          · cases answers.isTop names m <;> rfl

end Answers

/-- Two tallies that differ in the order of what they list. -/
structure Tally.Reordered (tally other : Tally) : Prop where
  visited : ∀ k, k ∈ other.visited ↔ k ∈ tally.visited
  found : other.found.toList.Perm tally.found.toList
  processed : other.processed = tally.processed
  cutOff : other.cutOff.Perm tally.cutOff

theorem Tally.Reordered.refl (tally : Tally) : tally.Reordered tally where
  visited _ := Iff.rfl
  found := List.Perm.refl _
  processed := rfl
  cutOff := List.Perm.refl _

/-- Two results that differ in the order of what they list. -/
structure SearchResult.Reordered (result other : SearchResult) : Prop where
  start : other.start = result.start
  topCallers : other.topCallers.Perm result.topCallers
  visitedCount : other.visitedCount = result.visitedCount
  processedCount : other.processedCount = result.processedCount
  truncatedKeys : other.truncatedKeys.Perm result.truncatedKeys

theorem SearchResult.Reordered.truncated {result other : SearchResult}
    (h : result.Reordered other) : other.truncated = result.truncated := by
  unfold SearchResult.truncated
  rw [h.truncatedKeys.isEmpty_eq]

theorem Tally.Reordered.toResult {tally other : Tally} (h : tally.Reordered other)
    (start : Method) :
    (Search.Tally.toResult start tally).Reordered (Search.Tally.toResult start other) where
  start := rfl
  topCallers := by
    unfold Search.Tally.toResult
    simp only [MethodSet.toList_erase]
    exact h.found.filter _
  visitedCount := (Std.HashSet.Equiv.of_forall_mem_iff h.visited).size_eq
  processedCount := h.processed
  truncatedKeys := (List.reverse_perm _).trans (h.cutOff.trans (List.reverse_perm _).symm)

namespace Answers

variable {first second : Answers} {names : List String}

/-- Two records whose steps differ in their order only, with methods above that are told apart
by their keys. -/
structure Reorders (first second : Answers) (names : List String) : Prop where
  next : ∀ m, (second.next names m).Perm (first.next names m)
  isTop : ∀ m, second.isTop names m = first.isTop names m
  apart : ∀ m n, ∀ above ∈ first.next names m, ∀ other ∈ first.next names n,
    above.key = other.key → above = other

theorem foldl_insert_perm {found other : MethodSet} (hfound : other.toList.Perm found.toList)
    {ms ns : List Method} (hperm : ns.Perm ms) (hapart : KeyedApart ms) :
    (ns.foldl MethodSet.insert other).toList.Perm (ms.foldl MethodSet.insert found).toList := by
  have hcontains : other.containsKey = found.containsKey := by
    funext k
    rw [Bool.eq_iff_iff, MethodSet.mem_keys_iff, MethodSet.mem_keys_iff]
    simp only [hfound.mem_iff]
  rw [MethodSet.toList_foldl_insert, MethodSet.toList_foldl_insert, hcontains]
  exact hfound.append ((firstOfKeys_perm hperm hapart).filter _)

namespace Reorders

variable (h : first.Reorders second names)

include h

theorem keyedApart_next (level : List Method) :
    KeyedApart (level.flatMap (first.next names)) := by
  intro above habove other hother
  obtain ⟨m, -, hm⟩ := List.mem_flatMap.mp habove
  obtain ⟨n, -, hn⟩ := List.mem_flatMap.mp hother
  exact h.apart m n above hm other hn

/-- A level in two orders leads to the next level in two orders. -/
theorem sweep {level other : List Method} (hperm : other.Perm level) (hapart : KeyedApart level)
    {tally noted : Tally} (htally : tally.Reordered noted) :
    (second.sweep names other noted).1.Perm (first.sweep names level tally).1 ∧
      (first.sweep names level tally).2.Reordered (second.sweep names other noted).2 := by
  obtain ⟨hnext, hfound, hprocessed, hcutOff⟩ := sweep_eq first names level tally
  obtain ⟨hnextOther, hfoundOther, hprocessedOther, hcutOffOther⟩ :=
    sweep_eq second names other noted
  have hfresh := freshOf_perm htally.visited hperm hapart
  have hisTop : second.isTop names = first.isTop names := funext h.isTop
  have hfreshApart : KeyedApart (freshOf tally.visited level) :=
    hapart.subset fun m hm => List.mem_of_mem_filter (mem_of_mem_firstOfKeys hm)
  constructor
  · rw [hnext, hnextOther]
    exact hfresh.flatMap fun m _ => h.next m
  · refine ⟨fun k => ?_, ?_, ?_, ?_⟩
    · rw [mem_visited_sweep, mem_visited_sweep, htally.visited]
      simp only [hperm.mem_iff]
    · rw [hfound, hfoundOther, hisTop]
      exact foldl_insert_perm htally.found (hfresh.filter _)
        (hfreshApart.subset (List.filter_subset_self _))
    · rw [hprocessed, hprocessedOther, htally.processed, hperm.length_eq]
    · rw [hcutOff, hcutOffOther]
      exact htally.cutOff

omit h in
theorem cutOff {level other : List Method} (hperm : other.Perm level) {tally noted : Tally}
    (htally : tally.Reordered noted) :
    (Answers.cutOff level tally).Reordered (Answers.cutOff other noted) := by
  have hcutOff (level : List Method) (tally : Tally) :
      (Answers.cutOff level tally).cutOff = (level.map Method.key).reverse ++ tally.cutOff ∧
        (Answers.cutOff level tally).processed = tally.processed + level.length := by
    induction level generalizing tally with
    | nil => exact ⟨rfl, rfl⟩
    | cons m level ih =>
        obtain ⟨hkeys, hprocessed⟩ := ih { tally.takeUp with cutOff := m.key :: tally.cutOff }
        rw [Answers.cutOff, hkeys, hprocessed]
        exact ⟨by simp, Nat.add_right_comm _ _ _⟩
  refine ⟨fun k => ?_, ?_, ?_, ?_⟩
  · rw [(visited_cutOff _ _).1, (visited_cutOff _ _).1]
    exact htally.visited k
  · rw [(visited_cutOff _ _).2, (visited_cutOff _ _).2]
    exact htally.found
  · rw [(hcutOff _ _).2, (hcutOff _ _).2, htally.processed, hperm.length_eq]
  · rw [(hcutOff _ _).1, (hcutOff _ _).1]
    have hkeys : (other.map Method.key).reverse.Perm (level.map Method.key).reverse :=
      (List.reverse_perm _).trans ((hperm.map _).trans (List.reverse_perm _).symm)
    exact hkeys.append htally.cutOff

theorem explore (levels : Nat) {frontier other : List Method} (hperm : other.Perm frontier)
    (hapart : KeyedApart frontier) {tally noted : Tally} (htally : tally.Reordered noted) :
    (first.explore names levels frontier tally).Reordered
      (second.explore names levels other noted) := by
  induction levels generalizing frontier other tally noted with
  | zero => exact cutOff hperm htally
  | succ levels ih =>
      obtain ⟨hnext, hswept⟩ := h.sweep hperm hapart htally
      -- The start need not be told apart from what is found, but the levels above must be.
      have hnextApart : KeyedApart (first.sweep names frontier tally).1 := by
        rw [(sweep_eq first names frontier tally).1]
        exact h.keyedApart_next _
      unfold Answers.explore
      simp only
      rw [hnext.isEmpty_eq]
      split
      · exact hswept
      · exact ih hnext hnextApart hswept

/-- Records with the same steps up to order determine the same result up to order. -/
theorem searchResult (start : Method) (maxDepth : Int) :
    (first.searchResult names start maxDepth).Reordered
      (second.searchResult names start maxDepth) := by
  have hapart : KeyedApart [start] := by
    intro m hm n hn _
    rw [List.mem_singleton.mp hm, List.mem_singleton.mp hn]
  exact (h.explore _ (List.Perm.refl _) hapart (Tally.Reordered.refl {})).toResult start

end Reorders

end Answers

/-! ## Records that list in another order -/

section Listing

variable {first second : Answers} {names : List String}

theorem Answers.exists_place_of_mem_directCallers {m caller : Method}
    {implementation : Option TypeSymbol} (hcaller : caller ∈ first.directCallers m implementation) :
    ∃ place, first.enclosingMethod place = some caller := by
  obtain ⟨site, -, hsite⟩ := List.mem_filterMap.mp hcaller
  unfold callerAt at hsite
  split at hsite
  · exact ⟨site.location, hsite⟩
  · cases hsite

theorem Answers.exists_place_of_mem_expressions {expressions : List FunctionalExpression}
    {owner : Method} (howner : owner ∈ expressions.filterMap first.expressionOwner) :
    ∃ place, first.enclosingMethod place = some owner := by
  obtain ⟨expression, -, hfound⟩ := List.mem_filterMap.mp howner
  unfold expressionOwner at hfound
  split at hfound
  · cases hfound
  · exact ⟨expression.location, hfound⟩

/-- The callers of a method, before those of one key are told apart. -/
theorem Answers.exists_place_of_mem_sites {m caller : Method}
    (hcaller : caller ∈ first.directCallers m none ++ (first.overriddenRoots m).flatMap fun root =>
      first.directCallers root (some m.owner)) :
    ∃ place, first.enclosingMethod place = some caller := by
  rcases List.mem_append.mp hcaller with hcaller | hcaller
  · exact exists_place_of_mem_directCallers hcaller
  · obtain ⟨root, -, hcaller⟩ := List.mem_flatMap.mp hcaller
    exact exists_place_of_mem_directCallers hcaller

/-- Every step of a search leads to a method that encloses some place. -/
theorem Answers.exists_place_of_mem_next {m above : Method} (habove : above ∈ first.next names m) :
    ∃ place, first.enclosingMethod place = some above := by
  rcases cases_of_mem_next habove with hcreator | howner | hcaller
  · unfold creatorOf at hcreator
    split at hcreator
    · obtain ⟨place, -, hplace⟩ := Option.bind_eq_some_iff.mp hcreator
      exact ⟨place, hplace⟩
    · cases hcreator
  · exact exists_place_of_mem_expressions (mem_of_mem_firstOfKeys howner)
  · exact exists_place_of_mem_sites (mem_of_mem_firstOfKeys hcaller)

/-- Two records that are alike and list the same call sites and lambdas in some order, with
enclosing methods that are told apart by their keys. -/
structure Answers.ListsAlike (first second : Answers) : Prop where
  alike : first.Alike second
  callSites : ∀ m scope, (second.callSites m scope).Perm (first.callSites m scope)
  functionalImplementations : ∀ t scope,
    (second.functionalImplementations t scope).Perm (first.functionalImplementations t scope)
  apart : ∀ place elsewhere m n, first.enclosingMethod place = some m →
    first.enclosingMethod elsewhere = some n → m.key = n.key → m = n

namespace Answers.ListsAlike

variable (h : first.ListsAlike second)

include h

theorem keyedApart {ms : List Method}
    (hms : ∀ m ∈ ms, ∃ place, first.enclosingMethod place = some m) : KeyedApart ms := by
  intro m hm n hn
  obtain ⟨place, hplace⟩ := hms m hm
  obtain ⟨elsewhere, helsewhere⟩ := hms n hn
  exact h.apart place elsewhere m n hplace helsewhere

theorem directCallers (m : Method) (implementation : Option TypeSymbol) :
    (second.directCallers m implementation).Perm (first.directCallers m implementation) := by
  unfold Answers.directCallers
  rw [h.alike.productionScope, funext (h.alike.callerAt m.owner implementation)]
  exact (h.callSites m first.productionScope).filterMap _

theorem callers (m : Method) : (second.callers m).Perm (first.callers m) := by
  unfold Answers.callers
  rw [h.alike.overriddenRoots]
  refine firstOfKeys_perm ((h.directCallers m none).append ?_) (h.keyedApart fun _ hcaller =>
    exists_place_of_mem_sites hcaller)
  exact List.Perm.flatMap_left _ fun root _ => h.directCallers root (some m.owner)

theorem lambdaOwners (m : Method) : (second.lambdaOwners m).Perm (first.lambdaOwners m) := by
  unfold Answers.lambdaOwners
  rw [h.alike.productionScope, funext h.alike.expressionOwner]
  exact firstOfKeys_perm ((h.functionalImplementations m.owner _).filterMap _)
    (h.keyedApart fun _ howner => exists_place_of_mem_expressions howner)

theorem next (m : Method) : (second.next names m).Perm (first.next names m) := by
  unfold Answers.next Answers.substitutes
  rw [h.alike.creatorOf, h.alike.isFunctional, (h.lambdaOwners m).isEmpty_eq]
  cases first.creatorOf m with
  | some creator => exact List.Perm.refl _
  | none =>
      simp only
      split
      · exact h.lambdaOwners m
      · exact h.callers m

theorem isTop (m : Method) : second.isTop names m = first.isTop names m := by
  unfold Answers.isTop Answers.substitutes
  rw [h.alike.creatorOf, h.alike.isFunctional, (h.lambdaOwners m).isEmpty_eq,
    (h.callers m).isEmpty_eq]
  congr 2
  cases first.creatorOf m with
  | some creator => rfl
  | none =>
      simp only
      split <;> rfl

theorem reorders : first.Reorders second names where
  next := h.next
  isTop := h.isTop
  apart m n above habove other hother := by
    obtain ⟨place, hplace⟩ := exists_place_of_mem_next habove
    obtain ⟨elsewhere, helsewhere⟩ := exists_place_of_mem_next hother
    exact h.apart place elsewhere above other hplace helsewhere

end Answers.ListsAlike

end Listing

/-! ## Searches on an empty cache -/

/-- The cache holds entries of marked keys only. -/
def CallerCache.IsWithin (visited : Std.HashSet String) (cache : CallerCache) : Prop :=
  ∀ key, key ∉ visited → cache.get? key = none

theorem CallerCache.IsWithin.mono {visited marked : Std.HashSet String} {cache : CallerCache}
    (h : cache.IsWithin visited) (hsub : ∀ k, k ∈ visited → k ∈ marked) :
    cache.IsWithin marked :=
  fun key hkey => h key fun hold => hkey (hsub key hold)

theorem CallerCache.IsWithin.put {visited : Std.HashSet String} {cache : CallerCache}
    (h : cache.IsWithin visited) (key : String) (callers : List Method) :
    (cache.put key callers).IsWithin (visited.insert key) := by
  intro k hk
  rw [Std.HashSet.mem_insert, not_or, beq_iff_eq] at hk
  rw [get?_put, if_neg hk.1]
  exact h k hk.2

namespace Search

variable {σ ρ : Type} {setting : Setting σ ρ} {watcher : Watcher ρ} {answers : Answers}
  {names : List String} {c : CallerCache}

/-- Expanding a method whose callers are not remembered yet. -/
theorem Free.leads_expand (h : Free setting watcher answers names) {m : Method}
    {visited : Std.HashSet String} (hm : m.key ∉ visited) (hc : c.IsWithin visited) :
    ∃ d, Run.Leads c (expand setting m) (answers.next names m, answers.isTop names m) d ∧
      d.IsWithin (visited.insert m.key) := by
  have hkept : c.IsWithin (visited.insert m.key) :=
    hc.mono fun k hk => Std.HashSet.mem_insert.mpr (.inr hk)
  have hsubstitutes : Run.Leads c (setting.substitutes m) (answers.substitutes names m) c :=
    Run.leads_of_gives
      (gives_substitutes h.follows (h.checkpoint _) (fun _ hfalse => hfalse.elim) m)
  unfold expand Answers.next Answers.isTop
  cases hstand : answers.substitutes names m with
  | some methods =>
      rw [hstand] at hsubstitutes
      exact ⟨c, hsubstitutes.bind (Run.leads_pure _), hkept⟩
  | none =>
      rw [hstand] at hsubstitutes
      have hcallers : Run.Leads c (setting.callersOf m) (answers.callers m)
          (c.put m.key (answers.callers m)) := by
        intro s hs
        rw [setting.callersOf_of_uncached none (hs ▸ hc m.key hm)]
        exact h.leads_collect c m s hs
      refine ⟨c.put m.key (answers.callers m), hsubstitutes.bind (hcallers.bind ?_), hc.put _ _⟩
      cases answers.callers m with
      | nil =>
          have hfunctional := Run.leads_of_gives (c := c.put m.key [])
            (gives_isFunctional h.follows (fun _ hfalse => hfalse.elim) m)
          exact hfunctional.bind (Run.leads_pure _)
      | cons caller callers => exact Run.leads_pure _

theorem Free.leads_visit (h : Free setting watcher answers names) (m : Method) (tally : Tally)
    (hc : c.IsWithin tally.visited) :
    ∃ d, Run.Leads c (visit setting m tally) (answers.visit names m tally) d ∧
      d.IsWithin (answers.visit names m tally).2.visited := by
  unfold visit Answers.visit
  cases hvisited : tally.visited.contains m.key with
  | true => exact ⟨c, Run.leads_pure _, hc⟩
  | false =>
      -- A key is expanded when it is first met, so nothing is remembered for it.
      have hm : m.key ∉ tally.visited := by simp [← Std.HashSet.contains_iff_mem, hvisited]
      obtain ⟨d, hexpand, hd⟩ := h.leads_expand hm hc
      refine ⟨d, hexpand.bind (Run.leads_pure _), ?_⟩
      cases answers.isTop names m <;> exact hd

theorem Free.leads_sweep (h : Free setting watcher answers names) (level : List Method)
    (next : Array Method) {tally : Tally} (hc : c.IsWithin tally.visited) :
    ∃ d, Run.Leads c (sweep setting watcher level next tally)
        (next ++ (answers.sweep names level tally).1, (answers.sweep names level tally).2) d ∧
      d.IsWithin (answers.sweep names level tally).2.visited := by
  induction level generalizing next tally c with
  | nil =>
      refine ⟨c, ?_, hc⟩
      simpa [sweep, Answers.sweep] using Run.leads_pure (next, tally)
  | cons m level ih =>
      obtain ⟨d, hvisit, hd⟩ := h.leads_visit m tally.takeUp hc
      obtain ⟨e, hsweep, he⟩ := ih (next ++ (answers.visit names m tally.takeUp).1) hd
      rw [appendList_assoc] at hsweep
      unfold sweep
      exact ⟨e, (Run.leads_of_gives (h.gives_takeUp _ tally)).bind (hvisit.bind hsweep), he⟩

theorem Free.leads_cutOff (h : Free setting watcher answers names) (level : List Method)
    (tally : Tally) (c : CallerCache) :
    Run.Leads c (cutOff setting watcher level tally) (Answers.cutOff level tally) c := by
  induction level generalizing tally with
  | nil => exact Run.leads_pure tally
  | cons m level ih =>
      unfold cutOff
      exact (Run.leads_of_gives (h.gives_takeUp _ tally)).bind (ih _)

theorem Free.leads_explore (h : Free setting watcher answers names) (levels : Nat)
    (frontier : List Method) {tally : Tally} (hc : c.IsWithin tally.visited) :
    ∃ d, Run.Leads c (explore setting watcher levels frontier tally)
      (answers.explore names levels frontier tally) d := by
  induction levels generalizing frontier tally c with
  | zero => exact ⟨c, h.leads_cutOff frontier tally c⟩
  | succ levels ih =>
      obtain ⟨d, hsweep, hd⟩ := h.leads_sweep frontier #[] hc
      unfold explore Answers.explore
      by_cases hempty : (answers.sweep names frontier tally).1.isEmpty = true
      · refine ⟨d, hsweep.bind ?_⟩
        simp only [hempty, if_true]
        rw [List.isEmpty_iff.mp hempty]
        exact Run.leads_pure _
      · obtain ⟨e, hexplore⟩ := ih (answers.sweep names frontier tally).1 hd
        refine ⟨e, hsweep.bind ?_⟩
        simpa [hempty] using hexplore

end Search

section Searches

variable {σ ρ : Type} {base : KnowledgeBase σ} {watcher : Watcher ρ} {answers : Answers}

/-- A search on an empty cache returns the result that its record determines, also where
methods share keys. -/
theorem Undisturbed.search_on_empty_cache (h : Undisturbed base watcher) (finder : Finder)
    (hbase : base.Follows answers) (start : Method) {s : RunState σ ρ}
    (hempty : ∀ key, s.cache.get? key = none) :
    (finder.search (.ok base) watcher start s).1 =
      .ok (answers.searchResult finder.functional start finder.maxDepth) := by
  have hwithin : s.cache.trim.IsWithin ({} : Tally).visited := by
    intro key _
    rw [CallerCache.get?_trim, hempty]
    split <;> rfl
  obtain ⟨d, hexplore⟩ := (h.free finder hbase).leads_explore (Search.levelsWithin finder.maxDepth)
    [start] hwithin
  have hsearch : Run.Leads s.cache (finder.search (.ok base) watcher start)
      (answers.searchResult finder.functional start finder.maxDepth) d :=
    Run.leads_trim.bind ((Run.leads_pure base).bind
      ((Run.leads_of_gives (Run.gives_lookup hbase.productionScope)).bind
        (hexplore.bind (Run.leads_pure _))))
  exact (hsearch s rfl).1

end Searches

end EntryPoints

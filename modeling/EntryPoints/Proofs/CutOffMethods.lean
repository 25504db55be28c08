import EntryPoints.Proofs.DepthLimits

/-!
# What a depth limit leaves out

A search notes a method as cut off as soon as a step leads to it from the last level, before it
looks whether the method has been visited.  So the notes are the callers and substitutes of the
methods that are first met at the limit, and a call that leads back into the visited part is noted
like one that leads out of it.

The notes miss nothing: when a reachable key is left out, one of the noted keys is left out too.
But a note alone does not show that anything is missing, as two methods that call each other
refute.
-/

namespace EntryPoints

variable {σ ρ : Type} {answers : Answers} {base : KnowledgeBase σ} {watcher : Watcher ρ}

namespace Answers

variable {names : List String} {start : Method}

/-- The key of a method that is reachable, but of none within the limit. -/
def LeavesOut (answers : Answers) (names : List String) (limit : Int) (start : Method)
    (key : String) : Prop :=
  (∃ m, answers.Reaches names start m ∧ m.key = key) ∧
    ¬∃ m, answers.ReachesWithin names limit start m ∧ m.key = key

/-- A key within the limit is first met at some level within the limit. -/
theorem ReachesWithin.exists_firstMet {limit : Nat} {m : Method}
    (hm : answers.ReachesWithin names limit start m) :
    ∃ n ≤ limit, ∃ first, answers.FirstMet names start n first ∧ first.key = m.key := by
  classical
  obtain ⟨n, hn, hsteps⟩ := hm
  have hmet : ∃ n, ∃ first, answers.Steps names start n first ∧ first.key = m.key :=
    ⟨n, m, hsteps, rfl⟩
  obtain ⟨first, hfirst, hkey⟩ := Nat.find_spec hmet
  have hbound : Nat.find hmet ≤ n := Nat.find_min' hmet ⟨m, hsteps, rfl⟩
  refine ⟨Nat.find hmet, hbound.trans (Int.ofNat_le.mp hn), first, ⟨hfirst, ?_⟩, hkey⟩
  intro j hj below hbelow hsame
  exact Nat.find_min hmet hj ⟨below, hbelow, hsame.trans hkey⟩

/-- When every step from the last level leads back to keys within the limit, so does every way
up. -/
theorem within_of_last_level
    (happart : answers.ToldApart names (answers.Reaches names start)) {limit : Nat}
    (hlast : ∀ m, answers.FirstMet names start limit m → ∀ above ∈ answers.next names m,
      ∃ n, answers.ReachesWithin names limit start n ∧ n.key = above.key)
    {m : Method} (hm : answers.Reaches names start m) :
    ∃ n, answers.ReachesWithin names limit start n ∧ n.key = m.key := by
  obtain ⟨n, hsteps⟩ := hm
  induction hsteps with
  | start => exact ⟨start, ⟨0, Int.natCast_nonneg limit, .start⟩, rfl⟩
  | @step k below above hbelow habove ih =>
      obtain ⟨n, hn, hsame⟩ := ih
      obtain ⟨d, hd, first, hfirst, hkey⟩ := hn.exists_firstMet
      have hnext := happart.next_eq ⟨d, hfirst.1⟩ ⟨k, hbelow⟩ (hkey.trans hsame)
      rw [← hnext] at habove
      rcases Nat.lt_or_eq_of_le hd with hlow | rfl
      · exact ⟨above, ⟨d + 1, Int.ofNat_le.mpr hlow, .step hfirst.1 habove⟩, rfl⟩
      · exact hlast first hfirst above habove

/-- What is noted as cut off has been visited all the same or is left out. -/
theorem within_or_leavesOut_of_mem_truncatedKeys
    (happart : answers.ToldApart names (answers.Reaches names start)) {limit : Nat}
    {key : String} (hkey : key ∈ (answers.searchResult names start limit).truncatedKeys) :
    (∃ m, answers.ReachesWithin names limit start m ∧ m.key = key) ∨
      answers.LeavesOut names limit start key := by
  by_cases hwithin : ∃ m, answers.ReachesWithin names limit start m ∧ m.key = key
  · exact .inl hwithin
  · rw [mem_truncatedKeys_searchResult happart] at hkey
    obtain ⟨m, hm, above, habove, hkey⟩ := hkey
    exact .inr ⟨⟨above, Reaches.next ⟨limit, hm.1⟩ habove, hkey⟩, hwithin⟩

theorem exists_truncatedKey_of_leavesOut
    (happart : answers.ToldApart names (answers.Reaches names start)) {limit : Nat}
    {key : String} (hkey : answers.LeavesOut names limit start key) :
    ∃ noted ∈ (answers.searchResult names start limit).truncatedKeys,
      answers.LeavesOut names limit start noted := by
  by_contra hnone
  obtain ⟨⟨m, hm, hmkey⟩, hout⟩ := hkey
  refine hout ?_
  rw [← hmkey]
  refine within_of_last_level happart ?_ hm
  intro last hlast above habove
  have hnoted : above.key ∈ (answers.searchResult names start limit).truncatedKeys :=
    (mem_truncatedKeys_searchResult happart limit above.key).mpr ⟨last, hlast, above, habove, rfl⟩
  rcases within_or_leavesOut_of_mem_truncatedKeys happart hnoted with hwithin | hleft
  · exact hwithin
  · exact absurd ⟨above.key, hnoted, hleft⟩ hnone

end Answers

/-- A search on an empty cache notes as cut off the keys of the callers and substitutes of exactly
the methods that are first met at its depth limit.  Each of them has been visited within the limit
or is left out, and something reachable is left out only if one of the noted keys is. -/
theorem search_cutOff (finder : Finder) (hlimit : 0 ≤ finder.maxDepth) (start : Method)
    (s : RunState σ ρ) (hbase : base.Follows answers) (hundisturbed : Undisturbed base watcher)
    (happart : answers.ToldApart finder.functional (answers.Reaches finder.functional start))
    (hempty : ∀ key, s.cache.get? key = none) :
    ∃ result, (finder.search (.ok base) watcher start s).1 = .ok result ∧
      {key | ∃ m, answers.ReachesWithin finder.functional finder.maxDepth start m ∧
        m.key = key}.encard = result.visitedCount ∧
      (result.truncated = true ↔ result.truncatedKeys ≠ []) ∧
      (∀ key, key ∈ result.truncatedKeys ↔
        ∃ m, answers.FirstMet finder.functional start finder.maxDepth.toNat m ∧
          ∃ above ∈ answers.next finder.functional m, above.key = key) ∧
      (∀ key ∈ result.truncatedKeys,
        (∃ m, answers.ReachesWithin finder.functional finder.maxDepth start m ∧ m.key = key) ∨
          answers.LeavesOut finder.functional finder.maxDepth start key) ∧
      ∀ key, answers.LeavesOut finder.functional finder.maxDepth start key →
        ∃ noted ∈ result.truncatedKeys,
          answers.LeavesOut finder.functional finder.maxDepth start noted := by
  have hsearch := hundisturbed.search_eq finder hbase happart
    (CallerCache.complete_of_empty hempty)
  refine ⟨_, hsearch, Answers.encard_visited_searchResult happart finder.maxDepth, ?_⟩
  rw [← Int.toNat_of_nonneg hlimit]
  refine ⟨by simp [SearchResult.truncated], ?_, ?_, ?_⟩
  · exact Answers.mem_truncatedKeys_searchResult happart _
  · intro key hkey
    exact Answers.within_or_leavesOut_of_mem_truncatedKeys happart hkey
  · intro key hkey
    exact Answers.exists_truncatedKey_of_leavesOut happart hkey

/-- One step up from `a` in the diamond, both the way on to `d` and the way back to `a` are noted,
and only `d` is left out. -/
theorem search_cutOff_diamond :
    ∃ result,
      (Finder.search { maxDepth := 1, functional := [] } (.ok diamond.knowledgeBase)
        Watcher.idle (letterMethod "a") (⟨(), (), {}⟩ : RunState Unit Unit)).1 = .ok result ∧
      (letterMethod "a").key ∈ result.truncatedKeys ∧
      (letterMethod "d").key ∈ result.truncatedKeys ∧
      diamond.LeavesOut [] 1 (letterMethod "a") (letterMethod "d").key := by
  obtain ⟨result, hresult, -, -, hkeys, hnoted, -⟩ :=
    search_cutOff { maxDepth := 1, functional := [] } (show (0 : Int) ≤ 1 by decide)
      (letterMethod "a") (⟨(), (), {}⟩ : RunState Unit Unit) Answers.follows_knowledgeBase
      (undisturbed_idle fun _ => rfl) toldApart_diamond CallerCache.get?_new
  have hc : diamond.FirstMet [] (letterMethod "a") 1 (letterMethod "c") := by
    refine ⟨.step .start (List.mem_cons_of_mem _ List.mem_cons_self), ?_⟩
    intro j hj below hbelow
    obtain rfl : j = 0 := by omega
    cases hbelow
    decide
  have hd : letterMethod "d" ∈ diamond.next [] (letterMethod "c") := List.mem_cons_self
  have ha : letterMethod "a" ∈ diamond.next [] (letterMethod "c") :=
    List.mem_cons_of_mem _ List.mem_cons_self
  have hdnoted := (hkeys _).mpr ⟨_, hc, _, hd, rfl⟩
  refine ⟨result, hresult, (hkeys _).mpr ⟨_, hc, _, ha, rfl⟩, hdnoted, ?_⟩
  refine (hnoted _ hdnoted).resolve_left ?_
  rintro ⟨m, ⟨n, hn, hsteps⟩, hkey⟩
  cases hsteps with
  | start => exact absurd hkey (by decide)
  | @step k below _ hbelow habove =>
      obtain rfl : k = 0 := Nat.le_zero.mp (Nat.le_of_succ_le_succ (Int.ofNat_le.mp hn))
      cases hbelow
      have hnext : diamond.next [] (letterMethod "a") = [letterMethod "b", letterMethod "c"] := rfl
      rw [hnext] at habove
      simp only [List.mem_cons, List.not_mem_nil, or_false] at habove
      rcases habove with rfl | rfl <;> exact absurd hkey (by decide)

/-! ## A loop -/

/-- The methods `a` and `b` call each other. -/
def loop : Answers := { diamond with
  callSites m _ := if m.name = "a" then [siteIn "b"] else [siteIn "a"] }

theorem next_loop_a : loop.next [] (letterMethod "a") = [letterMethod "b"] := rfl

theorem next_loop_b : loop.next [] (letterMethod "b") = [letterMethod "a"] := rfl

theorem eq_of_reaches_loop {m : Method} (hm : loop.Reaches [] (letterMethod "a") m) :
    m = letterMethod "a" ∨ m = letterMethod "b" := by
  obtain ⟨n, hsteps⟩ := hm
  induction hsteps with
  | start => exact .inl rfl
  | step _ habove ih =>
      rcases ih with rfl | rfl
      · rw [next_loop_a, List.mem_singleton] at habove
        exact .inr habove
      · rw [next_loop_b, List.mem_singleton] at habove
        exact .inl habove

theorem toldApart_loop : loop.ToldApart [] (loop.Reaches [] (letterMethod "a")) := by
  refine Answers.ToldApart.of_key_injective ?_
  intro m n hm hn hkey
  rcases eq_of_reaches_loop hm with rfl | rfl <;> rcases eq_of_reaches_loop hn with rfl | rfl
  · rfl
  · exact absurd hkey (by decide)
  · exact absurd hkey (by decide)
  · rfl

/-- With the limit one, the search from `a` visits all that is reachable, and reports `a` as cut
off. -/
theorem search_cutOff_loop :
    (loop.knowledgeBase : KnowledgeBase Unit).Follows loop ∧
    loop.ToldApart [] (loop.Reaches [] (letterMethod "a")) ∧
    (∀ m, loop.Reaches [] (letterMethod "a") m →
      loop.ReachesWithin [] 1 (letterMethod "a") m) ∧
    ∃ result,
      (Finder.search { maxDepth := 1, functional := [] } (.ok loop.knowledgeBase)
        Watcher.idle (letterMethod "a") (⟨(), (), {}⟩ : RunState Unit Unit)).1 = .ok result ∧
      result.truncated = true ∧ (letterMethod "a").key ∈ result.truncatedKeys := by
  have hidle : Undisturbed (loop.knowledgeBase : KnowledgeBase Unit)
      (Watcher.idle : Watcher Unit) := undisturbed_idle fun _ => rfl
  have hb : loop.Steps [] (letterMethod "a") 1 (letterMethod "b") :=
    .step .start (by rw [next_loop_a]; exact List.mem_cons_self)
  refine ⟨Answers.follows_knowledgeBase, toldApart_loop, ?_, ?_⟩
  · intro m hm
    rcases eq_of_reaches_loop hm with rfl | rfl
    · exact ⟨0, by decide, .start⟩
    · exact ⟨1, by decide, hb⟩
  refine ⟨_, hidle.search_eq { maxDepth := 1, functional := [] } Answers.follows_knowledgeBase
    toldApart_loop (CallerCache.complete_of_empty CallerCache.get?_new), ?_⟩
  have hnoted : (letterMethod "a").key ∈
      (loop.searchResult [] (letterMethod "a") 1).truncatedKeys := by
    refine (Answers.mem_truncatedKeys_searchResult toldApart_loop 1 _).mpr
      ⟨letterMethod "b", ⟨hb, ?_⟩, letterMethod "a", ?_, rfl⟩
    · intro j hj below hbelow
      obtain rfl : j = 0 := by omega
      cases hbelow
      decide
    · rw [next_loop_b]
      exact List.mem_cons_self
  refine ⟨?_, hnoted⟩
  simpa [SearchResult.truncated] using List.ne_nil_of_mem hnoted

end EntryPoints

import EntryPoints.Proofs.SearchExactness

/-!
# Larger depth limits

A search with a larger depth limit goes the same way as far as the smaller limit allows.  If the
smaller limit leaves methods over, all of them are noted as cut off, so a search that notes none
has come to a level with nothing above it.  It would have stopped there under every larger limit,
and its result is final.

A result that is cut off may still grow, but it loses nothing: what is found within a limit
depends only on the number of steps that lead to it.
-/

namespace EntryPoints

variable {σ ρ : Type} {answers : Answers} {base : KnowledgeBase σ}

theorem Search.levelsWithin_mono {shallow deep : Int} (hle : shallow ≤ deep) :
    Search.levelsWithin shallow ≤ Search.levelsWithin deep := by
  unfold Search.levelsWithin
  omega

namespace Answers

variable {names : List String} {start : Method}

/-! ## What is cut off -/

theorem cutOff_visit (m : Method) (tally : Tally) :
    (answers.visit names m tally).2.cutOff = tally.cutOff := by
  unfold visit
  split
  · rfl
  · simp only
    split <;> rfl

theorem cutOff_sweep (level : List Method) (tally : Tally) :
    (answers.sweep names level tally).2.cutOff = tally.cutOff := by
  induction level generalizing tally with
  | nil => rfl
  | cons m level ih =>
      simp only [sweep]
      rw [ih, cutOff_visit]
      rfl

/-- Every method that the limit leaves over is noted. -/
theorem cutOff_cutOff (level : List Method) (tally : Tally) :
    (cutOff level tally).cutOff = (level.map Method.key).reverse ++ tally.cutOff := by
  induction level generalizing tally with
  | nil => rfl
  | cons m level ih => simp [cutOff, ih]

/-! ## More levels -/

/-- An exploration that cuts nothing off does not use the levels that it is given beyond. -/
theorem explore_add {levels : Nat} {frontier : List Method} {tally : Tally}
    (hfrontier : frontier ≠ [])
    (hwhole : (answers.explore names levels frontier tally).cutOff = tally.cutOff) (more : Nat) :
    answers.explore names (levels + more) frontier tally =
      answers.explore names levels frontier tally := by
  induction levels generalizing frontier tally with
  | zero =>
      rw [explore, cutOff_cutOff] at hwhole
      have hnone : (frontier.map Method.key).reverse = [] := List.append_left_eq_self.mp hwhole
      exact absurd (List.map_eq_nil_iff.mp (List.reverse_eq_nil_iff.mp hnone)) hfrontier
  | succ levels ih =>
      rw [Nat.succ_add]
      simp only [explore] at hwhole ⊢
      by_cases hempty : (answers.sweep names frontier tally).1.isEmpty = true
      · rw [if_pos hempty, if_pos hempty]
      · rw [if_neg hempty] at hwhole
        rw [if_neg hempty, if_neg hempty]
        apply ih
        · simpa using hempty
        · rw [hwhole, cutOff_sweep]

theorem searchResult_of_not_truncated {shallow deep : Int} (hle : shallow ≤ deep)
    (hwhole : (answers.searchResult names start shallow).truncated = false) :
    answers.searchResult names start deep = answers.searchResult names start shallow := by
  have hnone : (answers.explore names (Search.levelsWithin shallow) [start] {}).cutOff = [] := by
    simpa [searchResult, Search.Tally.toResult, SearchResult.truncated] using hwhole
  obtain ⟨more, hmore⟩ := Nat.exists_eq_add_of_le (Search.levelsWithin_mono hle)
  unfold searchResult
  rw [hmore, explore_add (List.cons_ne_nil start []) hnone]

/-- The method is `n` steps up, and no way to its key is shorter. -/
def FirstMet (answers : Answers) (names : List String) (start : Method) (n : Nat)
    (m : Method) : Prop :=
  answers.Steps names start n m ∧
    ∀ j < n, ∀ below, answers.Steps names start j below → below.key ≠ m.key

/-- What the sweep of a level leads to are the steps from the methods that are first met there. -/
theorem LevelInvariant.mem_sweep_keys
    (happart : answers.ToldApart names (answers.Reaches names start)) {d : Nat}
    {frontier : List Method} {tally : Tally}
    (h : LevelInvariant answers names start d frontier tally) (key : String) :
    (∃ above ∈ (answers.sweep names frontier tally).1, above.key = key) ↔
      ∃ m, answers.FirstMet names start d m ∧ ∃ above ∈ answers.next names m,
        above.key = key := by
  have hknown : ∀ m ∈ frontier, answers.Reaches names start m := fun m hm => ⟨d, h.reached m hm⟩
  constructor
  · rintro ⟨above, habove, hkey⟩
    rw [mem_sweep happart hknown] at habove
    obtain ⟨m, hm, hnew, habove⟩ := habove
    refine ⟨m, ⟨h.reached m hm, ?_⟩, above, habove, hkey⟩
    intro j hj below hbelow hsame
    exact hnew ((h.visited m.key).mpr ⟨j, hj, below, hbelow, hsame⟩)
  · rintro ⟨m, ⟨hm, hfirst⟩, above, habove, hkey⟩
    rcases h.exists_same_key hm with ⟨j, hj, below, hbelow, hsame⟩ | ⟨n, hn, hnew, hsame⟩
    · exact absurd hsame (hfirst j hj below hbelow)
    · rw [← happart.next_eq (hknown n hn) ⟨d, hm⟩ hsame] at habove
      exact ⟨above, (mem_sweep happart hknown tally above).mpr ⟨n, hn, hnew, habove⟩, hkey⟩

/-- What is cut off after the last level are the steps from the methods that are first met
there, also where they lead back to what has been visited. -/
theorem LevelInvariant.mem_cutOff_explore
    (happart : answers.ToldApart names (answers.Reaches names start)) {d : Nat}
    {frontier : List Method} {tally : Tally}
    (h : LevelInvariant answers names start d frontier tally) (levels : Nat) (key : String) :
    key ∈ (answers.explore names (levels + 1) frontier tally).cutOff ↔
      key ∈ tally.cutOff ∨ ∃ m, answers.FirstMet names start (d + levels) m ∧
        ∃ above ∈ answers.next names m, above.key = key := by
  induction levels generalizing d frontier tally with
  | zero =>
      rw [Nat.add_zero d, ← h.mem_sweep_keys happart key]
      simp only [explore]
      split
      next hempty =>
        rw [cutOff_sweep, List.isEmpty_iff.mp hempty]
        simp
      next =>
        rw [cutOff_cutOff, cutOff_sweep, List.mem_append, List.mem_reverse, List.mem_map, or_comm]
  | succ levels ih =>
      have hswept := h.sweep happart
      rw [explore]
      by_cases hempty : (answers.sweep names frontier tally).1.isEmpty = true
      · simp only [hempty, if_true]
        rw [List.isEmpty_iff.mp hempty] at hswept
        rw [cutOff_sweep]
        refine ⟨.inl, ?_⟩
        rintro (hkey | ⟨m, ⟨hm, hfirst⟩, -⟩)
        · exact hkey
        · obtain ⟨j, hj, below, hbelow, hsame⟩ :=
            hswept.exists_below happart (show d + 1 ≤ d + (levels + 1) by omega) hm
          exact absurd hsame (hfirst j (by omega) below hbelow)
      · have hsum : d + (levels + 1) = d + 1 + levels := by omega
        simp only [hempty, Bool.false_eq_true, if_false]
        rw [hsum, ih hswept, cutOff_sweep]

theorem mem_truncatedKeys_searchResult
    (happart : answers.ToldApart names (answers.Reaches names start)) (limit : Nat)
    (key : String) :
    key ∈ (answers.searchResult names start limit).truncatedKeys ↔
      ∃ m, answers.FirstMet names start limit m ∧ ∃ above ∈ answers.next names m,
        above.key = key := by
  have hkeys := levelInvariant_start.mem_cutOff_explore happart limit key
  simpa [searchResult, Search.Tally.toResult, Search.levelsWithin] using hkeys

/-- Nothing is cut off when every key that is met first at the last level leads nowhere. -/
theorem not_truncated_of_exhausted
    (happart : answers.ToldApart names (answers.Reaches names start)) (limit : Nat)
    (hlast : ∀ m, answers.FirstMet names start limit m → answers.next names m = []) :
    (answers.searchResult names start limit).truncated = false := by
  have hnone : (answers.searchResult names start limit).truncatedKeys = [] := by
    rw [List.eq_nil_iff_forall_not_mem]
    intro key hkey
    rw [mem_truncatedKeys_searchResult happart] at hkey
    obtain ⟨m, hm, above, habove, -⟩ := hkey
    rw [hlast m hm] at habove
    cases habove
  simp [SearchResult.truncated, hnone]

theorem ReachesWithin.mono {shallow deep : Int} (hle : shallow ≤ deep) {m : Method}
    (hm : answers.ReachesWithin names shallow start m) :
    answers.ReachesWithin names deep start m := by
  obtain ⟨n, hn, hsteps⟩ := hm
  exact ⟨n, hn.trans hle, hsteps⟩

theorem mem_topCallers_of_le (happart : answers.ToldApart names (answers.Reaches names start))
    {shallow deep : Int} (hle : shallow ≤ deep) {key : String}
    (hkey : key ∈ (answers.searchResult names start shallow).topCallers.map Method.key) :
    key ∈ (answers.searchResult names start deep).topCallers.map Method.key := by
  rw [mem_topCallers_searchResult happart] at hkey ⊢
  obtain ⟨hother, m, hm, htop, hmkey⟩ := hkey
  exact ⟨hother, m, hm.mono hle, htop, hmkey⟩

end Answers

/-- Two searches from one method on empty caches, the second with a depth limit that is not
smaller.  The second finds the keys that the first finds.  When nothing was cut off in the first,
the second has the same result: the same top callers and counts, and nothing is cut off. -/
theorem search_deeper (finder : Finder) {depth : Int} (hdepth : finder.maxDepth ≤ depth)
    (start : Method) {watch other : Watcher ρ} (s t : RunState σ ρ) (hbase : base.Follows answers)
    (hwatch : Undisturbed base watch) (hother : Undisturbed base other)
    (happart : answers.ToldApart finder.functional (answers.Reaches finder.functional start))
    (hs : ∀ key, s.cache.get? key = none) (ht : ∀ key, t.cache.get? key = none) :
    ∃ shallow deep, (finder.search (.ok base) watch start s).1 = .ok shallow ∧
      (Finder.search { finder with maxDepth := depth } (.ok base) other start t).1 = .ok deep ∧
      (∀ key ∈ shallow.topCallers.map Method.key, key ∈ deep.topCallers.map Method.key) ∧
      (shallow.truncated = false → deep = shallow) := by
  refine ⟨answers.searchResult finder.functional start finder.maxDepth,
    answers.searchResult finder.functional start depth, ?_, ?_, ?_, ?_⟩
  · exact hwatch.search_eq finder hbase happart (CallerCache.complete_of_empty hs)
  · exact hother.search_eq { finder with maxDepth := depth } hbase happart
      (CallerCache.complete_of_empty ht)
  · intro key hkey
    exact Answers.mem_topCallers_of_le happart hdepth hkey
  · exact Answers.searchResult_of_not_truncated hdepth

/-- From `a` the diamond has been searched to the top with two steps, so a limit of nine finds the
same. -/
theorem search_deeper_diamond :
    ∃ shallow deep,
      (Finder.search { maxDepth := 2, functional := [] } (.ok diamond.knowledgeBase)
        Watcher.idle (letterMethod "a") (⟨(), (), {}⟩ : RunState Unit Unit)).1 = .ok shallow ∧
      (Finder.search { maxDepth := 9, functional := [] } (.ok diamond.knowledgeBase)
        Watcher.idle (letterMethod "a") (⟨(), (), {}⟩ : RunState Unit Unit)).1 = .ok deep ∧
      shallow.truncated = false ∧ deep = shallow := by
  have hidle : Undisturbed (diamond.knowledgeBase : KnowledgeBase Unit)
      (Watcher.idle : Watcher Unit) := undisturbed_idle fun _ => rfl
  obtain ⟨shallow, deep, hshallow, hdeep, -, hsame⟩ :=
    search_deeper { maxDepth := 2, functional := [] } (show (2 : Int) ≤ 9 by decide)
      (letterMethod "a") (⟨(), (), {}⟩ : RunState Unit Unit) ⟨(), (), {}⟩
      Answers.follows_knowledgeBase hidle hidle toldApart_diamond CallerCache.get?_new
      CallerCache.get?_new
  have hresult : shallow = diamond.searchResult [] (letterMethod "a") 2 := by
    have hsearch := hidle.search_eq { maxDepth := 2, functional := [] }
      Answers.follows_knowledgeBase toldApart_diamond (s := (⟨(), (), {}⟩ : RunState Unit Unit))
      (CallerCache.complete_of_empty CallerCache.get?_new)
    rw [hshallow] at hsearch
    exact Except.ok.inj hsearch
  have hwhole : shallow.truncated = false := by
    rw [hresult]
    refine Answers.not_truncated_of_exhausted toldApart_diamond 2 ?_
    rintro m ⟨hm, hfirst⟩
    have hb : letterMethod "b" ∈ diamond.next [] (letterMethod "a") := List.mem_cons_self
    have hc : letterMethod "c" ∈ diamond.next [] (letterMethod "a") :=
      List.mem_cons_of_mem _ List.mem_cons_self
    have hmember := mem_diamondMethods_of_reaches ⟨2, hm⟩
    simp only [diamondMethods, List.map_cons, List.map_nil, List.mem_cons, List.not_mem_nil,
      or_false] at hmember
    rcases hmember with rfl | rfl | rfl | rfl
    · exact absurd rfl (hfirst 0 (by decide) _ .start)
    · exact absurd rfl (hfirst 1 (by decide) _ (.step .start hb))
    · exact absurd rfl (hfirst 1 (by decide) _ (.step .start hc))
    · rfl
  exact ⟨shallow, deep, hshallow, hdeep, hwhole, hsame hwhole⟩

end EntryPoints

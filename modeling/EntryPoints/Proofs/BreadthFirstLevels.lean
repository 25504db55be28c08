import EntryPoints.Proofs.CallerCollection
import Mathlib.Data.Set.Card

/-!
# Breadth-first levels

The search of a record of answers, without states and failures, goes level by
level through the graph that the record spans.  A key is marked when its first
method is taken up, so a later method of that key is skipped even where it would
be met again at the same level.

The level invariant says what this leaves: before level `d` the marked keys are
those of the methods fewer than `d` steps up, and the frontier holds, up to keys
that are marked already, the methods exactly `d` steps up.  Since methods of one
key have the same way up, nothing is lost by skipping, and an empty frontier
means that no level above has a new key.
-/

namespace EntryPoints

def Tally.takeUp (tally : Tally) : Tally := { tally with processed := tally.processed + 1 }

namespace Answers

variable (answers : Answers) (names : List String)

/-! ## The search of a record -/

def visit (m : Method) (tally : Tally) : List Method × Tally :=
  if tally.visited.contains m.key then ([], tally)
  else
    let tally := { tally with visited := tally.visited.insert m.key }
    (answers.next names m,
      if answers.isTop names m then { tally with found := tally.found.insert m } else tally)

def sweep : List Method → Tally → List Method × Tally
  | [], tally => ([], tally)
  | m :: level, tally =>
    let (methods, tally) := answers.visit names m tally.takeUp
    let (next, tally) := sweep level tally
    (methods ++ next, tally)

def cutOff : List Method → Tally → Tally
  | [], tally => tally
  | m :: level, tally =>
    cutOff level { tally.takeUp with cutOff := m.key :: tally.cutOff }

def explore : (levels : Nat) → (frontier : List Method) → Tally → Tally
  | 0, frontier, tally => cutOff frontier tally
  | levels + 1, frontier, tally =>
    let (next, tally) := answers.sweep names frontier tally
    if next.isEmpty then tally else explore levels next tally

/-- What a search that nothing disturbs returns. -/
def searchResult (start : Method) (maxDepth : Int) : SearchResult :=
  Search.Tally.toResult start (answers.explore names (Search.levelsWithin maxDepth) [start] {})

/-! ## One method -/

section Visit

variable {answers names}

theorem mem_visited_visit (m : Method) (tally : Tally) (k : String) :
    k ∈ (answers.visit names m tally).2.visited ↔ k ∈ tally.visited ∨ m.key = k := by
  unfold visit
  split
  next hm =>
    rw [Std.HashSet.contains_iff_mem] at hm
    constructor
    · exact .inl
    · rintro (hk | rfl)
      · exact hk
      · exact hm
  next =>
    split <;> simp [Std.HashSet.mem_insert, or_comm]

theorem mem_visit (m : Method) (tally : Tally) (above : Method) :
    above ∈ (answers.visit names m tally).1 ↔
      m.key ∉ tally.visited ∧ above ∈ answers.next names m := by
  unfold visit
  split
  next hm => simp [Std.HashSet.contains_iff_mem.mp hm]
  next hm => simp [mt Std.HashSet.contains_iff_mem.mpr hm]

theorem containsKey_found_visit (m : Method) (tally : Tally) (k : String) :
    (answers.visit names m tally).2.found.containsKey k = true ↔
      tally.found.containsKey k = true ∨
        m.key ∉ tally.visited ∧ answers.isTop names m = true ∧ m.key = k := by
  unfold visit
  split
  next hm => simp [Std.HashSet.contains_iff_mem.mp hm]
  next hm =>
    split
    next htop =>
      simp [MethodSet.containsKey_insert, mt Std.HashSet.contains_iff_mem.mpr hm, htop]
    next htop => simp [htop]

end Visit

/-! ## One level -/

section Level

variable {answers names} {known : Method → Prop}

theorem mem_visited_sweep (level : List Method) (tally : Tally) (k : String) :
    k ∈ (answers.sweep names level tally).2.visited ↔
      k ∈ tally.visited ∨ ∃ m ∈ level, m.key = k := by
  induction level generalizing tally with
  | nil => simp [sweep]
  | cons m level ih =>
      simp only [sweep]
      rw [ih, mem_visited_visit]
      simp [Tally.takeUp, or_assoc]

/-- A method of a key that the level has had already may stand for the later ones. -/
theorem exists_mem_cons_of_new (P : Method → Prop) {m : Method} {level : List Method}
    (tally : Tally) (hsame : ∀ n ∈ level, m.key = n.key → P n → P m) :
    (m.key ∉ tally.visited ∧ P m ∨
        ∃ n ∈ level, n.key ∉ (answers.visit names m tally).2.visited ∧ P n) ↔
      ∃ n ∈ m :: level, n.key ∉ tally.visited ∧ P n := by
  constructor
  · rintro (⟨hnew, hm⟩ | ⟨n, hn, hnew, hP⟩)
    · exact ⟨m, List.mem_cons_self, hnew, hm⟩
    · rw [mem_visited_visit, not_or] at hnew
      exact ⟨n, List.mem_cons_of_mem m hn, hnew.1, hP⟩
  · rintro ⟨n, hn, hnew, hP⟩
    rcases List.mem_cons.mp hn with rfl | hn
    · exact .inl ⟨hnew, hP⟩
    · by_cases hkey : m.key = n.key
      · rw [← hkey] at hnew
        exact .inl ⟨hnew, hsame n hn hkey hP⟩
      · refine .inr ⟨n, hn, ?_, hP⟩
        rw [mem_visited_visit, not_or]
        exact ⟨hnew, hkey⟩

theorem mem_sweep (happart : answers.ToldApart names known) {level : List Method}
    (hlevel : ∀ m ∈ level, known m) (tally : Tally) (above : Method) :
    above ∈ (answers.sweep names level tally).1 ↔
      ∃ m ∈ level, m.key ∉ tally.visited ∧ above ∈ answers.next names m := by
  induction level generalizing tally with
  | nil => simp [sweep]
  | cons m level ih =>
      have hm : known m := hlevel m List.mem_cons_self
      have hrest : ∀ n ∈ level, known n := fun n hn => hlevel n (List.mem_cons_of_mem m hn)
      simp only [sweep, List.mem_append]
      rw [ih hrest, mem_visit]
      refine exists_mem_cons_of_new (above ∈ answers.next names ·) tally.takeUp ?_
      intro n hn hkey habove
      rwa [happart.next_eq hm (hrest n hn) hkey]

theorem containsKey_found_sweep (happart : answers.ToldApart names known)
    {level : List Method} (hlevel : ∀ m ∈ level, known m) (tally : Tally) (k : String) :
    (answers.sweep names level tally).2.found.containsKey k = true ↔
      tally.found.containsKey k = true ∨
        ∃ m ∈ level, m.key ∉ tally.visited ∧ answers.isTop names m = true ∧ m.key = k := by
  induction level generalizing tally with
  | nil => simp [sweep]
  | cons m level ih =>
      have hm : known m := hlevel m List.mem_cons_self
      have hrest : ∀ n ∈ level, known n := fun n hn => hlevel n (List.mem_cons_of_mem m hn)
      simp only [sweep]
      rw [ih hrest, containsKey_found_visit, or_assoc]
      refine or_congr_right (exists_mem_cons_of_new
        (fun n => answers.isTop names n = true ∧ n.key = k) tally.takeUp ?_)
      rintro n hn hkey ⟨htop, rfl⟩
      exact ⟨by rwa [happart.isTop_eq hm (hrest n hn) hkey], hkey⟩

end Level

/-! ## All levels -/

section Levels

variable {answers names} {start : Method}

/-- What holds before the level at distance `d` is taken up. -/
structure LevelInvariant (answers : Answers) (names : List String) (start : Method) (d : Nat)
    (frontier : List Method) (tally : Tally) : Prop where
  visited : ∀ k, k ∈ tally.visited ↔
    ∃ j < d, ∃ m, answers.Steps names start j m ∧ m.key = k
  found : ∀ k, tally.found.containsKey k = true ↔
    ∃ j < d, ∃ m, answers.Steps names start j m ∧ answers.isTop names m = true ∧ m.key = k
  reached : ∀ m ∈ frontier, answers.Steps names start d m
  covered : ∀ m, answers.Steps names start d m →
    m.key ∈ tally.visited ∨ ∃ n ∈ frontier, n.key = m.key

theorem levelInvariant_start : LevelInvariant answers names start 0 [start] {} where
  visited := by simp
  found := by
    intro k
    rw [MethodSet.mem_keys_iff]
    simp
  reached := by
    intro m hm
    rw [List.mem_singleton] at hm
    rw [hm]
    exact .start
  covered := by
    intro m hm
    cases hm
    exact .inr ⟨start, List.mem_singleton_self start, rfl⟩

variable {d : Nat} {frontier : List Method} {tally : Tally}

/-- A method `d` steps up has a method of its key at a lower level or in the frontier. -/
theorem LevelInvariant.exists_same_key (h : LevelInvariant answers names start d frontier tally)
    {m : Method} (hm : answers.Steps names start d m) :
    (∃ j < d, ∃ n, answers.Steps names start j n ∧ n.key = m.key) ∨
      ∃ n ∈ frontier, n.key ∉ tally.visited ∧ n.key = m.key := by
  by_cases hvisited : m.key ∈ tally.visited
  · exact .inl ((h.visited m.key).mp hvisited)
  · rcases h.covered m hm with hmarked | ⟨n, hn, hkey⟩
    · exact absurd hmarked hvisited
    · rw [← hkey] at hvisited
      exact .inr ⟨n, hn, hvisited, hkey⟩

theorem LevelInvariant.sweep (happart : answers.ToldApart names (answers.Reaches names start))
    (h : LevelInvariant answers names start d frontier tally) :
    LevelInvariant answers names start (d + 1)
      (answers.sweep names frontier tally).1 (answers.sweep names frontier tally).2 := by
  have hknown : ∀ m ∈ frontier, answers.Reaches names start m :=
    fun m hm => ⟨d, h.reached m hm⟩
  have hvisited : ∀ k, k ∈ (answers.sweep names frontier tally).2.visited ↔
      ∃ j < d + 1, ∃ m, answers.Steps names start j m ∧ m.key = k := by
    intro k
    rw [mem_visited_sweep, h.visited]
    constructor
    · rintro (⟨j, hj, hm⟩ | ⟨m, hm, hkey⟩)
      · exact ⟨j, Nat.lt_succ_of_lt hj, hm⟩
      · exact ⟨d, Nat.lt_succ_self d, m, h.reached m hm, hkey⟩
    · rintro ⟨j, hj, m, hm, rfl⟩
      rcases Nat.lt_succ_iff_lt_or_eq.mp hj with hj | rfl
      · exact .inl ⟨j, hj, m, hm, rfl⟩
      · rcases h.exists_same_key hm with hbelow | ⟨n, hn, -, hkey⟩
        · exact .inl hbelow
        · exact .inr ⟨n, hn, hkey⟩
  refine ⟨hvisited, ?_, ?_, ?_⟩
  · intro k
    rw [containsKey_found_sweep happart hknown, h.found]
    constructor
    · rintro (⟨j, hj, hm⟩ | ⟨m, hm, -, htop, hkey⟩)
      · exact ⟨j, Nat.lt_succ_of_lt hj, hm⟩
      · exact ⟨d, Nat.lt_succ_self d, m, h.reached m hm, htop, hkey⟩
    · rintro ⟨j, hj, m, hm, htop, rfl⟩
      rcases Nat.lt_succ_iff_lt_or_eq.mp hj with hj | rfl
      · exact .inl ⟨j, hj, m, hm, htop, rfl⟩
      · rcases h.exists_same_key hm with ⟨i, hi, n, hn, hkey⟩ | ⟨n, hn, hnew, hkey⟩
        · have hsame := happart.isTop_eq ⟨i, hn⟩ ⟨j, hm⟩ hkey
          exact .inl ⟨i, hi, n, hn, hsame.trans htop, hkey⟩
        · have hsame := happart.isTop_eq (hknown n hn) ⟨j, hm⟩ hkey
          exact .inr ⟨n, hn, hnew, hsame.trans htop, hkey⟩
  · intro above habove
    rw [mem_sweep happart hknown] at habove
    obtain ⟨m, hm, -, habove⟩ := habove
    exact .step (h.reached m hm) habove
  · intro above habove
    cases habove with
    | @step _ m _ hm habove =>
        rcases h.exists_same_key hm with ⟨i, hi, n, hn, hkey⟩ | ⟨n, hn, hnew, hkey⟩
        · left
          rw [← happart.next_eq ⟨i, hn⟩ ⟨d, hm⟩ hkey] at habove
          exact (hvisited above.key).mpr
            ⟨i + 1, Nat.succ_lt_succ hi, above, .step hn habove, rfl⟩
        · right
          rw [← happart.next_eq (hknown n hn) ⟨d, hm⟩ hkey] at habove
          exact ⟨above, (mem_sweep happart hknown tally above).mpr ⟨n, hn, hnew, habove⟩, rfl⟩

/-- Above an empty frontier no level has a new key. -/
theorem LevelInvariant.exists_below (happart : answers.ToldApart names (answers.Reaches names start))
    (h : LevelInvariant answers names start d [] tally) {n : Nat} (hn : d ≤ n) {m : Method}
    (hm : answers.Steps names start n m) :
    ∃ j < d, ∃ below, answers.Steps names start j below ∧ below.key = m.key := by
  have hnew : ∀ {m}, answers.Steps names start d m →
      ∃ j < d, ∃ below, answers.Steps names start j below ∧ below.key = m.key := by
    intro m hm
    rcases h.exists_same_key hm with hbelow | ⟨n, hn, -⟩
    · exact hbelow
    · cases hn
  induction hn generalizing m with
  | refl => exact hnew hm
  | step hn ih =>
      cases hm with
      | @step _ before _ hbefore habove =>
          obtain ⟨j, hj, below, hbelow, hkey⟩ := ih hbefore
          rw [← happart.next_eq ⟨j, hbelow⟩ ⟨_, hbefore⟩ hkey] at habove
          rcases Nat.lt_or_ge (j + 1) d with hlow | hhigh
          · exact ⟨j + 1, hlow, m, .step hbelow habove, rfl⟩
          · obtain rfl : j + 1 = d := Nat.le_antisymm hj hhigh
            exact hnew (.step hbelow habove)

theorem visited_cutOff (level : List Method) (tally : Tally) :
    (cutOff level tally).visited = tally.visited ∧ (cutOff level tally).found = tally.found := by
  induction level generalizing tally with
  | nil => exact ⟨rfl, rfl⟩
  | cons m level ih => exact ih _

/-- The keys that are marked and found in the end are those of all levels that are
allowed. -/
theorem explore_levels (happart : answers.ToldApart names (answers.Reaches names start))
    (levels : Nat) (h : LevelInvariant answers names start d frontier tally) :
    (∀ k, k ∈ (answers.explore names levels frontier tally).visited ↔
      ∃ j < d + levels, ∃ m, answers.Steps names start j m ∧ m.key = k) ∧
    (∀ k, (answers.explore names levels frontier tally).found.containsKey k = true ↔
      ∃ j < d + levels, ∃ m,
        answers.Steps names start j m ∧ answers.isTop names m = true ∧ m.key = k) := by
  induction levels generalizing d frontier tally with
  | zero =>
      rw [explore, (visited_cutOff frontier tally).1, (visited_cutOff frontier tally).2]
      exact ⟨h.visited, h.found⟩
  | succ levels ih =>
      have hswept := h.sweep happart
      simp only [explore]
      by_cases hempty : (answers.sweep names frontier tally).1.isEmpty = true
      · rw [if_pos hempty]
        rw [List.isEmpty_iff.mp hempty] at hswept
        have hlimit : d + 1 ≤ d + (levels + 1) := by omega
        constructor
        · intro k
          rw [hswept.visited]
          constructor
          · rintro ⟨j, hj, hm⟩
            exact ⟨j, Nat.lt_of_lt_of_le hj hlimit, hm⟩
          · rintro ⟨j, -, m, hm, rfl⟩
            rcases Nat.lt_or_ge j (d + 1) with hj | hj
            · exact ⟨j, hj, m, hm, rfl⟩
            · exact hswept.exists_below happart hj hm
        · intro k
          rw [hswept.found]
          constructor
          · rintro ⟨j, hj, hm⟩
            exact ⟨j, Nat.lt_of_lt_of_le hj hlimit, hm⟩
          · rintro ⟨j, -, m, hm, htop, rfl⟩
            rcases Nat.lt_or_ge j (d + 1) with hj | hj
            · exact ⟨j, hj, m, hm, htop, rfl⟩
            · obtain ⟨i, hi, below, hbelow, hkey⟩ := hswept.exists_below happart hj hm
              have hsame := happart.isTop_eq ⟨i, hbelow⟩ ⟨j, hm⟩ hkey
              exact ⟨i, hi, below, hbelow, hsame.trans htop, hkey⟩
      · rw [if_neg hempty, ← Nat.add_assoc, Nat.add_right_comm]
        exact ih hswept

end Levels

end Answers

end EntryPoints

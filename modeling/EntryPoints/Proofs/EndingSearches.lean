import EntryPoints.Proofs.InterruptedRun
import Mathlib.Data.Multiset.DershowitzManna

/-!
# Searches that end

The search goes level by level and counts down the levels that are left.  Item by item it is a
loop over one queue of methods with their depths, which goes on until the queue is empty.  The
loop has no bound: one item may put any number of others into the queue, keys come back, a graph
without end never runs out of new ones, and a knowledge base may tell other callers each time.

What ends it are the depths.  An item is worth the levels that it has left below the limit.  It is
replaced by items one level further up, which are worth less, or by none, when its key was met or
it is beyond the limit.  So the multiset of what the items are worth falls with every turn, in the
order of Dershowitz and Manna.
-/

namespace EntryPoints.Search

variable {σ ρ : Type}

/-- A method that waits to be taken up, with its distance from the start. -/
structure Waiting where
  method : Method
  depth : Nat

def waitingAt (depth : Nat) (methods : List Method) : List Waiting :=
  methods.map fun method => ⟨method, depth⟩

section Loop

variable (setting : Setting σ ρ) (watcher : Watcher ρ) (limit : Int)

/-- What the loop does about the first item of the queue, and the queue that it leaves. -/
def turn (item : Waiting) (rest : List Waiting) (tally : Tally) :
    Run σ ρ (List Waiting × Tally) := do
  let tally ← takeUp setting watcher rest.length tally
  if limit < item.depth then
    return (rest, { tally with cutOff := item.method.key :: tally.cutOff })
  else
    let (methods, tally) ← visit setting item.method tally
    return (rest ++ waitingAt (item.depth + 1) methods, tally)

/-- The loop over a queue, with the number of its turns and how it ends: the queue is empty, or a
turn is broken off. -/
inductive Loops : List Waiting → Tally → RunState σ ρ → Nat →
    Except Failure Tally × RunState σ ρ → Prop
  | done {tally : Tally} {s : RunState σ ρ} : Loops [] tally s 0 (.ok tally, s)
  | stop {item : Waiting} {rest : List Waiting} {tally : Tally} {failure : Failure}
      {s t : RunState σ ρ}
      (hturn : turn setting watcher limit item rest tally s = (.error failure, t)) :
      Loops (item :: rest) tally s 1 (.error failure, t)
  | next {item : Waiting} {rest queue : List Waiting} {tally after : Tally} {n : Nat}
      {s t : RunState σ ρ} {ending : Except Failure Tally × RunState σ ρ}
      (hturn : turn setting watcher limit item rest tally s = (.ok (queue, after), t))
      (others : Loops queue after t n ending) : Loops (item :: rest) tally s (n + 1) ending

end Loop

variable {setting : Setting σ ρ} {watcher : Watcher ρ} {limit : Int}

/-! ## One turn -/

theorem eq_ok_of_bind {α β : Type} {action : Run σ ρ α} {next : α → Run σ ρ β} {b : β}
    {s t : RunState σ ρ} (hok : (action >>= next) s = (.ok b, t)) :
    ∃ a u, action s = (.ok a, u) ∧ next a u = (.ok b, t) := by
  rw [Run.bind_apply] at hok
  cases haction : action s with
  | mk result u =>
      rw [haction] at hok
      cases result with
      | ok a => exact ⟨a, u, rfl, hok⟩
      | error failure => cases hok

theorem of_takeUp {queued : Nat} {tally after : Tally} {s t : RunState σ ρ}
    (hok : takeUp setting watcher queued tally s = (.ok after, t)) :
    after = { tally with processed := tally.processed + 1 } := by
  unfold takeUp at hok
  obtain ⟨-, u, -, hok⟩ := eq_ok_of_bind hok
  obtain ⟨report, v, -, hok⟩ := eq_ok_of_bind hok
  cases report with
  | some failure => cases hok
  | none => cases hok; rfl

theorem of_visit {m : Method} {methods : List Method} {tally after : Tally} {s t : RunState σ ρ}
    (hok : visit setting m tally s = (.ok (methods, after), t)) :
    after.processed = tally.processed := by
  unfold visit at hok
  split at hok
  · cases hok; rfl
  · obtain ⟨⟨found, isTop⟩, u, -, hok⟩ := eq_ok_of_bind hok
    cases hok
    split <;> rfl

/-- An item makes way for items one step further up, or for none beyond the limit. -/
theorem of_turn {item : Waiting} {rest queue : List Waiting} {tally after : Tally}
    {s t : RunState σ ρ}
    (hok : turn setting watcher limit item rest tally s = (.ok (queue, after), t)) :
    (∃ methods, queue = rest ++ waitingAt (item.depth + 1) methods ∧
        (limit < item.depth → methods = [])) ∧
      after.processed = tally.processed + 1 := by
  unfold turn at hok
  obtain ⟨taken, u, htaken, hok⟩ := eq_ok_of_bind hok
  have hprocessed : taken.processed = tally.processed + 1 := by rw [of_takeUp htaken]
  split at hok
  next hbeyond =>
    cases hok
    exact ⟨⟨[], by simp [waitingAt], fun _ => rfl⟩, hprocessed⟩
  next hwithin =>
    obtain ⟨⟨methods, visited⟩, v, hvisit, hok⟩ := eq_ok_of_bind hok
    cases hok
    exact ⟨⟨methods, rfl, fun hbeyond => absurd hbeyond hwithin⟩,
      (of_visit hvisit).trans hprocessed⟩

/-! ## The loop ends -/

/-- The levels from a depth up to the limit. -/
def levelsFrom (limit : Int) (depth : Nat) : Nat := (limit + 1 - depth).toNat

/-- What the items of a queue are worth. -/
def worths (limit : Int) (queue : List Waiting) : Multiset Nat :=
  queue.map fun item => levelsFrom limit item.depth

theorem worths_turn {item : Waiting} {methods : List Method} (rest : List Waiting)
    (hbeyond : limit < item.depth → methods = []) :
    (worths limit (rest ++ waitingAt (item.depth + 1) methods)).IsDershowitzMannaLT
      (worths limit (item :: rest)) := by
  refine ⟨worths limit rest, worths limit (waitingAt (item.depth + 1) methods),
    {levelsFrom limit item.depth}, by simp, by simp [worths], ?_, ?_⟩
  · rw [worths, List.map_cons, ← Multiset.cons_coe, ← Multiset.singleton_add, add_comm]
    rfl
  intro w hw
  refine ⟨levelsFrom limit item.depth, Multiset.mem_singleton_self _, ?_⟩
  simp only [worths, waitingAt, List.map_map, Multiset.mem_coe, List.mem_map,
    Function.comp_apply] at hw
  obtain ⟨m, hm, rfl⟩ := hw
  have hwithin : (item.depth : Int) ≤ limit :=
    Int.not_lt.mp fun h => List.not_mem_nil (hbeyond h ▸ hm)
  simp only [levelsFrom]
  omega

theorem exists_loops (setting : Setting σ ρ) (watcher : Watcher ρ) (limit : Int)
    (queue : List Waiting) (tally : Tally) (s : RunState σ ρ) :
    ∃ n ending, Loops setting watcher limit queue tally s n ending := by
  have hfounded := Multiset.wellFounded_isDershowitzMannaLT (α := Nat)
  induction hworths : worths limit queue using hfounded.induction generalizing queue tally s with
  | _ _ ih =>
      cases queue with
      | nil => exact ⟨0, _, .done⟩
      | cons item rest =>
          cases hturn : turn setting watcher limit item rest tally s with
          | mk result t =>
              cases result with
              | error failure => exact ⟨1, _, .stop hturn⟩
              | ok left =>
                  obtain ⟨⟨methods, hqueue, hbeyond⟩, -⟩ := of_turn hturn
                  have hless := worths_turn rest hbeyond
                  rw [← hqueue, hworths] at hless
                  obtain ⟨n, ending, others⟩ := ih _ hless left.1 left.2 t rfl
                  exact ⟨n + 1, ending, .next hturn others⟩

theorem Loops.unique {queue : List Waiting} {tally : Tally} {s : RunState σ ρ} {n k : Nat}
    {ending other : Except Failure Tally × RunState σ ρ}
    (h : Loops setting watcher limit queue tally s n ending)
    (hother : Loops setting watcher limit queue tally s k other) : k = n ∧ other = ending := by
  induction h generalizing k other with
  | done =>
      cases hother
      exact ⟨rfl, rfl⟩
  | stop hturn =>
      cases hother with
      | stop hagain => rw [hturn] at hagain; cases hagain; exact ⟨rfl, rfl⟩
      | next hagain others => rw [hturn] at hagain; cases hagain
  | next hturn _ ih =>
      cases hother with
      | stop hagain => rw [hturn] at hagain; cases hagain
      | next hagain others =>
          rw [hturn] at hagain
          cases hagain
          obtain ⟨rfl, rfl⟩ := ih others
          exact ⟨rfl, rfl⟩

theorem Loops.processed {queue : List Waiting} {tally after : Tally} {s t : RunState σ ρ} {n : Nat}
    (h : Loops setting watcher limit queue tally s n (.ok after, t)) :
    after.processed = tally.processed + n := by
  generalize hending : (Except.ok after, t) = ending at h
  induction h with
  | done => cases hending; rfl
  | stop => cases hending
  | next hturn _ ih =>
      rw [ih hending, (of_turn hturn).2]
      omega

/-! ## The search is the loop -/

section Turn

variable {item : Waiting} {rest : List Waiting} {tally taken : Tally} {s t : RunState σ ρ}

theorem turn_of_broken {failure : Failure}
    (htaken : takeUp setting watcher rest.length tally s = (.error failure, t)) :
    turn setting watcher limit item rest tally s = (.error failure, t) := by
  unfold turn
  rw [Run.bind_apply, htaken]

theorem turn_of_beyond (hbeyond : limit < item.depth)
    (htaken : takeUp setting watcher rest.length tally s = (.ok taken, t)) :
    turn setting watcher limit item rest tally s =
      (.ok (rest, { taken with cutOff := item.method.key :: taken.cutOff }), t) := by
  unfold turn
  rw [Run.bind_apply, htaken]
  simp only [if_pos hbeyond]
  rfl

theorem turn_of_within (item : Waiting) (hwithin : ¬ limit < item.depth)
    (htaken : takeUp setting watcher rest.length tally s = (.ok taken, t)) :
    turn setting watcher limit item rest tally s =
      match visit setting item.method taken t with
      | (.ok (methods, visited), u) =>
          (.ok (rest ++ waitingAt (item.depth + 1) methods, visited), u)
      | (.error failure, u) => (.error failure, u) := by
  unfold turn
  rw [Run.bind_apply, htaken]
  simp only [if_neg hwithin]
  rw [Run.bind_apply]
  cases visit setting item.method taken t with
  | mk result u => cases result <;> rfl

end Turn

@[simp] theorem length_waitingAt (depth : Nat) (methods : List Method) :
    (waitingAt depth methods).length = methods.length := List.length_map _

@[simp] theorem waitingAt_append (depth : Nat) (methods more : List Method) :
    waitingAt depth (methods ++ more) = waitingAt depth methods ++ waitingAt depth more :=
  List.map_append

/-- Beyond the limit every item is noted as cut off. -/
theorem loops_cutOff {depth : Nat} (hbeyond : limit < depth) (level : List Method) (tally : Tally)
    (s : RunState σ ρ) :
    ∃ n, Loops setting watcher limit (waitingAt depth level) tally s n
      (cutOff setting watcher level tally s) := by
  induction level generalizing tally s with
  | nil => exact ⟨0, .done⟩
  | cons m level ih =>
      unfold cutOff
      rw [Run.bind_apply]
      have hqueued : level.length = (waitingAt depth level).length := by simp
      rw [hqueued]
      cases htaken : takeUp setting watcher (waitingAt depth level).length tally s with
      | mk result t =>
          cases result with
          | error failure => exact ⟨1, .stop (turn_of_broken htaken)⟩
          | ok taken =>
              obtain ⟨n, others⟩ := ih { taken with cutOff := m.key :: taken.cutOff } t
              exact ⟨n + 1, .next (turn_of_beyond hbeyond htaken) others⟩

/-- A level is taken up before the one above it, which waits behind it.  When the loop goes on
from there like `above`, it goes like the sweep and then `above`. -/
theorem loops_sweep (setting : Setting σ ρ) (watcher : Watcher ρ) {depth : Nat}
    (hwithin : ¬ limit < depth) (above : Array Method × Tally → Run σ ρ Tally)
    (habove : ∀ next tally s, ∃ n, Loops setting watcher limit
      (waitingAt (depth + 1) next.toList) tally s n (above (next, tally) s))
    (level : List Method) (next : Array Method) (tally : Tally) (s : RunState σ ρ) :
    ∃ n, Loops setting watcher limit
      (waitingAt depth level ++ waitingAt (depth + 1) next.toList) tally s n
      ((sweep setting watcher level next tally >>= above) s) := by
  induction level generalizing next tally s with
  | nil => exact habove next tally s
  | cons m level ih =>
      unfold sweep
      simp only [bind_assoc]
      rw [Run.bind_apply]
      have hqueued : level.length + next.size =
          (waitingAt depth level ++ waitingAt (depth + 1) next.toList).length := by simp
      rw [hqueued]
      cases htaken : takeUp setting watcher
          (waitingAt depth level ++ waitingAt (depth + 1) next.toList).length tally s with
      | mk result t =>
          cases result with
          | error failure => exact ⟨1, .stop (turn_of_broken htaken)⟩
          | ok taken =>
              have hturn := turn_of_within ⟨m, depth⟩ hwithin htaken
              simp only
              rw [Run.bind_apply]
              cases hvisit : visit setting m taken t with
              | mk visited u =>
                  rw [hvisit] at hturn
                  cases visited with
                  | error failure => exact ⟨1, .stop hturn⟩
                  | ok found =>
                      obtain ⟨n, others⟩ := ih (next ++ found.1) found.2 u
                      refine ⟨n + 1, .next hturn ?_⟩
                      simpa using others

theorem loops_explore (setting : Setting σ ρ) (watcher : Watcher ρ) (levels depth : Nat)
    (hlevels : levels = levelsFrom limit depth) (frontier : List Method) (tally : Tally)
    (s : RunState σ ρ) :
    ∃ n, Loops setting watcher limit (waitingAt depth frontier) tally s n
      (explore setting watcher levels frontier tally s) := by
  induction levels generalizing depth frontier tally s with
  | zero =>
      have hbeyond : limit < depth := by
        simp only [levelsFrom] at hlevels
        omega
      exact loops_cutOff hbeyond frontier tally s
  | succ levels ih =>
      have hwithin : ¬ limit < depth := by
        simp only [levelsFrom] at hlevels
        omega
      have hnext : levels = levelsFrom limit (depth + 1) := by
        simp only [levelsFrom] at hlevels ⊢
        omega
      unfold explore
      have hsweep := loops_sweep setting watcher hwithin (fun swept =>
          if swept.1.isEmpty then pure swept.2
          else explore setting watcher levels swept.1.toList swept.2)
        ?_ frontier #[] tally s
      · rwa [Array.toList_empty, waitingAt, waitingAt, List.map_nil, List.append_nil] at hsweep
      · intro next tally s
        by_cases hempty : next.isEmpty = true
        · simp only [if_pos hempty]
          rw [Array.isEmpty_iff.mp hempty]
          exact ⟨0, .done⟩
        · simp only [if_neg hempty]
          exact ih (depth + 1) hnext next.toList tally s

/-- Started on one method, the loop goes like the search. -/
theorem loops_search (setting : Setting σ ρ) (watcher : Watcher ρ) (start : Method) (limit : Int)
    (s : RunState σ ρ) : ∃ n, Loops setting watcher limit [⟨start, 0⟩] {} s n
      (explore setting watcher (levelsWithin limit) [start] {} s) := by
  have hlevels : levelsWithin limit = levelsFrom limit 0 := by
    simp only [levelsWithin, levelsFrom]
    omega
  exact loops_explore setting watcher _ 0 hlevels [start] {} s

theorem topCallers_apply (setting : Setting σ ρ) (watcher : Watcher ρ) (start : Method)
    (limit : Int) (s : RunState σ ρ) : topCallers setting watcher start limit s =
      ((explore setting watcher (levelsWithin limit) [start] {} s).1.map (Tally.toResult start),
        (explore setting watcher (levelsWithin limit) [start] {} s).2) := by
  unfold topCallers
  rw [Run.bind_apply]
  cases explore setting watcher (levelsWithin limit) [start] {} s with
  | mk outcome t => cases outcome <;> rfl

/-- The loop of a search ends after finitely many turns, whatever the queue, the tally, the cache
and the knowledge base are, and in one way only.  Started on one method it is the search, and a
search that nothing breaks off has taken up as many items as the loop has turns. -/
theorem search_ends (setting : Setting σ ρ) (watcher : Watcher ρ) (start : Method) (limit : Int)
    (s : RunState σ ρ) :
    (∀ queue tally t, ∃! ending : Nat × Except Failure Tally × RunState σ ρ,
        Loops setting watcher limit queue tally t ending.1 ending.2) ∧
      ∃ n outcome t, Loops setting watcher limit [⟨start, 0⟩] {} s n (outcome, t) ∧
        topCallers setting watcher start limit s = (outcome.map (Tally.toResult start), t) ∧
        ∀ result, (topCallers setting watcher start limit s).1 = .ok result →
          result.processedCount = n := by
  refine ⟨fun queue tally t => ?_, ?_⟩
  · obtain ⟨n, ending, hloops⟩ := exists_loops setting watcher limit queue tally t
    refine ⟨(n, ending), hloops, fun other hother => ?_⟩
    obtain ⟨hturns, hending⟩ := hloops.unique hother
    exact Prod.ext hturns hending
  · obtain ⟨n, hloops⟩ := loops_search setting watcher start limit s
    have hsearch := topCallers_apply setting watcher start limit s
    refine ⟨n, _, _, hloops, hsearch, fun result hresult => ?_⟩
    rw [hsearch] at hresult
    cases hended : explore setting watcher (levelsWithin limit) [start] {} s with
    | mk outcome t =>
        rw [hended] at hloops hresult
        cases outcome with
        | error failure => cases hresult
        | ok tally =>
            cases hresult
            simpa [Tally.toResult] using hloops.processed

end EntryPoints.Search

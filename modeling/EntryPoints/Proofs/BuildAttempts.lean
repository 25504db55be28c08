import EntryPoints.Proofs.InstalledSnapshot
import Mathlib.Data.List.Infix

/-!
# Waiting for the index

Whoever waits for an index without a limit of time waits until the last build has ended.  An
attempt in the background withdraws the index before it looks for a repository, and where there
is none it gives up without a word to those who wait.  With a repository every attempt ends with
an installed snapshot or with a failure that is noted, and both end the wait.

So one attempt is a test of two things, whether there is a repository and where the attempt runs.
A sequence of attempts comes down to the last one when there is a repository, and to all of them
when there is none: nothing that is withdrawn then ever comes back.
-/

namespace EntryPoints

/-- An attempt to build the index from a disk; one in the background is waited for. -/
inductive BuildAttempt where
  | foreground (disk : Disk)
  | background (disk : Disk)

def BuildAttempt.isForeground : BuildAttempt → Bool
  | .foreground _ => true
  | .background _ => false

namespace IndexState

variable (settings : IndexSettings) (state : IndexState)

def attempt : BuildAttempt → IndexState
  | .foreground disk => (state.build settings disk).2
  | .background disk => state.buildInBackground settings disk

def attemptAll (attempts : List BuildAttempt) : IndexState :=
  attempts.foldl (fun state tried => state.attempt settings tried) state

/-- What waiting without a limit of time comes to, or nothing if it lasts for ever. -/
def wait : Option (Except Failure Snapshot) :=
  if state.isSettled then some state.settled else none

theorem awaitFor_eq (seconds : String) :
    state.awaitFor seconds = state.wait.getD (.error (.indexLate seconds)) := by
  unfold awaitFor wait
  split <;> rfl

theorem settled_cases :
    (∃ snapshot, state.settled = .ok snapshot) ∨
      ∃ cause, state.settled = .error (.unusableIndex cause) := by
  unfold settled
  cases state.snapshot with
  | some snapshot => exact .inl ⟨snapshot, rfl⟩
  | none => exact .inr ⟨state.failure, rfl⟩

/-! ## One attempt -/

variable {settings state}

theorem build_of_no_repository (hnone : settings.repository? = none) (disk : Disk) :
    (state.build settings disk).2 = state := by
  rcases state.build_exits settings disk with ⟨-, hbuilt⟩ | ⟨repository, hsome, -⟩
  · rw [hbuilt]
  · rw [hnone] at hsome
    cases hsome

theorem isSettled_build (hsome : settings.repository?.isSome = true) (disk : Disk) :
    (state.build settings disk).2.isSettled = true := by
  rcases state.build_exits settings disk with
    ⟨hnone, -⟩ | ⟨repository, -, ⟨sources, -, hbuilt⟩ | ⟨failure, -, hbuilt⟩⟩
  · rw [hnone] at hsome
    cases hsome
  · rw [hbuilt]
    rfl
  · rw [hbuilt]

theorem isSettled_attempt (tried : BuildAttempt) :
    (state.attempt settings tried).isSettled =
      (settings.repository?.isSome || (state.isSettled && tried.isForeground)) := by
  cases hrepository : settings.repository? with
  | some repository =>
      have hsome : settings.repository?.isSome = true := by rw [hrepository]; rfl
      cases tried with
      | foreground disk => exact isSettled_build hsome disk
      | background disk => exact isSettled_build hsome disk
  | none =>
      cases tried with
      | foreground disk =>
          simp [attempt, build_of_no_repository hrepository, BuildAttempt.isForeground]
      | background disk =>
          simp [attempt, buildInBackground, build_of_no_repository hrepository,
            BuildAttempt.isForeground]

/-! ## Sequences of attempts -/

theorem attemptAll_concat (done : List BuildAttempt) (last : BuildAttempt) :
    state.attemptAll settings (done ++ [last]) =
      (state.attemptAll settings done).attempt settings last := by
  simp [attemptAll]

theorem isSettled_attemptAll (hnone : settings.repository? = none) (attempts : List BuildAttempt) :
    (state.attemptAll settings attempts).isSettled =
      (state.isSettled && attempts.all BuildAttempt.isForeground) := by
  induction attempts using List.reverseRecOn with
  | nil => simp [attemptAll]
  | append_singleton done last ih =>
      rw [attemptAll_concat, isSettled_attempt, ih, hnone]
      simp [Bool.and_assoc]

/-- After the last of some attempts the wait is over, if there is a repository, and otherwise if
it was over before and every attempt ran in the foreground. -/
theorem isSettled_attemptAll_iff {attempts : List BuildAttempt} (hattempts : attempts ≠ []) :
    (state.attemptAll settings attempts).isSettled = true ↔
      settings.repository?.isSome = true ∨
        state.isSettled = true ∧ ∀ tried ∈ attempts, tried.isForeground = true := by
  cases hrepository : settings.repository? with
  | none => simp [isSettled_attemptAll hrepository]
  | some repository =>
      have hsplit := List.dropLast_append_getLast hattempts
      rw [← hsplit, attemptAll_concat, isSettled_attempt, hrepository]
      simp

/-- Whoever waits after the last of some attempts gets the index or is told that it cannot be
used, and an index that has a snapshot is ready after every single one, exactly when there is a
repository, or the index was there before and all attempts were made in the foreground. -/
theorem wait_ends_iff (settings : IndexSettings) (first : IndexState) {attempts : List BuildAttempt}
    (hattempts : attempts ≠ []) :
    ((∃ answer, (first.attemptAll settings attempts).wait = some answer ∧
        ((∃ snapshot, answer = .ok snapshot) ∨
          ∃ cause, answer = .error (.unusableIndex cause))) ∧
      ∀ done, done <+: attempts → done ≠ [] →
        (first.attemptAll settings done).snapshot.isSome = true →
          (first.attemptAll settings done).isReady = true) ↔
      settings.repository?.isSome = true ∨
        first.isSettled = true ∧ ∀ tried ∈ attempts, tried.isForeground = true := by
  constructor
  · rintro ⟨⟨answer, hanswer, -⟩, -⟩
    refine (isSettled_attemptAll_iff hattempts).mp ?_
    unfold wait at hanswer
    split at hanswer
    · assumption
    · cases hanswer
  · intro h
    refine ⟨⟨_, if_pos ((isSettled_attemptAll_iff hattempts).mpr h), settled_cases _⟩, ?_⟩
    intro done hdone hnonempty hinstalled
    have hsettled : (first.attemptAll settings done).isSettled = true := by
      refine (isSettled_attemptAll_iff hnonempty).mpr (h.imp_right fun hbefore => ?_)
      exact ⟨hbefore.1, fun tried htried => hbefore.2 tried (hdone.subset htried)⟩
    simp [isReady, hsettled, hinstalled]

/-- The directory of the repository is missing in both attempts, and the wait ends all the same. -/
theorem wait_ends_without_directory : ∃ answer,
    (attemptAll Service.overRepo.settings {} [.background {}, .foreground {}]).wait =
      some answer := by
  have hattempts : [BuildAttempt.background {}, .foreground {}] ≠ [] := List.cons_ne_nil _ _
  obtain ⟨⟨answer, hanswer, -⟩, -⟩ :=
    (wait_ends_iff Service.overRepo.settings {} hattempts).mpr (.inl rfl)
  exact ⟨answer, hanswer⟩

/-- The index of sources that are given belongs to no repository.  An attempt in the background
leaves it withdrawn, although it still has its snapshot; and where there was no index, an attempt
in the foreground leaves everyone waiting too. -/
theorem wait_lasts_without_repository :
    let given := install (IndexSettings.snapshotOf {} [("A.java", Service.called)])
    let after := given.attemptAll {} [.background {}]
    after.wait = none ∧ after.snapshot.isSome = true ∧ after.isReady = false ∧
      (attemptAll {} {} [.foreground {}]).wait = none :=
  ⟨rfl, rfl, rfl, rfl⟩

end IndexState

end EntryPoints

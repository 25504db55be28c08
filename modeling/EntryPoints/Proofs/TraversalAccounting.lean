import EntryPoints.Proofs.EndingSearches
import EntryPoints.Proofs.OverlookedState
import EntryPoints.Proofs.SearchExactness

/-!
# Accounting for a search

The loop of a search takes up one item of its queue at a time and reports it.  What it reports
balances.  Every item but the start was put into the queue by a method that was expanded earlier,
and an expanded method puts in one item for each of its substitutes or callers.  So the items taken
up so far and those that still wait are one more than the lengths of these lists add up to.

Nothing else moves the balance.  An item whose key was met before leaves the queue and puts nothing
in, and so does an item beyond the depth limit, which is noted as cut off instead.  Since an item
lies one level above the method that put it in, and no method beyond the limit is expanded, the
items beyond the limit are those one level above it.
-/

namespace EntryPoints

variable {σ ρ : Type}

/-! ## Recorded reports -/

/-- A watcher that keeps all the reports that it is given. -/
def Watcher.recording (watcher : Watcher ρ) : Watcher (ρ × List Progress) where
  isCancelled := fun (w, reports) =>
    let (answer, w) := watcher.isCancelled w
    (answer, w, reports)
  report progress := fun (w, reports) =>
    let (answer, w) := watcher.report progress w
    (answer, w, reports ++ [progress])

def RunState.putReports (reports : List Progress) (s : RunState σ (ρ × List Progress)) :
    RunState σ (ρ × List Progress) :=
  { s with watch := (s.watch.1, reports) }

theorem sparesCache_putReports :
    SparesCache (RunState.putReports : _ → RunState σ (ρ × List Progress) → _) where
  cache _ _ := rfl
  recache _ _ _ := rfl

theorem Ignores.reports_eq {γ : Type} {action : StateM (RunState σ (ρ × List Progress)) γ}
    (haction : Ignores RunState.putReports action) (s : RunState σ (ρ × List Progress)) :
    (action s).2.watch.2 = s.watch.2 :=
  congrArg (fun ran => ran.2.watch.2) (haction s.watch.2 s)

theorem Finder.overlooks_reports (finder : Finder) (base : KnowledgeBase σ) (scope : Scope)
    (watcher : Watcher ρ) :
    (finder.setting base scope (Run.checkpoint base watcher.recording)).Overlooks
      RunState.putReports :=
  Setting.overlooks_of_questions (fun _ _ _ => rfl)
    (Run.ignores_checkpoint (fun _ _ => rfl) (fun _ _ => rfl))

theorem Undisturbed.recording {base : KnowledgeBase σ} {watcher : Watcher ρ}
    (h : Undisturbed base watcher) : Undisturbed base watcher.recording where
  owner w := h.owner w.1
  request := h.request
  report progress w := h.report progress w.1

/-! ## The turns of a queue -/

namespace Search

/-- An item that was taken up, and whether its method was expanded then. -/
structure Turn where
  item : Waiting
  isExpanded : Bool

def Turn.isBeyond (limit : Int) (turn : Turn) : Bool := limit < turn.item.depth

/-- The methods that were expanded, in their order. -/
def expandedBy (turns : List Turn) : List Method :=
  (turns.filter Turn.isExpanded).map fun turn => turn.item.method

@[simp] theorem expandedBy_skipped (item : Waiting) (turns : List Turn) :
    expandedBy (⟨item, false⟩ :: turns) = expandedBy turns := rfl

@[simp] theorem expandedBy_expanded (item : Waiting) (turns : List Turn) :
    expandedBy (⟨item, true⟩ :: turns) = item.method :: expandedBy turns := rfl

/-- The keys of the items beyond the limit, in their order. -/
def keysBeyond (limit : Int) (turns : List Turn) : List String :=
  (turns.filter (Turn.isBeyond limit)).map fun turn => turn.item.method.key

end Search

namespace Answers

open Search

variable (answers : Answers) (names : List String)

/-- The items that are taken up from a queue when the keys `visited` were met before.  Those that
an item puts in wait behind all the others. -/
inductive Turns (limit : Int) : List Waiting → Std.HashSet String → List Turn → Prop
  | done {visited : Std.HashSet String} : Turns limit [] visited []
  | beyond {item : Waiting} {rest : List Waiting} {visited : Std.HashSet String}
      {turns : List Turn} (hbeyond : limit < item.depth) (others : Turns limit rest visited turns) :
      Turns limit (item :: rest) visited (⟨item, false⟩ :: turns)
  | again {item : Waiting} {rest : List Waiting} {visited : Std.HashSet String}
      {turns : List Turn} (hwithin : item.depth ≤ limit) (hmet : item.method.key ∈ visited)
      (others : Turns limit rest visited turns) :
      Turns limit (item :: rest) visited (⟨item, false⟩ :: turns)
  | expand {item : Waiting} {rest : List Waiting} {visited : Std.HashSet String}
      {turns : List Turn} (hwithin : item.depth ≤ limit) (hnew : item.method.key ∉ visited)
      (others : Turns limit (rest ++ waitingAt (item.depth + 1) (answers.next names item.method))
        (visited.insert item.method.key) turns) :
      Turns limit (item :: rest) visited (⟨item, true⟩ :: turns)

/-- How many items the expansion of some methods puts into the queue. -/
def work (methods : List Method) : Nat := (methods.map fun m => (answers.next names m).length).sum

variable {answers names} {limit : Int} {queue : List Waiting} {visited : Std.HashSet String}
  {turns : List Turn}

@[simp] theorem work_cons (m : Method) (methods : List Method) :
    answers.work names (m :: methods) =
      (answers.next names m).length + answers.work names methods := by
  simp [work]

namespace Turns

theorem length_eq (h : answers.Turns names limit queue visited turns) :
    turns.length = queue.length + answers.work names (expandedBy turns) := by
  induction h with
  | done => rfl
  | beyond _ _ ih | again _ _ _ ih =>
      rw [expandedBy_skipped, List.length_cons, List.length_cons, ih]
      omega
  | expand _ _ _ ih =>
      rw [expandedBy_expanded, work_cons, List.length_cons, List.length_cons, ih,
        List.length_append, length_waitingAt]
      omega

/-- Nothing is put in more than one level above the limit. -/
theorem depth_le (h : answers.Turns names limit queue visited turns)
    (hqueue : ∀ item ∈ queue, (item.depth : Int) ≤ limit + 1) :
    ∀ turn ∈ turns, (turn.item.depth : Int) ≤ limit + 1 := by
  induction h with
  | done => simp
  | beyond _ _ ih | again _ _ _ ih =>
      rw [List.forall_mem_cons] at hqueue ⊢
      exact ⟨hqueue.1, ih hqueue.2⟩
  | @expand item rest _ _ hwithin _ _ ih =>
      rw [List.forall_mem_cons] at hqueue ⊢
      refine ⟨hqueue.1, ih fun other hother => ?_⟩
      rcases List.mem_append.mp hother with hother | hother
      · exact hqueue.2 other hother
      · obtain ⟨m, -, rfl⟩ := List.mem_map.mp hother
        push_cast
        omega

/-- The queue and the keys that were met decide all the turns. -/
theorem unique (h : answers.Turns names limit queue visited turns) {others : List Turn}
    (hothers : answers.Turns names limit queue visited others) : others = turns := by
  induction h generalizing others with
  | done =>
      cases hothers
      rfl
  | beyond hbeyond _ ih =>
      cases hothers with
      | beyond _ rest => rw [ih rest]
      | again hwithin => exact absurd hwithin (Int.not_le.mpr hbeyond)
      | expand hwithin => exact absurd hwithin (Int.not_le.mpr hbeyond)
  | again hwithin hmet _ ih =>
      cases hothers with
      | beyond hbeyond => exact absurd hwithin (Int.not_le.mpr hbeyond)
      | again _ _ rest => rw [ih rest]
      | expand _ hnew => exact absurd hmet hnew
  | expand hwithin hnew _ ih =>
      cases hothers with
      | beyond hbeyond => exact absurd hwithin (Int.not_le.mpr hbeyond)
      | again _ hmet => exact absurd hmet hnew
      | expand _ _ rest => rw [ih rest]

/-- No key is expanded twice. -/
theorem nodup_keys (h : answers.Turns names limit queue visited turns) :
    ((expandedBy turns).map Method.key).Nodup ∧ ∀ m ∈ expandedBy turns, m.key ∉ visited := by
  induction h with
  | done => simp [expandedBy]
  | beyond _ _ ih | again _ _ _ ih => exact ih
  | @expand item rest visited turns hwithin hnew others ih =>
      obtain ⟨hnodup, hfresh⟩ := ih
      rw [expandedBy_expanded, List.map_cons, List.nodup_cons, List.forall_mem_cons]
      refine ⟨⟨?_, hnodup⟩, hnew, fun m hm hvisited => ?_⟩
      · intro hkey
        obtain ⟨m, hm, hkey⟩ := List.mem_map.mp hkey
        exact hfresh m hm (by simp [hkey])
      · exact hfresh m hm (by simp [hvisited])

end Turns

/-- The reports about the turns of a queue with `queued` items, when `processed` items were taken
up before. -/
structure Balances (answers : Answers) (names : List String) (processed queued : Nat)
    (turns : List Turn) (reports : List Progress) : Prop where
  oneEach : reports.length = turns.length
  counted : ∀ k report, reports[k]? = some report → report.processed = processed + k + 1
  balanced : ∀ k report, reports[k]? = some report → report.processed + report.queued =
    processed + queued + answers.work names (expandedBy (turns.take k))

/-- A turn takes one item off the queue and may put the substitutes or callers of its method in. -/
theorem Balances.cons {processed queued waiting found : Nat} {turn : Turn}
    {reports : List Progress}
    (hturn : ∀ turns, queued + answers.work names (expandedBy (turn :: turns)) =
      waiting + answers.work names (expandedBy turns))
    (h : answers.Balances names (processed + 1) waiting turns reports) :
    answers.Balances names processed (queued + 1) (turn :: turns)
      (⟨processed + 1, found, queued⟩ :: reports) where
  oneEach := by rw [List.length_cons, List.length_cons, h.oneEach]
  counted := by
    intro k report hreport
    cases k with
    | zero =>
        cases hreport
        rfl
    | succ k =>
        rw [h.counted k report hreport]
        omega
  balanced := by
    intro k report hreport
    cases k with
    | zero =>
        cases hreport
        simp [work, expandedBy, Nat.add_right_comm, Nat.add_assoc]
    | succ k =>
        have hlater := hturn (turns.take k)
        rw [List.take_succ_cons, h.balanced k report hreport]
        omega

end Answers

/-! ## The loop takes these turns -/

theorem Run.Gives.exists_ok {α : Type} {Sound : CallerCache → Prop} {action : Run σ ρ α} {a : α}
    (haction : Run.Gives Sound (fun _ => False) action a) {s : RunState σ ρ} (hs : Sound s.cache) :
    ∃ t, action s = (.ok a, t) ∧ Sound t.cache :=
  ⟨(action s).2, Prod.ext (haction.eq_ok hs) rfl, (haction.apply hs).1⟩

namespace Answers

open Search

/-- What the record determines about the first item of a queue. -/
def turn (answers : Answers) (names : List String) (limit : Int) (item : Waiting)
    (rest : List Waiting) (tally : Tally) : List Waiting × Tally :=
  if limit < item.depth then
    (rest, { tally.takeUp with cutOff := item.method.key :: tally.cutOff })
  else
    let (methods, tally) := answers.visit names item.method tally.takeUp
    (rest ++ waitingAt (item.depth + 1) methods, tally)

variable {answers : Answers} {names : List String} {limit : Int} {item : Waiting}
  {rest : List Waiting} {tally : Tally}

theorem turn_of_beyond (hbeyond : limit < item.depth) :
    answers.turn names limit item rest tally =
      (rest, { tally.takeUp with cutOff := item.method.key :: tally.cutOff }) :=
  if_pos hbeyond

theorem turn_of_met (hwithin : item.depth ≤ limit) (hmet : item.method.key ∈ tally.visited) :
    answers.turn names limit item rest tally = (rest, tally.takeUp) := by
  have hmet : tally.takeUp.visited.contains item.method.key = true := hmet
  rw [turn, if_neg (Int.not_lt.mpr hwithin), visit, if_pos hmet]
  simp [waitingAt]

theorem turn_of_new (answers : Answers) (names : List String) (rest : List Waiting)
    (hwithin : item.depth ≤ limit) (hnew : item.method.key ∉ tally.visited) :
    ∃ found, answers.turn names limit item rest tally =
      (rest ++ waitingAt (item.depth + 1) (answers.next names item.method),
        { tally.takeUp with visited := tally.visited.insert item.method.key, found }) := by
  have hnew : ¬tally.takeUp.visited.contains item.method.key = true := hnew
  rw [turn, if_neg (Int.not_lt.mpr hwithin), visit, if_neg hnew]
  cases answers.isTop names item.method <;> exact ⟨_, rfl⟩

end Answers

namespace Search

variable {answers : Answers} {names : List String} {known : Method → Prop} {limit : Int}
  {setting : Setting σ (ρ × List Progress)} {watcher : Watcher ρ}

theorem reports_takeUp (hspares : setting.Overlooks RunState.putReports) {queued : Nat}
    {tally taken : Tally} {s t : RunState σ (ρ × List Progress)}
    (hok : takeUp setting watcher.recording queued tally s = (.ok taken, t)) :
    t.watch.2 = s.watch.2 ++ [⟨tally.processed + 1, tally.found.size, queued⟩] := by
  unfold takeUp at hok
  obtain ⟨_, u, hcheck, hok⟩ := eq_ok_of_bind hok
  obtain ⟨report, v, hreport, hok⟩ := eq_ok_of_bind hok
  have hchecked : u.watch.2 = s.watch.2 := by
    have hsame := hspares.checkpoint.reports_eq s
    rwa [hcheck] at hsame
  have hreported : v.watch.2 =
      u.watch.2 ++ [⟨tally.processed + 1, tally.found.size, queued⟩] := by
    cases hreport
    rfl
  cases report with
  | some failure => cases hok
  | none =>
      cases hok
      rw [hreported, hchecked]

/-- A turn that nothing disturbs goes as the record determines, and is reported once. -/
theorem Proceeds.turn_ok
    (h : Proceeds setting watcher.recording answers names known (fun _ => False) fun _ => False)
    (hspares : setting.Overlooks RunState.putReports) (limit : Int) {item : Waiting}
    (hitem : known item.method) (rest : List Waiting) (tally : Tally)
    {s : RunState σ (ρ × List Progress)} (hs : s.cache.Complete answers known) :
    ∃ t, turn setting watcher.recording limit item rest tally s =
        (.ok (answers.turn names limit item rest tally), t) ∧
      t.cache.Complete answers known ∧
      t.watch.2 = s.watch.2 ++ [⟨tally.processed + 1, tally.found.size, rest.length⟩] := by
  obtain ⟨u, htaken, hu⟩ := (h.gives_takeUp rest.length tally).exists_ok hs
  have hreported := reports_takeUp hspares htaken
  unfold Answers.turn
  by_cases hbeyond : limit < item.depth
  · rw [if_pos hbeyond]
    exact ⟨u, turn_of_beyond hbeyond htaken, hu, hreported⟩
  · obtain ⟨t, hvisited, ht⟩ := (h.gives_visit hitem tally.takeUp).exists_ok hu
    have hsame := (hspares.visit sparesCache_putReports item.method tally.takeUp).reports_eq u
    have hturn := turn_of_within item hbeyond htaken
    rw [hvisited] at hturn hsame
    rw [if_neg hbeyond]
    exact ⟨t, hturn, ht, hsame.trans hreported⟩

/-- What the loop over a queue has done when it is over. -/
structure Accounts (answers : Answers) (names : List String) (limit : Int) (queue : List Waiting)
    (tally : Tally) (s : RunState σ (ρ × List Progress)) (turns : List Turn) (after : Tally)
    (t : RunState σ (ρ × List Progress)) : Prop where
  taken : answers.Turns names limit queue tally.visited turns
  told : ∃ reports, t.watch.2 = s.watch.2 ++ reports ∧
    answers.Balances names tally.processed queue.length turns reports
  processed : after.processed = tally.processed + turns.length
  visited : ∀ key, key ∈ after.visited ↔
    key ∈ tally.visited ∨ key ∈ (expandedBy turns).map Method.key
  cutOff : after.cutOff.reverse = tally.cutOff.reverse ++ keysBeyond limit turns

theorem accounts_done (tally : Tally) (s : RunState σ (ρ × List Progress)) :
    Accounts answers names limit [] tally s [] tally s where
  taken := .done
  told := ⟨[], by simp, rfl, by simp, by simp⟩
  processed := rfl
  visited := by simp [expandedBy]
  cutOff := by simp [keysBeyond]

/-- The accounts of a loop are those of its first turn and those of the turns after it. -/
theorem Accounts.cons {item : Waiting} {rest : List Waiting} {tally after : Tally}
    {s u t : RunState σ (ρ × List Progress)} {turns : List Turn}
    (hreport : u.watch.2 = s.watch.2 ++ [⟨tally.processed + 1, tally.found.size, rest.length⟩])
    (h : Accounts answers names limit (answers.turn names limit item rest tally).1
      (answers.turn names limit item rest tally).2 u turns after t) :
    ∃ turn, Accounts answers names limit (item :: rest) tally s (turn :: turns) after t := by
  obtain ⟨reports, hreports, hbalances⟩ := h.told
  have hprocessed := h.processed
  have htold : t.watch.2 =
      s.watch.2 ++ ⟨tally.processed + 1, tally.found.size, rest.length⟩ :: reports := by
    rw [hreports, hreport, List.append_assoc, List.singleton_append]
  -- Only an item whose key is new puts others into the queue.
  by_cases hbeyond : limit < item.depth
  · rw [Answers.turn_of_beyond hbeyond] at h hbalances hprocessed
    refine ⟨⟨item, false⟩, .beyond hbeyond h.taken, ⟨_, htold, ?_⟩, ?_, h.visited, ?_⟩
    · exact Answers.Balances.cons (fun _ => rfl) hbalances
    · exact hprocessed.trans (Nat.add_right_comm _ _ _)
    · rw [h.cutOff]
      simp [keysBeyond, Turn.isBeyond, hbeyond]
  have hwithin : item.depth ≤ limit := Int.not_lt.mp hbeyond
  by_cases hmet : item.method.key ∈ tally.visited
  · rw [Answers.turn_of_met hwithin hmet] at h hbalances hprocessed
    refine ⟨⟨item, false⟩, .again hwithin hmet h.taken, ⟨_, htold, ?_⟩, ?_, h.visited, ?_⟩
    · exact Answers.Balances.cons (fun _ => rfl) hbalances
    · exact hprocessed.trans (Nat.add_right_comm _ _ _)
    · rw [h.cutOff]
      simp [keysBeyond, Turn.isBeyond, hbeyond, Tally.takeUp]
  · obtain ⟨found, hturn⟩ := answers.turn_of_new names rest hwithin hmet
    rw [hturn] at h hbalances hprocessed
    refine ⟨⟨item, true⟩, .expand hwithin hmet h.taken, ⟨_, htold, ?_⟩, ?_, fun key => ?_, ?_⟩
    · rw [List.length_append, length_waitingAt] at hbalances
      exact Answers.Balances.cons (by simp [Nat.add_assoc]) hbalances
    · exact hprocessed.trans (Nat.add_right_comm _ _ _)
    · rw [h.visited, Std.HashSet.mem_insert, beq_iff_eq, expandedBy_expanded, List.map_cons,
        List.mem_cons, eq_comm, or_assoc, or_left_comm]
    · rw [h.cutOff]
      simp [keysBeyond, Turn.isBeyond, hbeyond, Tally.takeUp]

theorem Proceeds.known_turn
    (h : Proceeds setting watcher.recording answers names known (fun _ => False) fun _ => False)
    (limit : Int) {item : Waiting} {rest : List Waiting}
    (hqueue : ∀ other ∈ item :: rest, known other.method) (tally : Tally) :
    ∀ other ∈ (answers.turn names limit item rest tally).1, known other.method := by
  rw [List.forall_mem_cons] at hqueue
  unfold Answers.turn
  split
  · exact hqueue.2
  · intro other hother
    rcases List.mem_append.mp hother with hother | hother
    · exact hqueue.2 other hother
    · obtain ⟨above, habove, rfl⟩ := List.mem_map.mp hother
      exact h.closed item.method hqueue.1 above ((Answers.mem_visit _ _ _).mp habove).2

/-- A loop that nothing disturbs takes the turns that the record determines. -/
theorem Proceeds.exists_accounts
    (h : Proceeds setting watcher.recording answers names known (fun _ => False) fun _ => False)
    (hspares : setting.Overlooks RunState.putReports) {queue : List Waiting} {tally : Tally}
    {s : RunState σ (ρ × List Progress)} {n : Nat}
    {ending : Except Failure Tally × RunState σ (ρ × List Progress)}
    (hloops : Loops setting watcher.recording limit queue tally s n ending)
    (hqueue : ∀ item ∈ queue, known item.method) (hs : s.cache.Complete answers known) :
    ∃ turns after t, ending = (.ok after, t) ∧
      Accounts answers names limit queue tally s turns after t := by
  induction hloops with
  | done => exact ⟨[], _, _, rfl, accounts_done _ _⟩
  | @stop item rest tally failure s t hturn =>
      obtain ⟨u, hok, -⟩ := h.turn_ok hspares limit (hqueue item (by simp)) rest tally hs
      rw [hok] at hturn
      cases hturn
  | @next item rest left tally between n s u ending hturn others ih =>
      obtain ⟨v, hok, hv, hreport⟩ := h.turn_ok hspares limit
        (hqueue item (by simp)) rest tally hs
      have hknown := h.known_turn limit hqueue tally
      rw [hok, Prod.mk.injEq, Except.ok.injEq] at hturn
      obtain ⟨hpair, rfl⟩ := hturn
      rw [hpair] at hknown
      obtain ⟨turns, after, t, hending, haccounts⟩ := ih hknown hv
      obtain ⟨turn, haccounts⟩ := Accounts.cons hreport (by rwa [hpair])
      exact ⟨turn :: turns, after, t, hending, haccounts⟩

end Search

/-! ## A whole search -/

variable {answers : Answers} {base : KnowledgeBase σ} {watcher : Watcher ρ}

/-- Expanding a method on an empty cache gives its substitutes or callers. -/
theorem Undisturbed.expand_eq (h : Undisturbed base watcher) (finder : Finder)
    (hbase : base.Follows answers) (m : Method) {s : RunState σ ρ}
    (hempty : ∀ key, s.cache.get? key = none) :
    (Search.expand (finder.setting base answers.productionScope (Run.checkpoint base watcher))
      m s).1 = .ok (answers.next finder.functional m, answers.isTop finder.functional m) := by
  have happart : answers.ToldApart finder.functional (· = m) :=
    Answers.ToldApart.of_key_injective fun _ _ hn hk _ => hn.trans hk.symm
  have hexpand := gives_expand (finder.setting_follows hbase (Run.checkpoint base watcher)) happart
    h.gives_checkpoint (fun _ hfalse => hfalse.elim) rfl
  exact hexpand.eq_ok (CallerCache.complete_of_empty hempty)

/-- A search that nothing disturbs, with the accounts of its loop. -/
theorem Search.exists_accounts {setting : Setting σ (ρ × List Progress)} {names : List String}
    {start : Method}
    (hproceeds : Search.Proceeds setting watcher.recording answers names
      (answers.Reaches names start) (fun _ => False) fun _ => False)
    (hspares : setting.Overlooks RunState.putReports) (maxDepth : Int)
    {s : RunState σ (ρ × List Progress)}
    (hs : s.cache.Complete answers (answers.Reaches names start)) :
    ∃ turns t, Search.topCallers setting watcher.recording start maxDepth s =
        (.ok (answers.searchResult names start maxDepth), t) ∧
      Search.Accounts answers names maxDepth [⟨start, 0⟩] {} s turns
        (answers.explore names (Search.levelsWithin maxDepth) [start] {}) t := by
  obtain ⟨n, hloops⟩ := Search.loops_search setting watcher.recording start maxDepth s
  have hstart : ∀ m ∈ [start], answers.Reaches names start m := by
    simpa using Answers.reaches_start start
  have hqueue : ∀ item ∈ [Search.Waiting.mk start 0], answers.Reaches names start item.method := by
    simpa using Answers.reaches_start start
  obtain ⟨turns, after, t, hended, haccounts⟩ :=
    hproceeds.exists_accounts hspares hloops hqueue hs
  have hexplored :=
    (hproceeds.gives_explore (Search.levelsWithin maxDepth) hstart {}).eq_ok hs
  rw [hended] at hexplored
  cases hexplored
  refine ⟨turns, t, ?_, haccounts⟩
  rw [Search.topCallers_apply, hended]
  rfl

/-- A search reports every item that it takes up, once and in order.  At each report the items
taken up and those that wait are one more than the substitutes or callers of the methods expanded
before; in the end the items taken up are one more than those of all methods expanded, which are
the methods within the limit, one for each key; and what is noted as cut off are the items beyond
the limit, all of them one level above it. -/
theorem search_accounts (finder : Finder) (start : Method) (s : RunState σ ρ)
    (hdepth : 0 ≤ finder.maxDepth) (hbase : base.Follows answers)
    (hundisturbed : Undisturbed base watcher)
    (happart : answers.ToldApart finder.functional (answers.Reaches finder.functional start))
    (hempty : ∀ key, s.cache.get? key = none) :
    (∀ (m : Method) (u : RunState σ ρ), (∀ key, u.cache.get? key = none) →
      (Search.expand (finder.setting base answers.productionScope (Run.checkpoint base watcher))
        m u).1 = .ok (answers.next finder.functional m, answers.isTop finder.functional m)) ∧
    ∃ result turns t, (finder.search (.ok base) watcher start s).1 = .ok result ∧
      finder.search (.ok base) watcher.recording start ⟨s.base, (s.watch, []), s.cache⟩ =
        (.ok result, t) ∧
      answers.Turns finder.functional finder.maxDepth [⟨start, 0⟩] ∅ turns ∧
      (t.watch.2.length = turns.length ∧ ∀ k report, t.watch.2[k]? = some report →
        report.processed = k + 1 ∧ report.processed + report.queued =
          1 + answers.work finder.functional (Search.expandedBy (turns.take k))) ∧
      result.processedCount = 1 + answers.work finder.functional (Search.expandedBy turns) ∧
      (((Search.expandedBy turns).map Method.key).Nodup ∧
        (Search.expandedBy turns).length = result.visitedCount ∧
        ∀ key, key ∈ (Search.expandedBy turns).map Method.key ↔
          ∃ m, answers.ReachesWithin finder.functional finder.maxDepth start m ∧ m.key = key) ∧
      result.truncatedKeys = Search.keysBeyond finder.maxDepth turns ∧
      ∀ turn ∈ turns, turn.isBeyond finder.maxDepth = true →
        (turn.item.depth : Int) = finder.maxDepth + 1 := by
  have hcomplete : s.cache.trim.Complete answers (answers.Reaches finder.functional start) :=
    (CallerCache.complete_of_empty hempty).trim
  have hproceeds := hundisturbed.recording.proceeds finder hbase happart fun _ hm _ => hm.next
  have hsearch := finder.search_of_scope watcher.recording start
    (s := ⟨s.base, (s.watch, []), s.cache⟩) (Prod.ext (hbase.productionScope s.base) rfl)
  obtain ⟨turns, t, hended, haccounts⟩ := Search.exists_accounts hproceeds
    (finder.overlooks_reports base answers.productionScope watcher) finder.maxDepth
    (s := ⟨(base.productionScope s.base).2, (s.watch, []), s.cache.trim⟩) hcomplete
  simp only [hended] at hsearch
  obtain ⟨reports, hreports, hbalances⟩ := haccounts.told
  rw [List.nil_append] at hreports
  subst hreports
  have hvisited : ∀ key, key ∈ (Search.expandedBy turns).map Method.key ↔
      key ∈ (answers.explore finder.functional (Search.levelsWithin finder.maxDepth) [start]
        {}).visited := by
    intro key
    rw [haccounts.visited key]
    simp
  have hnodup := haccounts.taken.nodup_keys.1
  refine ⟨fun m u hu => hundisturbed.expand_eq finder hbase m hu, _, turns, t, ?_, hsearch,
    haccounts.taken,
    ⟨hbalances.oneEach, fun k report hreport => ⟨?_, ?_⟩⟩, ?_, ⟨hnodup, ?_, fun key => ?_⟩, ?_,
    fun turn hturn hbeyond => ?_⟩
  · exact hundisturbed.search_eq finder hbase happart (CallerCache.complete_of_empty hempty)
  · exact (hbalances.counted k report hreport).trans (by simp)
  · exact (hbalances.balanced k report hreport).trans (by simp)
  · rw [← List.length_singleton (a := (⟨start, 0⟩ : Search.Waiting)), ← haccounts.taken.length_eq]
    exact haccounts.processed.trans (Nat.zero_add _)
  · rw [← List.length_map (f := Method.key)]
    have hperm := (List.perm_ext_iff_of_nodup hnodup (nodup_toList_visited _)).mpr fun key =>
      (hvisited key).trans Std.HashSet.mem_toList.symm
    exact hperm.length_eq.trans Std.HashSet.length_toList
  · exact (hvisited key).trans (Answers.mem_visited_explore happart finder.maxDepth key)
  · exact haccounts.cutOff
  · have hle := haccounts.taken.depth_le (by simp; omega) turn hturn
    simp only [Search.Turn.isBeyond, decide_eq_true_eq] at hbeyond
    omega

/-- With the limit at one level the search from `a` expands `a`, `b` and `c` and cuts off what
`b` and `c` put in. -/
theorem search_accounts_diamond :
    ∃ result t,
      Finder.search { maxDepth := 1, functional := [] } (.ok diamond.knowledgeBase)
        Watcher.idle.recording (letterMethod "a")
        (⟨(), ((), []), {}⟩ : RunState Unit (Unit × List Progress)) = (.ok result, t) ∧
      t.watch.2.length = 6 ∧ result.processedCount = 6 ∧
      result.truncatedKeys = ["d", "d", "a"].map fun name => (letterMethod name).key := by
  have hturns : diamond.Turns [] 1 [⟨letterMethod "a", 0⟩] ∅
      [⟨⟨letterMethod "a", 0⟩, true⟩, ⟨⟨letterMethod "b", 1⟩, true⟩,
        ⟨⟨letterMethod "c", 1⟩, true⟩, ⟨⟨letterMethod "d", 2⟩, false⟩,
        ⟨⟨letterMethod "d", 2⟩, false⟩, ⟨⟨letterMethod "a", 2⟩, false⟩] := by
    refine .expand (by decide) (by simp) ?_
    refine .expand (by decide) (by simp; decide) ?_
    refine .expand (by decide) (by simp; decide) ?_
    exact .beyond (by decide) (.beyond (by decide) (.beyond (by decide) .done))
  obtain ⟨result, turns, t, -, hsearch, htaken, ⟨hone, -⟩, hprocessed, -, hcutOff, -⟩ :=
    (search_accounts { maxDepth := 1, functional := [] } (letterMethod "a")
      (⟨(), (), {}⟩ : RunState Unit Unit) (by decide) Answers.follows_knowledgeBase
      (undisturbed_idle fun _ => rfl) toldApart_diamond CallerCache.get?_new).2
  obtain rfl := hturns.unique htaken
  exact ⟨result, t, hsearch, hone, hprocessed.trans (by decide), hcutOff.trans (by decide)⟩

end EntryPoints

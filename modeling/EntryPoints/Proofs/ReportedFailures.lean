import EntryPoints.CommandLine.Run
import EntryPoints.Proofs.DrawableRecords

/-!
# Failures that are reported

A command ends in one of three ways.  It comes to its end, it fails with something to report, or
it breaks down without a report.  A chain of steps holds out when each of its steps does, and of
all steps only three can break down: reading a text that is nested too deep, taking the record of
a search apart, and asking for a method that is missing.  So indexing and searching in the
repository and reading and writing files are reported whatever goes wrong, and so is every other
fault of a text.

The commands that break down are described by what is on the disk: a file whose text is nested too
deep, a file that holds a JSON value of another shape, and a repository that is there although no
method is.  How deep is too deep depends on the levels that are left; brackets alone fill them.
-/

namespace EntryPoints.CommandLine

namespace Job

variable {α β ε : Type} {job : Job α} {next : α → Job β} {desk after : Desk}

/-- What a job comes to at a desk, and the desk that it leaves. -/
def outcome (job : Job α) (desk : Desk) : Except Problem α × Desk := job desk

/-- Whether a job ends without anything that could be reported. -/
def BreaksDown (job : Job α) (desk : Desk) : Prop :=
  ∃ breakdown, (job.outcome desk).1 = .error (.breakdown breakdown)

/-- Whether a job always comes to an end or fails with something to report. -/
def HoldsOut (job : Job α) : Prop := ∀ desk, ¬job.BreaksDown desk

theorem outcome_bind (job : Job α) (next : α → Job β) (desk : Desk) :
    (job >>= next).outcome desk =
      match job.outcome desk with
      | (.ok a, after) => (next a).outcome after
      | (.error problem, after) => (.error problem, after) := by
  have h : (job >>= next).outcome desk =
      ExceptT.bindCont next (job.outcome desk).1 (job.outcome desk).2 := rfl
  rw [h]
  rcases job.outcome desk with ⟨result, after⟩
  cases result <;> rfl

theorem outcome_bind_eq_ok_iff {b : β} : (job >>= next).outcome desk = (.ok b, after) ↔
    ∃ a between, job.outcome desk = (.ok a, between) ∧
      (next a).outcome between = (.ok b, after) := by
  rw [outcome_bind]
  rcases job.outcome desk with ⟨result, between⟩
  cases result with
  | error problem => simp
  | ok a => simp

theorem breaksDown_bind_iff : (job >>= next).BreaksDown desk ↔
    job.BreaksDown desk ∨
      ∃ a after, job.outcome desk = (.ok a, after) ∧ (next a).BreaksDown after := by
  unfold BreaksDown
  rw [outcome_bind]
  rcases job.outcome desk with ⟨result, after⟩
  cases result with
  | error problem => simp
  | ok a =>
      constructor
      · exact fun h => .inr ⟨a, after, rfl, h⟩
      · rintro (⟨breakdown, h⟩ | ⟨_, _, h, hnext⟩)
        · cases h
        · cases h
          exact hnext

theorem HoldsOut.breaksDown_bind_iff (h : job.HoldsOut) : (job >>= next).BreaksDown desk ↔
    ∃ a after, job.outcome desk = (.ok a, after) ∧ (next a).BreaksDown after := by
  rw [Job.breaksDown_bind_iff, or_iff_right (h desk)]

theorem HoldsOut.bind (hjob : job.HoldsOut) (hnext : ∀ a, (next a).HoldsOut) :
    (job >>= next).HoldsOut := by
  intro desk h
  obtain ⟨a, after, -, hbreaks⟩ := hjob.breaksDown_bind_iff.mp h
  exact hnext a after hbreaks

theorem outcome_pure (a : α) (desk : Desk) : (pure a : Job α).outcome desk = (.ok a, desk) := rfl

theorem outcome_throw (problem : Problem) (desk : Desk) :
    (throw problem : Job α).outcome desk = (.error problem, desk) := rfl

theorem outcome_get (desk : Desk) : (get : Job Desk).outcome desk = (.ok desk, desk) := rfl

theorem outcome_modify (f : Desk → Desk) (desk : Desk) :
    (modify f : Job Unit).outcome desk = (.ok (), f desk) := rfl

theorem outcome_sayLine (text : String) (desk : Desk) : (sayLine text).outcome desk =
    (.ok (), { desk with printed := desk.printed ++ (text ++ "\n") }) := rfl

theorem outcome_orReport (trouble : ε → Trouble) (result : Except ε α) (desk : Desk) :
    (orReport trouble result).outcome desk =
      (result.mapError fun e => .trouble (trouble e), desk) := by
  cases result <;> rfl

theorem outcome_orReport_eq_ok_iff {trouble : ε → Trouble} {result : Except ε α} {a : α} :
    (orReport trouble result).outcome desk = (.ok a, after) ↔ result = .ok a ∧ desk = after := by
  cases result <;> simp [outcome_orReport, Except.mapError]

theorem outcome_orBreak (breakdown : ε → Breakdown) (result : Except ε α) (desk : Desk) :
    (orBreak breakdown result).outcome desk =
      (result.mapError fun e => .breakdown (breakdown e), desk) := by
  cases result <;> rfl

theorem breaksDown_orBreak_iff {breakdown : ε → Breakdown} {result : Except ε α} :
    (orBreak breakdown result).BreaksDown desk ↔ ∃ e, result = .error e := by
  cases result <;> simp [BreaksDown, outcome_orBreak, Except.mapError]

theorem holdsOut_pure (a : α) : (pure a : Job α).HoldsOut := by
  simp [HoldsOut, BreaksDown, outcome_pure]

theorem holdsOut_get : (get : Job Desk).HoldsOut := by
  simp [HoldsOut, BreaksDown, outcome_get]

theorem holdsOut_modify (f : Desk → Desk) : (modify f : Job Unit).HoldsOut := by
  simp [HoldsOut, BreaksDown, outcome_modify]

theorem holdsOut_orReport (trouble : ε → Trouble) (result : Except ε α) :
    (orReport trouble result).HoldsOut := by
  cases result <;> simp [HoldsOut, BreaksDown, outcome_orReport, Except.mapError]

theorem holdsOut_say (text : String) : (say text).HoldsOut := holdsOut_modify _

theorem holdsOut_sayLine (text : String) : (sayLine text).HoldsOut := holdsOut_say _

theorem holdsOut_keep (trouble : ε → Trouble) (step : Disk → Except ε Disk) :
    (keep trouble step).HoldsOut :=
  holdsOut_get.bind fun _ => (holdsOut_orReport _ _).bind fun _ => holdsOut_modify _

theorem holdsOut_forIn {items : List α} {b : β} {body : α → β → Job (ForInStep β)}
    (hbody : ∀ a b, (body a b).HoldsOut) : (forIn items b body : Job β).HoldsOut := by
  induction items generalizing b with
  | nil => exact holdsOut_pure b
  | cons a items ih =>
      rw [List.forIn_cons]
      refine (hbody a b).bind fun step => ?_
      cases step with
      | done b => exact holdsOut_pure b
      | yield b => exact ih

end Job

open Job

theorem holdsOut_writeText (path text : String) : (writeText path text).HoldsOut :=
  holdsOut_keep _ _

theorem holdsOut_saveRecord (output : Option String) (record : Json) :
    (saveRecord output record).HoldsOut := by
  unfold saveRecord
  split
  · exact holdsOut_pure ()
  · exact (holdsOut_keep _ _).bind fun _ => (holdsOut_writeText _ _).bind fun _ =>
      holdsOut_sayLine _

theorem holdsOut_openService (repository : String) (includeTests : Bool) (maxDepth : Int) :
    (openService repository includeTests maxDepth).HoldsOut :=
  (holdsOut_sayLine _).bind fun _ => holdsOut_get.bind fun _ =>
    (holdsOut_orReport _ _).bind fun _ => holdsOut_pure _

theorem holdsOut_sayCallers (title : String) (lines : List String) :
    (sayCallers title lines).HoldsOut := by
  unfold sayCallers
  refine (holdsOut_sayLine _).bind fun _ => ?_
  have hlines : (forIn lines PUnit.unit fun line _ => do
      sayLine line
      pure (ForInStep.yield PUnit.unit) : Job PUnit).HoldsOut :=
    holdsOut_forIn fun _ _ => (holdsOut_sayLine _).bind fun _ => holdsOut_pure _
  split
  · exact (holdsOut_sayLine _).bind fun _ => hlines.bind fun _ => holdsOut_pure _
  · exact hlines.bind fun _ => holdsOut_pure _

theorem holdsOut_analyze (repository : String) (output : Option String) :
    (analyze repository output).HoldsOut :=
  (holdsOut_openService _ _ _).bind fun _ => (holdsOut_orReport _ _).bind fun _ =>
    (holdsOut_sayLine _).bind fun _ => (holdsOut_sayLine _).bind fun _ =>
      (holdsOut_saveRecord _ _).bind fun _ => holdsOut_sayLine _

theorem holdsOut_statement (repository : String) (statementId output : Option String) :
    (statement repository statementId output).HoldsOut :=
  (holdsOut_openService _ _ _).bind fun _ => (holdsOut_orReport _ _).bind fun _ =>
    (holdsOut_orReport _ _).bind fun _ => (holdsOut_sayCallers _ _).bind fun _ =>
      holdsOut_saveRecord _ _

/-! ## Commands that break down -/

variable {desk after : Desk}

/-- Whether a file can be read, and the text that it holds. -/
def HasText (disk : Disk) (path text : String) : Prop :=
  ∃ content raw, disk.read path = .ok content ∧
    Text.Encoding.utf8.decode content.toList = .ok raw ∧
    String.ofList (Text.withLineFeeds raw.toList) = text

/-- Whether the levels that are left do not suffice for reading a text. -/
def IsTooDeep (levels : Nat) (text : String) : Prop :=
  ∃ doing left, Json.readWithin levels text = .error ⟨.tooDeep doing, left⟩

theorem outcome_readText_eq_ok_iff {path text : String} :
    (readText path).outcome desk = (.ok text, after) ↔
      HasText desk.disk path text ∧ desk = after := by
  unfold readText HasText
  simp only [outcome_bind_eq_ok_iff, outcome_get, outcome_pure, outcome_orReport_eq_ok_iff,
    Prod.mk.injEq, Except.ok.injEq]
  constructor
  · rintro ⟨_, _, ⟨rfl, rfl⟩, content, _, ⟨hcontent, rfl⟩, raw, _, ⟨hraw, rfl⟩, htext, rfl⟩
    exact ⟨⟨content, raw, hcontent, hraw, htext⟩, rfl⟩
  · rintro ⟨⟨content, raw, hcontent, hraw, htext⟩, rfl⟩
    exact ⟨_, _, ⟨rfl, rfl⟩, content, _, ⟨hcontent, rfl⟩, raw, _, ⟨hraw, rfl⟩, htext, rfl⟩

theorem holdsOut_readText (path : String) : (readText path).HoldsOut :=
  holdsOut_get.bind fun _ => (holdsOut_orReport _ _).bind fun _ =>
    (holdsOut_orReport _ _).bind fun _ => holdsOut_pure _

theorem outcome_readJson_eq_ok_iff {levels : Nat} {text : String} {value : Json} :
    (readJson levels text).outcome desk = (.ok value, after) ↔
      Json.readWithin levels text = .ok value ∧ desk = after := by
  unfold readJson
  split
  next found hfound => simp [hfound, outcome_pure]
  next doing left hdeep => simp [hdeep, outcome_throw]
  next fault hnot hfault => simp [hfault, outcome_throw]

theorem breaksDown_readJson_iff {levels : Nat} {text : String} :
    (readJson levels text).BreaksDown desk ↔ IsTooDeep levels text := by
  unfold readJson IsTooDeep BreaksDown
  split
  next found hfound => simp [hfound, outcome_pure]
  next doing left hdeep => simp [hdeep, outcome_throw]
  next fault hnot hfault =>
    simp only [outcome_throw, Except.error.injEq, reduceCtorEq, exists_false, false_iff, not_exists]
    intro doing left hdeep
    exact hnot doing left (Except.error.inj (hfault.symm.trans hdeep))

/-- A drawing breaks down over a text that is nested too deep, and over a JSON value that has not
the shape of a search result. -/
theorem breaksDown_visualize_iff (levels : Nat) (input output : String) :
    (visualize levels input output).BreaksDown desk ↔
      ∃ text, HasText desk.disk input text ∧ (IsTooDeep levels text ∨
        ∃ results, Json.readWithin levels text = .ok results ∧ ¬results.IsDrawable) := by
  have hend (drawing : Drawing) : (do
      if output ≠ "" then
        writeText output drawing.dot
        sayLine ("Visualization saved to: " ++ output)
      sayLine "Visualization completed successfully!" : Job Unit).HoldsOut := by
    split
    · exact (holdsOut_writeText _ _).bind fun _ => (holdsOut_sayLine _).bind fun _ =>
        holdsOut_sayLine _
    · exact holdsOut_sayLine _
  have hshape (results : Json) : ¬results.IsDrawable ↔
      ∃ fault, Drawing.ofRecord results = .error fault := by
    rw [← Drawing.exists_ofRecord_iff]
    cases Drawing.ofRecord results <;> simp
  unfold visualize
  simp only [(holdsOut_readText input).breaksDown_bind_iff, outcome_readText_eq_ok_iff,
    Job.breaksDown_bind_iff, breaksDown_readJson_iff, outcome_readJson_eq_ok_iff,
    breaksDown_orBreak_iff, ← hshape]
  constructor
  · rintro ⟨text, _, ⟨htext, rfl⟩, hdeep | ⟨results, _, ⟨hresults, rfl⟩, hbreaks⟩⟩
    · exact ⟨text, htext, .inl hdeep⟩
    · rcases hbreaks with hdrawable | ⟨drawing, _, -, hbreaks⟩
      · exact ⟨text, htext, .inr ⟨results, hresults, hdrawable⟩⟩
      · exact absurd hbreaks (hend drawing _)
  · rintro ⟨text, htext, hdeep | ⟨results, hresults, hdrawable⟩⟩
    · exact ⟨text, _, ⟨htext, rfl⟩, .inl hdeep⟩
    · exact ⟨text, _, ⟨htext, rfl⟩, .inr ⟨results, _, ⟨hresults, rfl⟩, .inl hdrawable⟩⟩

theorem exists_scanAt_iff {rules : ScanRules} {disk : Disk} {path : String} :
    (∃ found, rules.scanAt disk path = .ok found) ↔ disk.isDirectory (.ofString path) = true := by
  simp only [ScanRules.scanAt, Disk.isDirectory]
  cases disk.lookup (.ofString path) with
  | error fault => simp
  | ok tree => cases tree <;> simp [FileTree.isDirectory]

theorem exists_build_iff {service : Service} {disk : Disk} {state : ServiceState} :
    (∃ snapshot, (service.build disk state).1 = .ok snapshot) ↔
      ∃ repository, service.settings.repository? = some repository ∧
        disk.isDirectory (.ofString repository) = true := by
  have hsources (repository : String) :
      (∃ sources, service.settings.sourcesOf disk repository = .ok sources) ↔
        disk.isDirectory (.ofString repository) = true := by
    rw [← exists_scanAt_iff, IndexSettings.sourcesOf]
    cases service.settings.rules.scanAt disk repository <;>
      simp [bind, Except.bind, pure, Except.pure]
  unfold Service.build IndexState.build
  cases service.settings.repository? with
  | none => simp
  | some repository =>
      simp only [Option.some.injEq, exists_eq_left', ← hsources]
      cases service.settings.sourcesOf disk repository <;> simp

theorem exists_openService_iff {repository : String} {includeTests : Bool} {maxDepth : Int} :
    (∃ opened after,
      (openService repository includeTests maxDepth).outcome desk = (.ok opened, after)) ↔
      repository ≠ "" ∧ desk.disk.isDirectory (.ofString repository) = true := by
  have hbuild (service : Service) (hrepository : service.settings.repository = some repository) :
      (∃ snapshot, (service.build desk.disk {}).1 = .ok snapshot) ↔
        repository ≠ "" ∧ desk.disk.isDirectory (.ofString repository) = true := by
    rw [exists_build_iff, IndexSettings.repository?, hrepository]
    by_cases hempty : repository = "" <;> simp [Option.filter, hempty]
  rw [← hbuild ⟨{ repository := some repository
                  scope := .ofRoots (some repository) Scope.defaultTestRoots includeTests },
    { maxDepth }⟩ rfl]
  unfold openService
  simp only [outcome_bind_eq_ok_iff, outcome_get, outcome_pure, outcome_orReport_eq_ok_iff,
    outcome_sayLine, Prod.mk.injEq, Except.ok.injEq]
  constructor
  · rintro ⟨_, _, _, _, ⟨-, rfl⟩, _, _, ⟨rfl, rfl⟩, snapshot, _, ⟨hsnapshot, -⟩, -⟩
    exact ⟨snapshot, hsnapshot⟩
  · rintro ⟨snapshot, hsnapshot⟩
    exact ⟨_, _, (), _, ⟨trivial, rfl⟩, _, _, ⟨rfl, rfl⟩, snapshot, _, ⟨hsnapshot, rfl⟩, rfl, rfl⟩

theorem breaksDown_topCallers_iff (repository : String) (method : Option String)
    (maxDepth : Option Int) (includeTests : Bool) (output : Option String) :
    (topCallers repository method maxDepth includeTests output).BreaksDown desk ↔
      method = none ∧ repository ≠ "" ∧ desk.disk.isDirectory (.ofString repository) = true := by
  rw [← @exists_openService_iff desk repository includeTests (maxDepth.getD defaultDepth)]
  unfold topCallers
  rw [(holdsOut_openService _ _ _).breaksDown_bind_iff]
  have hsearch (service : Service) (state : ServiceState) (spec : String) : (do
      let start ← orReport .request (Service.resolve spec state)
      let result ← orReport .request (service.search .idle start () state).1
      sayCallers (heading result.start) ((sortMethods result.topCallers).map callerLine)
      sayLine ("\nVisited " ++ toString result.visitedCount ++ " methods")
      if result.truncated then
        sayLine ("Warning: search stopped at depth " ++ toString service.finder.maxDepth ++
          " on " ++ toString result.truncatedKeys.length ++
            " path(s); results may be incomplete")
      saveRecord output result.report : Job Unit).HoldsOut := by
    refine (holdsOut_orReport _ _).bind fun _ => (holdsOut_orReport _ _).bind fun _ =>
      (holdsOut_sayCallers _ _).bind fun _ => (holdsOut_sayLine _).bind fun _ => ?_
    split
    · exact (holdsOut_sayLine _).bind fun _ => holdsOut_saveRecord _ _
    · exact holdsOut_saveRecord _ _
  cases method with
  | none =>
      constructor
      · rintro ⟨opened, after, hopened, -⟩
        exact ⟨rfl, opened, after, hopened⟩
      · rintro ⟨-, opened, after, hopened⟩
        exact ⟨opened, after, hopened,
          Job.breaksDown_bind_iff.mpr (.inl (breaksDown_orBreak_iff.mpr ⟨(), rfl⟩))⟩
  | some spec =>
      refine iff_of_false ?_ (by simp)
      rintro ⟨⟨service, state, snapshot⟩, after, -, hbreaks⟩
      rcases Job.breaksDown_bind_iff.mp hbreaks with hspec | ⟨found, _, -, hrest⟩
      · obtain ⟨_, hspec⟩ := breaksDown_orBreak_iff.mp hspec
        cases hspec
      · exact hsearch service state found _ hrest

/-! ## Texts that are too deep -/

/-- A bracket in front of a text that cannot be read takes one level more. -/
theorem value_bracket {levels : Nat} {rest : List Char} {fault : Json.Fault}
    (h : Json.value levels ('[' :: rest) = .error fault) :
    Json.value (levels + 1) ('[' :: '[' :: rest) = .error fault := by
  have hgaps : Json.skipGaps ('[' :: rest) = '[' :: rest := rfl
  have hitems : Json.items levels (Json.skipGaps ('[' :: rest)) = .error fault := by
    change Json.items levels ('[' :: rest) = _
    rw [Json.items, h]
    rfl
  rw [Json.value]
  split
  next after hclose => cases hgaps.symm.trans hclose
  next => simp only [hitems]

theorem value_brackets (levels : Nat) (rest : List Char) : ∃ doing left,
    Json.value levels (List.replicate (levels + 1) '[' ++ rest) =
      .error ⟨.tooDeep doing, left⟩ := by
  induction levels with
  | zero =>
      change ∃ doing left, Json.value 0 ('[' :: rest) = _
      rw [Json.value]
      exact ⟨_, _, rfl⟩
  | succ levels ih =>
      obtain ⟨doing, left, h⟩ := ih
      exact ⟨doing, left, value_bracket h⟩

theorem readWithin_of_error {levels : Nat} {text : String} {fault : Json.Fault}
    (hmark : text.toList.head? ≠ some '\uFEFF')
    (h : Json.value levels (Json.skipGaps text.toList) = .error fault) :
    Json.readWithin levels text = .error fault := by
  unfold Json.readWithin
  simp only
  split
  next hstart => exact absurd (congrArg List.head? hstart) hmark
  next => rw [h]

/-- A text is too deep that begins with more brackets than there are levels, whatever follows. -/
theorem isTooDeep_brackets (levels : Nat) (rest : List Char) :
    IsTooDeep levels (String.ofList (List.replicate (levels + 1) '[' ++ rest)) := by
  obtain ⟨doing, left, h⟩ := value_brackets levels rest
  refine ⟨doing, left, readWithin_of_error ?_ ?_⟩
  · simp [List.replicate_succ]
  · rw [String.toList_ofList]
    exact h

/-! ## Reports -/

/-- The commands that end without a report: a drawing of a text that is nested too deep or of a
value that has not the shape of a search result, and a search in a repository without a method to
search for. -/
inductive Unreported (levels : Nat) (disk : Disk) : Command → Prop
  | nested {input output text : String} (there : HasText disk input text)
      (deep : IsTooDeep levels text) : Unreported levels disk (.visualize input output)
  | shape {input output text : String} {results : Json} (there : HasText disk input text)
      (holds : Json.readWithin levels text = .ok results) (shapeless : ¬results.IsDrawable) :
      Unreported levels disk (.visualize input output)
  | methodMissing {repository : String} {maxDepth : Option Int} {includeTests : Bool}
      {output : Option String} (named : repository ≠ "")
      (there : disk.isDirectory (.ofString repository) = true) :
      Unreported levels disk (.topCallers repository none maxDepth includeTests output)

theorem breaksDown_job_iff (levels : Nat) (command : Command) (desk : Desk) :
    (command.job levels).BreaksDown desk ↔ Unreported levels desk.disk command := by
  cases command with
  | analyze repository output =>
      exact iff_of_false (holdsOut_analyze _ _ _) (by rintro ⟨⟩)
  | statement repository statementId output =>
      exact iff_of_false (holdsOut_statement _ _ _ _) (by rintro ⟨⟩)
  | visualize input output =>
      rw [Command.job, breaksDown_visualize_iff]
      constructor
      · rintro ⟨text, htext, hdeep | ⟨results, hholds, hshapeless⟩⟩
        · exact .nested htext hdeep
        · exact .shape htext hholds hshapeless
      · intro h
        cases h with
        | nested htext hdeep => exact ⟨_, htext, .inl hdeep⟩
        | shape htext hholds hshapeless => exact ⟨_, htext, .inr ⟨_, hholds, hshapeless⟩⟩
  | topCallers repository method maxDepth includeTests output =>
      rw [Command.job, breaksDown_topCallers_iff]
      constructor
      · rintro ⟨rfl, hnamed, hthere⟩
        exact .methodMissing hnamed hthere
      · intro h
        cases h with
        | methodMissing hnamed hthere => exact ⟨rfl, hnamed, hthere⟩

/-- Whether a command has come to its end, or has said why not and given the status of a failure. -/
def Outcome.IsReported (name : CommandName) (outcome : Outcome) : Prop :=
  (outcome.status = 0 ∧ outcome.reported = "") ∨
    (outcome.status = 1 ∧
      ∃ message, outcome.reported = "Error during " ++ name.text ++ ": " ++ message ++ "\n")

theorem exists_reported_iff (levels : Nat) (command : Command) (disk : Disk) :
    (∃ outcome, command.runWithin levels disk = .ok outcome ∧ outcome.IsReported command.name) ↔
      ¬(command.job levels).BreaksDown { disk } := by
  have hrun : command.runWithin levels disk =
      match (command.job levels).outcome { disk } with
      | (.ok (), desk) => .ok ⟨0, desk.printed, "", desk.disk⟩
      | (.error (.trouble trouble), desk) =>
        .ok ⟨1, desk.printed,
          "Error during " ++ command.name.text ++ ": " ++ trouble.message ++ "\n", desk.disk⟩
      | (.error (.breakdown breakdown), _) => .error breakdown := rfl
  rw [hrun, Job.BreaksDown]
  rcases (command.job levels).outcome { disk } with ⟨result, desk⟩
  cases result with
  | ok _ => simp [Outcome.IsReported]
  | error problem =>
      cases problem with
      | trouble trouble => simp [Outcome.IsReported]
      | breakdown breakdown => simp

/-- What a command line asks for comes to its end or is reported as a failure, unless it is one
of the commands that end without a report.  This holds however many levels of the stack are left. -/
theorem failures_reported_iff (levels : Nat) (arguments : List String) (disk : Disk) :
    (∀ command, Request.ofArguments arguments = .ok (.run command) →
      ∃ outcome, command.runWithin levels disk = .ok outcome ∧
        outcome.IsReported command.name) ↔
      ∀ command, Request.ofArguments arguments = .ok (.run command) →
        ¬Unreported levels disk command := by
  refine forall_congr' fun command => imp_congr_right fun _ => ?_
  rw [exists_reported_iff, breaksDown_job_iff]

/-! ## A value that is no record -/

def savedObject : Disk := { root := .directory [("s.json", .file "\x7b\x7d".toUTF8)] }

theorem hasText_savedObject : HasText savedObject "s.json" "\x7b\x7d" := by
  refine ⟨"\x7b\x7d".toUTF8, "\x7b\x7d", ?_, by decide +kernel, rfl⟩
  simp only [Disk.read, Disk.lookup, Disk.locate, String.contains_char_eq]
  rfl

/-- An object without a query is no record of a search, and nothing says so when it is drawn. -/
theorem object_not_reported : ¬∀ command,
    Request.ofArguments ["visualize", "s.json"] = .ok (.run command) →
      ∃ outcome, command.run savedObject = .ok outcome ∧ outcome.IsReported command.name := by
  intro h
  have hasked : Request.ofArguments ["visualize", "s.json"] =
      .ok (.run (.visualize "s.json" "top_callers.dot")) := by decide +kernel
  have hread : Json.readWithin Json.usualLevels "\x7b\x7d" = .ok (.object []) := by cbv
  apply (exists_reported_iff Json.usualLevels _ _).mp (h _ hasked)
  refine (breaksDown_job_iff _ _ _).mpr (.shape hasText_savedObject hread ?_)
  rintro ⟨⟨members, found, hobject, hmember, -⟩, -⟩
  cases hobject
  cases hmember

end EntryPoints.CommandLine

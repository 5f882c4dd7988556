import Schematron.Proofs.Command.Validation
import Schematron.Proofs.Compilation.Stages
import Schematron.Proofs.Console.Printing
import Schematron.Proofs.Location.Links

/-!
Compilation of rule sets by the command. Main statement: where each location leads to a file that
may be looked for, the table has one row for each of them, in their order, which says what compiling
that rule set comes to; the first location whose home directory is unknown, or where the look for
the file is refused, leaves no table at all.
-/

namespace Schematron

namespace Command

open Session

/-! Tables in a session -/

section Tables

variable {table : Console.Table} {cell : String}

theorem cellLines_of_isInOrder (inOrder : isInOrder cell = true) :
    Console.Table.cellLines cell = .ok (shown cell) := by
  simp only [isInOrder] at inOrder
  cases found : Console.Markup.plainText cell with
  | error fault => simp [found, Except.isOk, Except.toBool] at inOrder
  | ok text => simp [Console.Table.cellLines, shown, found, Except.map]

theorem cellLines_of_disorder (outOfOrder : isInOrder cell = false) :
    ∃ fault, Console.Table.cellLines cell = .error fault := by
  simp only [isInOrder] at outOfOrder
  cases found : Console.Markup.plainText cell with
  | error fault => exact ⟨fault, by simp [Console.Table.cellLines, found, Except.map]⟩
  | ok text => simp [found, Except.isOk, Except.toBool] at outOfOrder

def drawn (table : Console.Table) : List String :=
  Console.Table.framed (table.title.elim [] shown) (table.columns.map shown)
    (table.rows.map (·.map shown))

theorem resume_printTable (inOrder : ∀ cell ∈ table.cells, isInOrder cell = true)
    (transcript : Transcript) :
    (printTable table).resume transcript = (.ok (), transcript.add (drawn table)) := by
  have lines : table.lines = .ok (drawn table) :=
    Console.Table.lines_eq_ok fun cell member => cellLines_of_isInOrder (inOrder cell member)
  rw [printTable, lines]
  rfl

theorem resume_printTable_disorder (member : cell ∈ table.cells)
    (outOfOrder : isInOrder cell = false) (transcript : Transcript) :
    (printTable table).resume transcript = (.error disorder, transcript) := by
  obtain ⟨fault, wrong⟩ := cellLines_of_disorder outOfOrder
  obtain ⟨first, stops⟩ := Console.Table.lines_eq_error member wrong
  rw [printTable, stops]
  rfl

theorem shown_of_printed {text : String} (prints : Console.Markup.plainText cell = .ok text) :
    isInOrder cell = true ∧ shown cell = Text.splitString '\n' text := by
  constructor
  · rw [isInOrder, prints]
    rfl
  · rw [shown, prints]

theorem shown_of_unmarked (unmarked : Console.Markup.Unmarked cell.toList) :
    isInOrder cell = true ∧ shown cell = Text.splitString '\n' cell :=
  shown_of_printed ((Console.Markup.plainText_eq_iff cell).mpr unmarked)

end Tables

/-! Accepted configurations -/

structure Ready (desk : Desk) (options : Options) (settings : Settings) (pipeline : Pipeline) :
    Prop where
  accepted : settingsOf desk options = .ok settings
  loads : Pipeline.ofSettings desk.files desk.surroundings settings.ruleSets = .ok pipeline

/-! Rows -/

namespace Compiled

def isInOrder (row : Compiled) : Bool :=
  Session.isInOrder row.source && Session.isInOrder row.text

def status (row : Compiled) : String := if row.isCompiled then "OK" else "FAILED"

def cells (row : Compiled) : List (List String) :=
  [Session.shown row.source, [row.status], Session.shown row.text]

theorem map_shown_row (row : Compiled) : row.row.map Session.shown = row.cells := by
  have green : Session.shown "[green]OK[/green]" = ["OK"] := by decide +kernel
  have red : Session.shown "[red]FAILED[/red]" = ["FAILED"] := by decide +kernel
  cases compiled : row.isCompiled <;> simp [Compiled.row, cells, status, compiled, green, red]

theorem isInOrder_iff (row : Compiled) :
    row.isInOrder = true ↔ ∀ cell ∈ row.row, Session.isInOrder cell = true := by
  have green : Session.isInOrder "[green]OK[/green]" = true := by decide +kernel
  have red : Session.isInOrder "[red]FAILED[/red]" = true := by decide +kernel
  cases compiled : row.isCompiled <;> simp [isInOrder, Compiled.row, compiled, green, red]

end Compiled

inductive Tells (desk : Desk) (pipeline : Pipeline) (source : RuleSource) (file : SchemaFile) :
    Compiled → Prop
  | compiled {validator : Validator} {polls : Nat} {ran : List Stage} :
      Compiles (pipeline.transform desk.files source) (Transform.load source.uri) (fun _ => false)
        source file (.ok validator) polls ran →
      Tells desk pipeline source file ⟨source.toString, true,
        "\n".intercalate (validator.messages.map StageMessage.summary)⟩
  | failed {failure : CompilationFailure} {polls : Nat} {ran : List Stage} :
      Compiles (pipeline.transform desk.files source) (Transform.load source.uri) (fun _ => false)
        source file (.error (.compilation failure)) polls ran →
      Tells desk pipeline source file ⟨source.toString, false, failure.message⟩

section Rows

variable {desk : Desk} (pipeline : Pipeline) {source : RuleSource}

theorem tells_compileSource {file : SchemaFile} (found : desk.files.schemaFile source = .ok file) :
    ∃ row, compileSource desk pipeline source = .ok row ∧ Tells desk pipeline source file row := by
  have comes : Compiles (pipeline.transform desk.files source) (Transform.load source.uri)
      (fun _ => false) source file (pipeline.compile desk.files (fun _ => false) source).1
      (pipeline.compile desk.files (fun _ => false) source).2.polls
      (pipeline.compile desk.files (fun _ => false) source).2.ran := by
    simp only [Pipeline.compile, found]
    exact Validator.compile_comes file
  simp only [compileSource]
  cases result : (pipeline.compile desk.files (fun _ => false) source).1 with
  | ok validator =>
      rw [result] at comes
      exact ⟨_, rfl, .compiled comes⟩
  | error failure =>
      rw [result] at comes
      obtain ⟨failure, rfl⟩ := comes.compilation
      have message : (Failure.compilation failure).message.toStringLossy = failure.message :=
        Text.toStringLossy_ofString failure.message
      refine ⟨_, rfl, ?_⟩
      rw [message]
      exact .failed comes

theorem compileSource_refused {failure : Failure}
    (refused : desk.files.isFile [] source.path = .error failure) :
    compileSource desk pipeline source = .error failure := by
  obtain ⟨error, -, rfl⟩ := FileTree.look_error refused
  simp only [compileSource, Pipeline.compile, FileTree.schemaFile_eq_error_iff.mpr refused]
  rfl

/-- Where the look for its file is refused, a rule set has no row. -/
theorem compileSource_eq_error_iff {failure : Failure} :
    compileSource desk pipeline source = .error failure ↔
      desk.files.isFile [] source.path = .error failure := by
  refine ⟨fun fails => ?_, compileSource_refused pipeline⟩
  cases found : desk.files.schemaFile source with
  | ok file =>
      obtain ⟨row, compiled, -⟩ := tells_compileSource pipeline found
      cases compiled.symm.trans fails
  | error other =>
      have refused := FileTree.schemaFile_eq_error_iff.mp found
      cases (compileSource_refused pipeline refused).symm.trans fails
      exact refused

end Rows

/-! Locations -/

def Leads (desk : Desk) (base location : String) (source : RuleSource) : Prop :=
  RuleSource.resolve desk.surroundings (some base) location = .ok source

def LeadsNowhere (desk : Desk) (base location : String) : Prop :=
  RuleSource.resolve desk.surroundings (some base) location = .error .noHome

def Comes (desk : Desk) (pipeline : Pipeline) (base location : String) (row : Compiled) : Prop :=
  compileLocation desk pipeline base location = .ok row

/-- A location that has no row, and why. -/
inductive Stops (desk : Desk) (base location : String) : Failure → Prop
  | homeless : LeadsNowhere desk base location → Stops desk base location LocationError.noHome.failure
  | refused {source : RuleSource} {error : AccessError} : Leads desk base location source →
      error = .forbidden ∨ error = .longName →
      desk.files.isFile [] source.path = .error (error.failure source.toString) →
      Stops desk base location (error.failure source.toString)

section Locations

variable {desk : Desk} {pipeline : Pipeline} {base location : String} {locations : List String}

theorem compileLocation_of_leads {source : RuleSource} (leads : Leads desk base location source) :
    compileLocation desk pipeline base location = compileSource desk pipeline source := by
  have leads : RuleSource.resolve _ _ _ = _ := leads
  rw [compileLocation, leads]
  rfl

theorem compileLocation_eq_error_iff {failure : Failure} :
    compileLocation desk pipeline base location = .error failure ↔
      Stops desk base location failure := by
  cases resolved : RuleSource.resolve desk.surroundings (some base) location with
  | error error =>
      cases error
      have nowhere : compileLocation desk pipeline base location =
          .error LocationError.noHome.failure := by
        rw [compileLocation, resolved]
        rfl
      rw [nowhere]
      constructor
      · intro same
        cases same
        exact .homeless resolved
      · intro stops
        cases stops with
        | homeless => rfl
        | refused leads => cases resolved.symm.trans leads
  | ok source =>
      rw [compileLocation_of_leads resolved, compileSource_eq_error_iff]
      constructor
      · intro refused
        obtain ⟨error, kinds, rfl⟩ := FileTree.look_error refused
        exact .refused resolved kinds refused
      · intro stops
        cases stops with
        | homeless nowhere => cases resolved.symm.trans nowhere
        | refused leads _ refused =>
            cases resolved.symm.trans leads
            exact refused

theorem tells_of_comes {row : Compiled} (comes : Comes desk pipeline base location row) :
    ∃ source file, Leads desk base location source ∧ desk.files.schemaFile source = .ok file ∧
      Tells desk pipeline source file row := by
  have comes : compileLocation desk pipeline base location = .ok row := comes
  cases resolved : RuleSource.resolve desk.surroundings (some base) location with
  | error error =>
      rw [compileLocation, resolved] at comes
      cases comes
  | ok source =>
      rw [compileLocation_of_leads resolved] at comes
      cases found : desk.files.schemaFile source with
      | error failure =>
          have refused := FileTree.schemaFile_eq_error_iff.mp found
          cases (compileSource_refused pipeline refused).symm.trans comes
      | ok file =>
          obtain ⟨also, compiled, tells⟩ := tells_compileSource pipeline found
          cases comes.symm.trans compiled
          exact ⟨source, file, resolved, found, tells⟩

end Locations

/-! Sessions -/

def tabulate (desk : Desk) (pipeline : Pipeline) (base : String) (locations : List String) :
    Session Unit :=
  match compileAll desk pipeline base locations with
  | .error failure => crash failure
  | .ok found => do
      printTable (compileTable found)
      exit (if found.all (·.isCompiled) then 0 else 1)

/-- What a session comes to that compiles the rule sets at `locations`. -/
structure Tabulates (desk : Desk) (pipeline : Pipeline) (base : String) (locations : List String)
    (ending : Ending) (lines : List String) : Prop where
  complete : ∀ rows, List.Forall₂ (Comes desk pipeline base) locations rows →
    (∀ row ∈ rows, row.isInOrder = true) →
    lines = Console.Table.framed [] [["Rule Set"], ["Status"], ["Messages"]]
        (rows.map Compiled.cells) ∧
      ending = .exit (if ∀ row ∈ rows, row.isCompiled then 0 else 1)
  told : ∀ location row, Comes desk pipeline base location row →
    ∃ source file, Leads desk base location source ∧ desk.files.schemaFile source = .ok file ∧
      Tells desk pipeline source file row
  intact : ∀ row : Compiled, Console.Markup.Unmarked row.source.toList →
    Console.Markup.Unmarked row.text.toList → row.isInOrder = true ∧
      row.cells = [Text.splitString '\n' row.source, [row.status], Text.splitString '\n' row.text]
  -- The first location that has no row ends everything.
  stopped : ∀ earlier location later failure, locations = earlier ++ location :: later →
    (∀ before ∈ earlier, ∃ row, Comes desk pipeline base before row) →
    Stops desk base location failure → lines = [] ∧ ending = .crash failure
  rowless : ∀ location, (∃ row, Comes desk pipeline base location row) ∨
    ∃ failure, Stops desk base location failure
  -- So does a row that is no markup.
  disordered : ∀ rows, List.Forall₂ (Comes desk pipeline base) locations rows →
    ∀ row ∈ rows, row.isInOrder = false → lines = [] ∧ ending = disorder
  passed : ending = .exit 0 ↔ ∃ rows, List.Forall₂ (Comes desk pipeline base) locations rows ∧
    ∀ row ∈ rows, row.isInOrder = true ∧ row.isCompiled = true

section Sessions

variable {desk : Desk} {pipeline : Pipeline} {base : String} {locations : List String}
  {level : Option Verbosity}

theorem compileTable_cells (found : List Compiled) :
    (∀ cell ∈ (compileTable found).cells, isInOrder cell = true) ↔
      ∀ row ∈ found, row.isInOrder = true := by
  have header : ∀ cell ∈ ["Rule Set", "Status", "Messages"], isInOrder cell = true := by
    decide +kernel
  constructor
  · intro inOrder row member
    rw [Compiled.isInOrder_iff]
    intro cell among
    apply inOrder
    simp only [Console.Table.cells, compileTable, List.mem_append, List.mem_flatten]
    exact .inr ⟨row.row, List.mem_map_of_mem member, among⟩
  · intro inOrder cell member
    simp only [Console.Table.cells, compileTable, List.mem_append, List.mem_flatten, List.mem_map,
      Option.toList_none, List.not_mem_nil, false_or] at member
    rcases member with among | ⟨_, ⟨row, member, rfl⟩, among⟩
    · exact header cell among
    · exact row.isInOrder_iff.mp (inOrder row member) cell among

theorem drawn_compileTable (found : List Compiled) :
    drawn (compileTable found) =
      Console.Table.framed [] [["Rule Set"], ["Status"], ["Messages"]]
        (found.map Compiled.cells) := by
  have header : (compileTable found).columns.map shown =
      [["Rule Set"], ["Status"], ["Messages"]] := by
    simp only [compileTable]
    decide +kernel
  have rows : (compileTable found).rows.map (·.map shown) = found.map Compiled.cells := by
    simp only [compileTable, List.map_map, Function.comp_def, Compiled.map_shown_row]
  rw [drawn, header, rows]
  rfl

theorem resume_tabulate {found : List Compiled}
    (compiled : compileAll desk pipeline base locations = .ok found)
    (inOrder : ∀ row ∈ found, row.isInOrder = true) :
    (tabulate desk pipeline base locations).resume ⟨[], level⟩ =
      (.error (.exit (if found.all (·.isCompiled) then 0 else 1)),
        ⟨Console.Table.framed [] [["Rule Set"], ["Status"], ["Messages"]]
          (found.map Compiled.cells), level⟩) := by
  have prints := resume_printTable ((compileTable_cells found).mpr inOrder) ⟨[], level⟩
  rw [drawn_compileTable] at prints
  simp only [tabulate, compiled]
  rw [resume_bind_ok prints]
  rfl

theorem resume_tabulate_disorder {found : List Compiled} {row : Compiled}
    (compiled : compileAll desk pipeline base locations = .ok found) (member : row ∈ found)
    (outOfOrder : row.isInOrder = false) :
    (tabulate desk pipeline base locations).resume ⟨[], level⟩ =
      (.error disorder, ⟨[], level⟩) := by
  have some : ¬∀ cell ∈ (compileTable found).cells, isInOrder cell = true := by
    rw [compileTable_cells]
    intro inOrder
    rw [inOrder row member] at outOfOrder
    cases outOfOrder
  obtain ⟨before, cell, after, cells, -, wrong⟩ := exists_first_of_not_all some
  have among : cell ∈ (compileTable found).cells := by simp [cells]
  simp only [tabulate, compiled]
  exact resume_bind_error (resume_printTable_disorder among wrong ⟨[], level⟩)

theorem resume_tabulate_stopped {failure : Failure}
    (stops : compileAll desk pipeline base locations = .error failure) :
    (tabulate desk pipeline base locations).resume ⟨[], level⟩ =
      (.error (.crash failure), ⟨[], level⟩) := by
  simp only [tabulate, stops]
  rfl

theorem resume_compileRuleSets {options : Options} {settings : Settings}
    (ready : Ready desk options settings pipeline) :
    ∃ level, (compileRuleSets desk options).resume ⟨[], none⟩ =
      (tabulate desk pipeline settings.ruleSets.baseDirectory settings.ruleSets.files).resume
        ⟨[], some level⟩ := by
  obtain ⟨accepted, loads⟩ := ready
  obtain ⟨level, goes⟩ := resume_settingsFor accepted isValueFailure id
  refine ⟨level, ?_⟩
  rw [compileRuleSets, resume_bind_ok goes]
  simp only [id_eq, loads]
  rfl

theorem tabulates_of_resume {session : Session Unit}
    (resumes : session.resume ⟨[], none⟩ =
      (tabulate desk pipeline base locations).resume ⟨[], level⟩) :
    Tabulates desk pipeline base locations session.run.1 session.run.2.lines := by
  have complete {rows : List Compiled}
      (come : List.Forall₂ (Comes desk pipeline base) locations rows)
      (inOrder : ∀ row ∈ rows, row.isInOrder = true) :=
    run_of_resume (resumes.trans (resume_tabulate (mapM_eq_ok_iff.mpr come) inOrder))
  have stopped {failure : Failure}
      (stops : compileAll desk pipeline base locations = .error failure) :=
    run_of_resume (resumes.trans (resume_tabulate_stopped stops))
  have disordered {rows : List Compiled}
      (come : List.Forall₂ (Comes desk pipeline base) locations rows) {row : Compiled}
      (member : row ∈ rows) (outOfOrder : row.isInOrder = false) :=
    run_of_resume (resumes.trans
      (resume_tabulate_disorder (mapM_eq_ok_iff.mpr come) member outOfOrder))
  constructor
  case complete =>
    intro rows come inOrder
    rw [complete come inOrder]
    have all : rows.all (·.isCompiled) = decide (∀ row ∈ rows, row.isCompiled) := by
      simp [List.all_eq]
    rw [all]
    exact ⟨rfl, by simp⟩
  case told => exact fun _ _ => tells_of_comes
  case intact =>
    intro row path text
    obtain ⟨first, source⟩ := shown_of_unmarked path
    obtain ⟨second, messages⟩ := shown_of_unmarked text
    exact ⟨by rw [Compiled.isInOrder, first, second]; rfl, by rw [Compiled.cells, source, messages]⟩
  case stopped =>
    rintro earlier location later failure rfl come stops
    rw [stopped (mapM_eq_error_iff.mpr
      ⟨earlier, location, later, rfl, come, compileLocation_eq_error_iff.mpr stops⟩)]
    exact ⟨rfl, rfl⟩
  case rowless =>
    intro location
    cases comes : compileLocation desk pipeline base location with
    | ok row => exact .inl ⟨row, comes⟩
    | error failure => exact .inr ⟨failure, compileLocation_eq_error_iff.mp comes⟩
  case disordered =>
    intro rows come row member outOfOrder
    rw [disordered come member outOfOrder]
    exact ⟨rfl, rfl⟩
  case passed =>
    constructor
    · intro ends
      -- Where a location has no row, or a row is out of order, the session has not ended so.
      cases compiled : compileAll desk pipeline base locations with
      | error failure =>
          rw [stopped compiled] at ends
          cases ends
      | ok rows =>
          have come := mapM_eq_ok_iff.mp compiled
          by_cases inOrder : ∀ row ∈ rows, row.isInOrder
          · rw [complete come inOrder] at ends
            refine ⟨rows, come, fun row member => ⟨inOrder row member, ?_⟩⟩
            by_contra fails
            have some : ¬rows.all (·.isCompiled) = true := by
              simpa using ⟨row, member, by simpa using fails⟩
            simp [some] at ends
          · obtain ⟨earlier, row, later, rfl, -, wrong⟩ := exists_first_of_not_all inOrder
            rw [disordered come (by simp) wrong] at ends
            cases ends
    · rintro ⟨rows, come, passes⟩
      have all : rows.all (·.isCompiled) = true := by
        simpa using fun row member => (passes row member).2
      rw [complete come fun row member => (passes row member).1, all]
      rfl

def homelessDesk : Desk where
  -- Nobody has a home here. One configuration names a rule set in a home directory as well.
  files.files :=
    [(["both"], "\x7b\"ruleSets\": \x7b\"files\": [\"~x/s\", \"/t\"]\x7d\x7d".toUTF8),
      (["one"], "\x7b\"ruleSets\": \x7b\"files\": [\"/t\"]\x7d\x7d".toUTF8)]
  files.directories := []
  files.links := []
  files.locked := []
  surroundings := ⟨⟨.slash, []⟩, fun _ => none⟩

end Sessions

end Command

end Schematron

import Schematron.Command.Run
import Schematron.Proofs.Compilation.Stages
import Schematron.Proofs.Engine.Opening
import Schematron.Proofs.Sequence

/-!
Validation of documents by the command: what becomes of each, and of the session as a whole. Main
statement: each document comes to what it comes to on its own, and the session goes on after it, up
to the first that is no text or whose lines are no markup.
-/

namespace Schematron

namespace Service

structure Resembles (other service : Service) : Prop where
  same : other = { service with system := other.system }
  rest : other.system.AtRest
  state : other.system.state = service.system.state

theorem Resembles.refl {service : Service} (rest : service.system.AtRest) :
    service.Resembles service :=
  ⟨rfl, rest, rfl⟩

theorem Resembles.asks {other service : Service} (alike : other.Resembles service)
    (rest : service.system.AtRest) (files : FileTree) (document : Document) :
    (other.ask files (other.validateCall document)).1 =
        (service.ask files (service.validateCall document)).1 ∧
      (other.ask files (other.validateCall document)).2.Resembles service := by
  obtain ⟨same, also, state⟩ := alike
  generalize other.system = system at same also state
  subst same
  obtain ⟨result, answers⟩ :=
    rest.validates (service.world files) document service.suppressesWarnings
  have first := answers service.system rest rfl
  have later := answers system also state
  refine ⟨?_, rfl, later.2.1, later.2.2⟩
  exact congrArg (fun result => result.getD (.error (.general "No answer")))
    (later.1.trans first.1.symm)

theorem performed_of_ask {service other : Service} {files : FileTree} {call : Engine.Call}
    {answer : Engine.Answer Validator} (asked : service.ask files call = (.ok answer, other)) :
    (service.system.perform (service.world files) call).1 = some (.ok answer) ∧
      (service.system.perform (service.world files) call).2 = other.system := by
  simp only [ask, Prod.mk.injEq] at asked
  obtain ⟨answered, rfl⟩ := asked
  refine ⟨?_, rfl⟩
  cases result : (service.system.perform (service.world files) call).1 with
  | none =>
      rw [result] at answered
      cases answered
  | some given =>
      rw [result] at answered
      exact congrArg some answered

theorem assembled_of_create {files : FileTree} {surroundings : Surroundings} {settings : Settings}
    {created : Service} (made : create files surroundings settings = .ok created) :
    ∃ pipeline pool, Engine.Pool.create? settings.pool.workers = .ok pool ∧
      created = assemble settings surroundings pipeline true pool := by
  simp only [create] at made
  split at made
  · cases made
  next pipeline _ =>
    cases pooled : Engine.Pool.create? settings.pool.workers with
    | error failure =>
        rw [pooled] at made
        cases made
    | ok pool =>
        rw [pooled] at made
        cases made
        exact ⟨pipeline, pool, rfl, rfl⟩

theorem atRest_of_opened {files : FileTree} {surroundings : Surroundings} {settings : Settings}
    {created service : Service} {answer : Engine.Answer Validator}
    (made : create files surroundings settings = .ok created)
    (opened : created.ask files created.startCall = (.ok answer, service)) :
    service.system.AtRest := by
  obtain ⟨performed, after⟩ := performed_of_ask opened
  obtain ⟨pipeline, pool, pooled, rfl⟩ := assembled_of_create made
  rw [← after]
  refine Engine.System.atRest_of_opened pooled (fun source => ?_) performed
  exact Engine.Outcome.ofCompiled_isSome _ fun _ => Pipeline.writable_of_compile

end Service

namespace Command

def Transcript.add (transcript : Transcript) (lines : List String) : Transcript :=
  { transcript with lines := transcript.lines ++ lines }

theorem Transcript.add_nil (transcript : Transcript) : transcript.add [] = transcript := by
  simp [add]

theorem Transcript.add_add (transcript : Transcript) (first second : List String) :
    (transcript.add first).add second = transcript.add (first ++ second) := by
  simp [add]

namespace Session

variable {α β : Type}

def resume (session : Session α) (transcript : Transcript) : Except Ending α × Transcript :=
  (ExceptT.run session).run transcript

theorem resume_bind_ok {session : Session α} {next : α → Session β} {before after : Transcript}
    {value : α} (goes : session.resume before = (.ok value, after)) :
    (session >>= next).resume before = (next value).resume after := by
  simp only [resume, ExceptT.run_bind, StateT.run_bind] at goes ⊢
  rw [goes]
  rfl

theorem resume_bind_error {session : Session α} {next : α → Session β}
    {before after : Transcript} {ending : Ending}
    (ends : session.resume before = (.error ending, after)) :
    (session >>= next).resume before = (.error ending, after) := by
  simp only [resume, ExceptT.run_bind, StateT.run_bind] at ends ⊢
  rw [ends]
  rfl

theorem run_of_resume {session : Session Unit} {ending : Ending} {after : Transcript}
    (ends : session.resume ⟨[], none⟩ = (.error ending, after)) :
    session.run = (ending, after) := by
  have ends : (ExceptT.run session).run ⟨[], none⟩ = (.error ending, after) := ends
  rw [run, ends]

theorem run_of_resume_ok {session : Session Unit} {after : Transcript}
    (goes : session.resume ⟨[], none⟩ = (.ok (), after)) : session.run = (.exit 0, after) := by
  have goes : (ExceptT.run session).run ⟨[], none⟩ = (.ok (), after) := goes
  rw [run, goes]

def shown (markup : String) : List String :=
  match Console.Markup.plainText markup with
  | .ok text => Text.splitString '\n' text
  | .error _ => []

def isInOrder (markup : String) : Bool := (Console.Markup.plainText markup).isOk

def disorder : Ending := .crash (.foreign "MarkupError" "markup is out of order")

theorem resume_print {markup : String} (transcript : Transcript)
    (inOrder : isInOrder markup = true) :
    (print markup).resume transcript = (.ok (), transcript.add (shown markup)) := by
  simp only [isInOrder] at inOrder
  cases found : Console.Markup.plainText markup with
  | error fault => simp [found, Except.isOk, Except.toBool] at inOrder
  | ok text =>
      simp only [print, shown, found]
      rfl

theorem resume_print_disorder {markup : String} (transcript : Transcript)
    (outOfOrder : isInOrder markup = false) :
    (print markup).resume transcript = (.error disorder, transcript) := by
  simp only [isInOrder] at outOfOrder
  cases found : Console.Markup.plainText markup with
  | ok text => simp [found, Except.isOk, Except.toBool] at outOfOrder
  | error fault =>
      simp only [print, found]
      rfl

theorem forM_print_cons (markup : String) (rest : List String) :
    (markup :: rest).forM print = print markup >>= fun _ => rest.forM print := rfl

theorem resume_forM_print {markups : List String}
    (inOrder : ∀ markup ∈ markups, isInOrder markup = true) (transcript : Transcript) :
    (markups.forM print).resume transcript = (.ok (), transcript.add (markups.flatMap shown)) := by
  induction markups generalizing transcript with
  | nil =>
      rw [List.flatMap_nil, Transcript.add_nil]
      rfl
  | cons markup rest ih =>
      rw [List.forall_mem_cons] at inOrder
      rw [forM_print_cons, resume_bind_ok (resume_print transcript inOrder.1), ih inOrder.2,
        Transcript.add_add, List.flatMap_cons]

theorem resume_forM_print_disorder {before after : List String} {markup : String}
    (inOrder : ∀ markup ∈ before, isInOrder markup = true) (outOfOrder : isInOrder markup = false)
    (transcript : Transcript) :
    ((before ++ markup :: after).forM print).resume transcript =
      (.error disorder, transcript.add (before.flatMap shown)) := by
  induction before generalizing transcript with
  | nil =>
      rw [List.nil_append, forM_print_cons, List.flatMap_nil, Transcript.add_nil]
      exact resume_bind_error (resume_print_disorder transcript outOfOrder)
  | cons first rest ih =>
      rw [List.forall_mem_cons] at inOrder
      rw [List.cons_append, forM_print_cons, resume_bind_ok (resume_print transcript inOrder.1),
        ih inOrder.2, Transcript.add_add, List.flatMap_cons]

end Session

open Session

/-! What documents come to -/

structure Finding where
  path : String
  examined : Examined

namespace Finding

def lines (isTable : Bool) (finding : Finding) : List String :=
  finding.examined.lines isTable finding.path

def shown (isTable : Bool) (finding : Finding) : List String :=
  (finding.lines isTable).flatMap Session.shown

def entry? (finding : Finding) : Option Json := finding.examined.entry? finding.path

def isPass (finding : Finding) : Bool := finding.examined.isPass

def isText (finding : Finding) : Bool :=
  match finding.examined with
  | .undecodable _ => false
  | _ => true

def goesOn (isTable : Bool) (finding : Finding) : Bool :=
  finding.isText && (finding.lines isTable).all isInOrder

/-- Where no table is printed, nothing is printed of a document that has passed. -/
theorem goesOn_of_isPass {finding : Finding} (passes : finding.isPass = true) :
    finding.goesOn false = true := by
  obtain ⟨path, examined⟩ := finding
  cases examined with
  | passed => rfl
  | _ => cases passes

end Finding

def conclude (isTable : Bool) : List Finding → Session (Bool × List Json)
  | [] => return (true, [])
  | finding :: rest => do
      if let .undecodable failure := finding.examined then crash failure
      (finding.lines isTable).forM print
      let (passed, entries) ← conclude isTable rest
      return (finding.isPass && passed, finding.entry?.toList ++ entries)

section Conclude

variable {isTable : Bool} {finding : Finding} {found earlier later : List Finding}

theorem conclude_cons_of_isText (isText : finding.isText = true) :
    conclude isTable (finding :: later) = (do
      (finding.lines isTable).forM print
      let (passed, entries) ← conclude isTable later
      return (finding.isPass && passed, finding.entry?.toList ++ entries)) := by
  obtain ⟨path, examined⟩ := finding
  cases examined with
  | undecodable failure => cases isText
  | _ => rfl

theorem resume_conclude_cons (goes : finding.goesOn isTable = true) (transcript : Transcript) :
    (conclude isTable (finding :: later)).resume transcript =
      (do
        let (passed, entries) ← conclude isTable later
        return (finding.isPass && passed, finding.entry?.toList ++ entries) :
        Session (Bool × List Json)).resume (transcript.add (finding.shown isTable)) := by
  simp only [Finding.goesOn, Bool.and_eq_true, List.all_eq_true] at goes
  rw [conclude_cons_of_isText goes.1]
  exact resume_bind_ok (resume_forM_print goes.2 transcript)

/-- As long as all files are text and all lines are in order, every document counts. -/
theorem resume_conclude (goes : ∀ finding ∈ found, finding.goesOn isTable = true)
    (transcript : Transcript) :
    (conclude isTable found).resume transcript =
      (.ok (found.all Finding.isPass, found.filterMap Finding.entry?),
        transcript.add (found.flatMap (Finding.shown isTable))) := by
  induction found generalizing transcript with
  | nil =>
      rw [List.flatMap_nil, Transcript.add_nil]
      rfl
  | cons finding rest ih =>
      rw [List.forall_mem_cons] at goes
      rw [resume_conclude_cons goes.1, resume_bind_ok (ih goes.2 _), Transcript.add_add,
        ← List.flatMap_cons]
      have entries : (finding :: rest).filterMap Finding.entry? =
          finding.entry?.toList ++ rest.filterMap Finding.entry? := by
        cases entry : finding.entry? <;> simp [entry]
      rw [entries, List.all_cons]
      rfl

theorem resume_conclude_append (goes : ∀ finding ∈ earlier, finding.goesOn isTable = true)
    {before after : Transcript} {ending : Ending}
    (ends : (conclude isTable later).resume
      (before.add (earlier.flatMap (Finding.shown isTable))) = (.error ending, after)) :
    (conclude isTable (earlier ++ later)).resume before = (.error ending, after) := by
  induction earlier generalizing before with
  | nil => rwa [List.flatMap_nil, Transcript.add_nil] at ends
  | cons finding rest ih =>
      rw [List.forall_mem_cons] at goes
      rw [List.flatMap_cons, ← Transcript.add_add] at ends
      rw [List.cons_append, resume_conclude_cons goes.1]
      exact resume_bind_error (ih goes.2 ends)

theorem resume_conclude_undecodable (path : String) (failure : Failure) (transcript : Transcript) :
    (conclude isTable (⟨path, .undecodable failure⟩ :: later)).resume transcript =
      (.error (.crash failure), transcript) := rfl

theorem resume_conclude_disorder (isText : finding.isText = true) {before after : List String}
    {markup : String} (lines : finding.lines isTable = before ++ markup :: after)
    (inOrder : ∀ markup ∈ before, isInOrder markup = true) (outOfOrder : isInOrder markup = false)
    (transcript : Transcript) :
    (conclude isTable (finding :: later)).resume transcript =
      (.error disorder, transcript.add (before.flatMap Session.shown)) := by
  rw [conclude_cons_of_isText isText, lines]
  exact resume_bind_error (resume_forM_print_disorder inOrder outOfOrder transcript)

end Conclude

/-! Each document on its own -/

section Alone

variable {desk : Desk} {service other : Service}

def alone (desk : Desk) (service : Service) (path : String) : Finding :=
  ⟨path, (examine desk service path).1⟩

theorem examine_of_resembles (alike : other.Resembles service) (rest : service.system.AtRest)
    (path : String) :
    (examine desk other path).1 = (examine desk service path).1 ∧
      (examine desk other path).2.Resembles service := by
  simp only [examine]
  cases Document.ofFile desk.files desk.surroundings path none none with
  | error failure => exact ⟨rfl, alike⟩
  | ok document =>
      obtain ⟨answered, again⟩ := alike.asks rest desk.files document
      have asked : other.ask desk.files (other.validateCall document) =
          ((service.ask desk.files (service.validateCall document)).1,
            (other.ask desk.files (other.validateCall document)).2) := Prod.ext answered rfl
      dsimp only
      rw [asked]
      generalize (other.ask desk.files (other.validateCall document)).2 = later at again
      cases service.ask desk.files (service.validateCall document) with
      | mk answer after =>
          cases answer with
          | ok found => exact ⟨rfl, again⟩
          | error failure => cases failure <;> exact ⟨rfl, again⟩

theorem validateAll_eq (isTable : Bool) (rest : service.system.AtRest)
    (alike : other.Resembles service) (paths : List String) :
    validateAll desk isTable other paths = conclude isTable (paths.map (alone desk service)) := by
  induction paths generalizing other with
  | nil => rfl
  | cons path paths ih =>
      -- Each validation leaves a service behind that has the same answers to give.
      have examined : ((examine desk other path).1 = (examine desk service path).1 ∧ _) :=
        examine_of_resembles alike rest path
      simp only [validateAll, List.map_cons, alone, conclude]
      rw [ih examined.2, examined.1]
      rfl

structure Opened (desk : Desk) (options : ValidateOptions) (service : Service) : Prop where
  format : options.format ∈ formats
  started : ∃ settings created answer, settingsOf desk options.common = .ok settings ∧
    (options.change settings).ruleSets.files ≠ [] ∧
    Service.create desk.files desk.surroundings (options.change settings) = .ok created ∧
    created.ask desk.files created.startCall = (.ok answer, service)

/-- What a session comes to whose documents come to `found`. -/
structure Presents (isTable : Bool) (found : List Finding) (ending : Ending)
    (lines : List String) : Prop where
  complete : (∀ finding ∈ found, finding.goesOn isTable = true) →
    ending = .exit (if found.all Finding.isPass then 0 else 1) ∧
    lines = found.flatMap (Finding.shown isTable) ++
      if isTable then []
      else Text.splitString '\n' (Json.list (found.filterMap Finding.entry?)).written
  -- The first file that is no text ends everything, and no entry is printed.
  undecodable : ∀ earlier path failure later,
    found = earlier ++ ⟨path, .undecodable failure⟩ :: later →
    (∀ finding ∈ earlier, finding.goesOn isTable = true) →
    ending = .crash failure ∧ lines = earlier.flatMap (Finding.shown isTable)
  disordered : ∀ earlier finding later before markup after, found = earlier ++ finding :: later →
    (∀ finding ∈ earlier, finding.goesOn isTable = true) → finding.isText = true →
    finding.lines isTable = before ++ markup :: after →
    (∀ markup ∈ before, isInOrder markup = true) → isInOrder markup = false →
    ending = disorder ∧
      lines = earlier.flatMap (Finding.shown isTable) ++ before.flatMap Session.shown

structure Concludes (isTable : Bool) (found : List Finding) (ending : Ending)
    (lines : List String) : Prop extends Presents isTable found ending lines where
  passed : ending = .exit 0 ↔
    ∀ finding ∈ found, finding.isPass = true ∧ finding.goesOn isTable = true

def present (isTable : Bool) (found : List Finding) : Session Unit := do
  let (passed, entries) ← conclude isTable found
  if !isTable then echo (Json.list entries).written
  exit (if passed then 0 else 1)

theorem resume_checkFormat {format : String} (known : format ∈ formats) (transcript : Transcript) :
    (checkFormat format).resume transcript = (.ok (), transcript) := by
  simp only [checkFormat, List.contains_iff_mem.mpr known]
  rfl

theorem resume_settingsFor {options : Options} {settings : Settings}
    (accepted : settingsOf desk options = .ok settings) (handles : Failure → Bool)
    (change : Settings → Settings) :
    ∃ level, (settingsFor desk options handles change).resume ⟨[], none⟩ =
      (.ok (change settings), ⟨[], some level⟩) := by
  refine ⟨if options.verbose then .debug else settings.logging.level, ?_⟩
  simp only [settingsFor, accepted]
  rfl

theorem resume_openService {settings : Settings} {created : Service}
    {answer : Engine.Answer Validator}
    (made : Service.create desk.files desk.surroundings settings = .ok created)
    (started : created.ask desk.files created.startCall = (.ok answer, service))
    (transcript : Transcript) :
    (openService desk settings).resume transcript = (.ok service, transcript) := by
  simp only [openService, made, started]
  rfl

theorem resume_validate {options : ValidateOptions} (opened : Opened desk options service) :
    ∃ level, (validate desk options).resume ⟨[], none⟩ =
      (present (options.format == "table")
        (options.documents.map fun document => alone desk service (shownPath document))).resume
          ⟨[], some level⟩ := by
  obtain ⟨format, loaded, created, answer, accepted, named, made, started⟩ := opened
  have rest := Service.atRest_of_opened made started
  obtain ⟨level, loads⟩ := resume_settingsFor accepted isValueFailure options.change
  have other : (options.format == "json") = !(options.format == "table") := by
    simp only [formats, List.mem_cons, List.not_mem_nil, or_false] at format
    rcases format with table | json
    · rw [table]
      rfl
    · rw [json]
      rfl
  refine ⟨level, ?_⟩
  rw [validate, resume_bind_ok (resume_checkFormat format _), resume_bind_ok loads, other]
  simp only [List.isEmpty_iff, named, if_false]
  rw [resume_bind_ok (resume_openService made started _), validateAll_eq _ rest (.refl rest),
    List.map_map]
  rfl

theorem Presents.passed {isTable : Bool} {found : List Finding} {ending : Ending}
    {lines : List String} (presents : Presents isTable found ending lines) :
    ending = .exit 0 ↔
      ∀ finding ∈ found, finding.isPass = true ∧ finding.goesOn isTable = true := by
  by_cases goes : ∀ finding ∈ found, finding.goesOn isTable = true
  · rw [(presents.complete goes).1]
    cases all : found.all Finding.isPass with
    | true =>
        rw [List.all_eq_true] at all
        exact iff_of_true rfl fun finding member => ⟨all finding member, goes finding member⟩
    | false =>
        refine iff_of_false (by simp) fun passes => ?_
        rw [List.all_eq_true.mpr fun finding member => (passes finding member).1] at all
        cases all
  · refine iff_of_false (fun ends => ?_) fun passes => goes fun finding member =>
      (passes finding member).2
    -- The first document that ends the session ends it by a crash.
    obtain ⟨earlier, finding, later, same, before, stops⟩ := exists_first_of_not_all goes
    cases isText : finding.isText with
    | false =>
        obtain ⟨path, examined⟩ := finding
        cases examined with
        | undecodable failure =>
            rw [(presents.undecodable earlier path failure later same before).1] at ends
            cases ends
        | _ => cases isText
    | true =>
        have outOfOrder : ¬ ∀ markup ∈ finding.lines isTable, isInOrder markup = true := by
          simpa [Finding.goesOn, isText] using stops
        obtain ⟨first, markup, rest, split, inOrder, bad⟩ := exists_first_of_not_all outOfOrder
        rw [(presents.disordered earlier finding later first markup rest same before isText split
          inOrder bad).1] at ends
        cases ends

theorem presents_of_resume {isTable : Bool} {found : List Finding} {session : Session Unit}
    {level : Option Verbosity}
    (resumes : session.resume ⟨[], none⟩ = (present isTable found).resume ⟨[], level⟩) :
    Presents isTable found session.run.1 session.run.2.lines := by
  have stops {ending : Ending} {after : Transcript}
      (ends : (conclude isTable found).resume ⟨[], level⟩ = (.error ending, after)) :
      session.run = (ending, after) :=
    run_of_resume (resumes.trans (resume_bind_error ends))
  constructor
  case complete =>
    intro goes
    have ends := resumes.trans (resume_bind_ok (resume_conclude goes ⟨[], level⟩))
    cases isTable <;>
    · rw [run_of_resume (ends.trans rfl)]
      exact ⟨rfl, by simp [Transcript.add]⟩
  case undecodable =>
    rintro earlier path failure later rfl goes
    rw [stops (resume_conclude_append goes (resume_conclude_undecodable path failure _))]
    exact ⟨rfl, List.nil_append _⟩
  case disordered =>
    rintro earlier finding later before markup after rfl goes isText lines inOrder outOfOrder
    rw [stops (resume_conclude_append goes
      (resume_conclude_disorder isText lines inOrder outOfOrder _))]
    exact ⟨rfl, by simp [Transcript.add]⟩

theorem concludes_of_opened {options : ValidateOptions} (opened : Opened desk options service) :
    Concludes (options.format == "table")
      (options.documents.map fun document => alone desk service (shownPath document))
      (validate desk options).run.1 (validate desk options).run.2.lines := by
  obtain ⟨level, resumes⟩ := resume_validate opened
  have presents := presents_of_resume resumes
  exact ⟨presents, presents.passed⟩

def illegibleDesk : Desk :=
  -- An empty file and one that is no text.
  ⟨⟨[(["a"], ⟨#[]⟩), (["b"], ⟨#[255]⟩)], [], [], []⟩, ⟨⟨.slash, []⟩, fun _ => none⟩⟩

def illegibleBatch : ValidateOptions :=
  ⟨⟨["/t"], none, false⟩, none, false, "json", ["/a", "/b"]⟩

end Alone

end Command

end Schematron

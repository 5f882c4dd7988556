import Schematron.Pipeline

/-!
Stages of a compilation: which are run, how often it asks whether it is cancelled, and what it comes
to. Main statement: the stages are run in their order up to the first obstacle, with one question
before each, and a validator keeps what they have written.
-/

namespace Schematron

abbrev Performed := Stage × List LogEntry

inductive Passes (transform : Stage → Xml.Document → StageRun) :
    Xml.Document → List Performed → Xml.Document → Prop
  | nil (document : Xml.Document) : Passes transform document [] document
  | cons {stage : Stage} {document next last : Xml.Document} {log : List LogEntry}
      {later : List Performed} :
      transform stage document = ⟨.tree next, log⟩ → Passes transform next later last →
      Passes transform document ((stage, log) :: later) last

inductive Obstacle (transform : Stage → Xml.Document → StageRun) (cancelled : Nat → Bool)
    (source : RuleSource) (question : Nat) (stage : Stage) (document : Xml.Document) :
    Failure → List Performed → Prop
  | cancelled :
      cancelled question = true →
      Obstacle transform cancelled source question stage document
        (.cancelled source.toString none) []
  | failed {detail : String} {log : List LogEntry} :
      cancelled question = false → transform stage document = ⟨.failure detail, log⟩ →
      Obstacle transform cancelled source question stage document
        (.compilation ⟨"Stage " ++ stage.name ++ " failed for schematron file " ++
          source.toString ++ ": " ++ detail, some source.toString, some stage.name,
          some (.foreign "XSLTApplyError" detail)⟩) [(stage, log)]
  | nothing {log : List LogEntry} :
      cancelled question = false → transform stage document = ⟨.nothing, log⟩ →
      Obstacle transform cancelled source question stage document
        (.compilation ⟨"Stage " ++ stage.name ++ " produced no output for schematron file " ++
          source.toString, some source.toString, some stage.name, none⟩) [(stage, log)]

def Uncancelled (cancelled : Nat → Bool) (asked count : Nat) : Prop :=
  ∀ place < count, cancelled (asked + place + 1) = false

inductive Performs (transform : Stage → Xml.Document → StageRun) (cancelled : Nat → Bool)
    (source : RuleSource) (asked : Nat) (stages : List Stage) (document : Xml.Document) :
    Except Failure Xml.Document → Nat → List Performed → Prop
  | passed {ran : List Performed} {last : Xml.Document} :
      ran.map (·.1) = stages → Passes transform document ran last →
      Uncancelled cancelled asked ran.length →
      Performs transform cancelled source asked stages document (.ok last) ran.length ran
  | stopped {passed : List Performed} {stage : Stage} {others : List Stage}
      {reached : Xml.Document} {failure : Failure} {ran : List Performed} :
      passed.map (·.1) ++ stage :: others = stages → Passes transform document passed reached →
      Uncancelled cancelled asked passed.length →
      Obstacle transform cancelled source (asked + passed.length + 1) stage reached failure ran →
      Performs transform cancelled source asked stages document (.error failure)
        (passed.length + 1) (passed ++ ran)

def messagesOf (ran : List Performed) : List StageMessage :=
  ran.flatMap fun (stage, log) => log.map fun entry =>
    ⟨stage.name, .ofLogName entry.levelName, Text.trimString entry.message,
      entry.line.filter (· != 0)⟩

/-- What a compilation comes to: the result, the number of questions, and the stages that were
run. -/
inductive Compiles (transform : Stage → Xml.Document → StageRun)
    (load : Xml.Document → Except Transform.LoadFault Transform.Stylesheet)
    (cancelled : Nat → Bool) (source : RuleSource) :
    SchemaFile → Except Failure Validator → Nat → List Stage → Prop
  | missing :
      Compiles transform load cancelled source .missing
        (.error (.compilation ⟨"Could not locate schematron file " ++ source.toString,
          some source.toString, none, none⟩)) 0 []
  | unreadable (detail : String) :
      Compiles transform load cancelled source (.unreadable detail)
        (.error (.compilation ⟨"Could not parse schematron file " ++ source.toString ++ ": " ++
          detail, some source.toString, none, some (.foreign "XMLSyntaxError" detail)⟩)) 0 []
  | stopped {document : Xml.Document} {failure : Failure} {polls : Nat} {ran : List Performed} :
      Performs transform cancelled source 0 Stage.all document (.error failure) polls ran →
      Compiles transform load cancelled source (.tree document) (.error failure) polls
        (ran.map (·.1))
  | unusable {document last : Xml.Document} {polls : Nat} {ran : List Performed}
      {fault : Transform.LoadFault} :
      Performs transform cancelled source 0 Stage.all document (.ok last) polls ran →
      load last = .error fault →
      Compiles transform load cancelled source (.tree document)
        (.error (.compilation ⟨"Error trying to create validator using sch file " ++
          source.toString ++ ": " ++ fault.message, some source.toString,
          some Stage.compilation.name, some (.foreign "XSLTParseError" fault.message)⟩)) polls
        (ran.map (·.1))
  | compiled {document last : Xml.Document} {polls : Nat} {ran : List Performed}
      {stylesheet : Transform.Stylesheet} :
      Performs transform cancelled source 0 Stage.all document (.ok last) polls ran →
      load last = .ok stylesheet →
      Compiles transform load cancelled source (.tree document)
        (.ok ⟨source.uri, messagesOf ran, stylesheet⟩) polls (ran.map (·.1))

section Stages

variable {transform : Stage → Xml.Document → StageRun} {cancelled : Nat → Bool}
  {source : RuleSource} {asked : Nat}

theorem Uncancelled.succ {count : Nat} (first : cancelled (asked + 1) = false)
    (later : Uncancelled cancelled (asked + 1) count) :
    Uncancelled cancelled asked (count + 1) := by
  intro place within
  cases place with
  | zero => exact first
  | succ place =>
      rw [← Nat.add_assoc, Nat.add_right_comm asked place 1]
      exact later place (Nat.lt_of_succ_lt_succ within)

theorem Performs.cons {stage : Stage} {rest : List Stage} {document next : Xml.Document}
    {log : List LogEntry} {result : Except Failure Xml.Document} {polls : Nat}
    {ran : List Performed} (goesOn : cancelled (asked + 1) = false)
    (leads : transform stage document = ⟨.tree next, log⟩)
    (performs : Performs transform cancelled source (asked + 1) rest next result polls ran) :
    Performs transform cancelled source asked (stage :: rest) document result (polls + 1)
      ((stage, log) :: ran) := by
  cases performs with
  | passed order passes uncancelled =>
      have order : ((stage, log) :: ran).map (·.1) = stage :: rest := congrArg (stage :: ·) order
      exact .passed order (.cons leads passes) (uncancelled.succ goesOn)
  | @stopped passed last others _ _ ran order passes uncancelled obstacle =>
      have order : ((stage, log) :: passed).map (·.1) ++ last :: others = stage :: rest :=
        congrArg (stage :: ·) order
      refine .stopped order (.cons leads passes) (uncancelled.succ goesOn) ?_
      rwa [List.length_cons, ← Nat.add_assoc, Nat.add_right_comm asked passed.length 1]

theorem Obstacle.performs {stage : Stage} {rest : List Stage} {document : Xml.Document}
    {failure : Failure} {ran : List Performed}
    (obstacle : Obstacle transform cancelled source (asked + 1) stage document failure ran) :
    Performs transform cancelled source asked (stage :: rest) document (.error failure) 1 ran := by
  have order : ([] : List Performed).map (·.1) ++ stage :: rest = stage :: rest := rfl
  exact .stopped order (.nil document) (by simp [Uncancelled]) obstacle

theorem messagesOf_append (first second : List Performed) :
    messagesOf (first ++ second) = messagesOf first ++ messagesOf second :=
  List.flatMap_append

theorem Collector.messages_collect (collector : Collector) (stage : Stage) (log : List LogEntry) :
    (collector.collect stage.name log).messages =
      collector.messages ++ messagesOf [(stage, log)] := by
  simp only [collect, messagesOf, List.flatMap_cons, List.flatMap_nil, List.append_nil]
  induction log generalizing collector with
  | nil => simp
  | cons entry rest ih =>
      rw [List.map_cons, List.foldl_cons, ih, add, List.append_assoc]
      refine congrArg (collector.messages ++ ·) (congrArg (· :: _) ?_)
      cases line : entry.line with
      | none => simp [ofLogEntry, Collector.entry, line]
      | some number =>
          by_cases zero : number = 0 <;>
            simp [ofLogEntry, Collector.entry, line, zero, Option.filter]

structure Progress.Extends (before after : Progress) (polls : Nat) (ran : List Performed) :
    Prop where
  asked : after.polls = before.polls + polls
  stages : after.ran = before.ran ++ ran.map (·.1)
  messages : after.collector.messages = before.collector.messages ++ messagesOf ran

namespace Progress

theorem extends_refl (progress : Progress) : progress.Extends progress 0 [] :=
  ⟨rfl, (List.append_nil _).symm, (List.append_nil _).symm⟩

theorem extends_poll (progress : Progress) : progress.Extends progress.poll 1 [] :=
  ⟨rfl, (List.append_nil _).symm, (List.append_nil _).symm⟩

theorem extends_run (progress : Progress) (stage : Stage) (log : List LogEntry) :
    progress.Extends (progress.poll.run stage log) 1 [(stage, log)] :=
  ⟨rfl, rfl, progress.collector.messages_collect stage log⟩

theorem Extends.cons {before middle after : Progress} {polls : Nat} {first : Performed}
    {ran : List Performed} (begins : before.Extends middle 1 [first])
    (goesOn : middle.Extends after polls ran) :
    before.Extends after (polls + 1) (first :: ran) where
  asked := by rw [goesOn.asked, begins.asked, Nat.add_assoc, Nat.add_comm 1 polls]
  stages := by rw [goesOn.stages, begins.stages, List.append_assoc]; rfl
  messages := by
    rw [goesOn.messages, begins.messages, List.append_assoc, ← messagesOf_append]
    rfl

end Progress

variable (transform cancelled source)

theorem performStages_performs (stages : List Stage) (document : Xml.Document)
    (progress : Progress) :
    ∃ polls ran, Performs transform cancelled source progress.polls stages document
        (performStages transform cancelled source stages document progress).1 polls ran ∧
      progress.Extends (performStages transform cancelled source stages document progress).2 polls
        ran := by
  induction stages generalizing document progress with
  | nil => exact ⟨0, [], .passed rfl (.nil document) (by simp [Uncancelled]), progress.extends_refl⟩
  | cons stage rest ih =>
      simp only [performStages]
      split
      next stops =>
        exact ⟨1, [], Obstacle.performs (.cancelled stops), progress.extends_poll⟩
      next goesOn =>
        have goesOn : cancelled (progress.polls + 1) = false := eq_false_of_ne_true goesOn
        cases performed : transform stage document with
        | mk result log =>
        cases result with
        | tree next =>
            obtain ⟨polls, ran, performs, goes⟩ := ih next (progress.poll.run stage log)
            exact ⟨polls + 1, (stage, log) :: ran, performs.cons goesOn performed,
              (progress.extends_run stage log).cons goes⟩
        | nothing =>
            exact ⟨1, [(stage, log)], Obstacle.performs (.nothing goesOn performed),
              progress.extends_run stage log⟩
        | failure detail =>
            exact ⟨1, [(stage, log)], Obstacle.performs (.failed goesOn performed),
              progress.extends_run stage log⟩

variable {transform cancelled source}

/-- Stages go the same way with other answers and other transformations that agree on the questions
that were asked and on the stages that were run. -/
theorem performStages_congr {otherTransform : Stage → Xml.Document → StageRun}
    {others : Nat → Bool} (stages : List Stage) (document : Xml.Document) (progress : Progress)
    (answers : ∀ question, progress.polls < question →
      question ≤ (performStages transform cancelled source stages document progress).2.polls →
      others question = cancelled question)
    (works : ∀ stage ∈ (performStages transform cancelled source stages document progress).2.ran,
      otherTransform stage = transform stage) :
    performStages otherTransform others source stages document progress =
      performStages transform cancelled source stages document progress := by
  induction stages generalizing document progress with
  | nil => rfl
  | cons stage rest ih =>
      -- The first question is asked in any case; its answer decides whether the stage is run.
      have first := answers progress.poll.polls (Nat.lt_succ_self _)
      simp only [performStages] at answers works first ⊢
      cases stops : cancelled progress.poll.polls with
      | true =>
          simp only [stops, if_true] at first ⊢
          rw [if_pos (first (Nat.le_refl _))]
      | false =>
      cases performed : transform stage document with
      | mk result log =>
      have here : stage ∈ progress.ran ++ [stage] := List.mem_append_right _ (.head _)
      cases result with
      | tree next =>
          simp only [stops, performed, Bool.false_eq_true, if_false] at answers works first ⊢
          obtain ⟨polls, ran, -, goes⟩ := performStages_performs transform cancelled source rest
            next (progress.poll.run stage log)
          have asked := first (by rw [goes.asked]; exact Nat.le_add_right _ polls)
          have same := works stage (by rw [goes.stages]; exact List.mem_append_left _ here)
          rw [asked, same, performed]
          exact ih next _ (fun question after => answers question (Nat.lt_of_succ_lt after)) works
      | nothing =>
          simp only [stops, performed, Bool.false_eq_true, if_false] at works first ⊢
          rw [first (Nat.le_refl _), works stage here, performed]
          rfl
      | failure detail =>
          simp only [stops, performed, Bool.false_eq_true, if_false] at works first ⊢
          rw [first (Nat.le_refl _), works stage here, performed]
          rfl

theorem performStages_start (document : Xml.Document) {result : Except Failure Xml.Document}
    {progress : Progress}
    (performed : performStages transform cancelled source Stage.all document (.start source) =
      (result, progress)) :
    ∃ ran, Performs transform cancelled source 0 Stage.all document result progress.polls ran ∧
      progress.ran = ran.map (·.1) ∧ progress.collector.messages = messagesOf ran := by
  obtain ⟨polls, ran, performs, goes⟩ :=
    performStages_performs transform cancelled source Stage.all document (.start source)
  rw [performed] at performs goes
  have asked : progress.polls = polls := goes.asked.trans (Nat.zero_add polls)
  exact ⟨ran, asked ▸ performs, goes.stages, goes.messages⟩

variable {load : Xml.Document → Except Transform.LoadFault Transform.Stylesheet}

theorem Validator.compile_comes (file : SchemaFile) :
    Compiles transform load cancelled source file
      (Validator.compile transform load cancelled source file).1
      (Validator.compile transform load cancelled source file).2.polls
      (Validator.compile transform load cancelled source file).2.ran := by
  cases file with
  | missing => exact .missing
  | unreadable detail => exact .unreadable detail
  | tree document =>
      cases performed : performStages transform cancelled source Stage.all document
        (.start source) with
      | mk result progress =>
      obtain ⟨ran, performs, stages, messages⟩ := performStages_start document performed
      cases result with
      | error failure =>
          simp only [Validator.compile, Schematron.compile, performed, Except.map, stages]
          exact .stopped performs
      | ok last =>
          cases loaded : load last with
          | error fault =>
              simp only [Validator.compile, Schematron.compile, performed, loaded, Except.map,
                Progress.collect, stages]
              exact .unusable performs loaded
          | ok stylesheet =>
              simp only [Validator.compile, Schematron.compile, performed, loaded, Except.map,
                stages, messages]
              exact .compiled performs loaded

variable (transform cancelled source load)

theorem Validator.compile_progress (document : Xml.Document) :
    let compiled := (Validator.compile transform load cancelled source (.tree document)).2
    let staged := (performStages transform cancelled source Stage.all document (.start source)).2
    compiled.polls = staged.polls ∧ compiled.ran = staged.ran := by
  simp only [Validator.compile, Schematron.compile]
  cases performed : performStages transform cancelled source Stage.all document (.start source) with
  | mk result progress =>
  cases result with
  | error failure => exact ⟨rfl, rfl⟩
  | ok last => cases loaded : load last <;> simp [loaded, Progress.collect]

variable {transform cancelled source load}

theorem Validator.compile_congr {otherTransform : Stage → Xml.Document → StageRun}
    {others : Nat → Bool} (file : SchemaFile)
    (answers : ∀ question, 0 < question →
      question ≤ (Validator.compile transform load cancelled source file).2.polls →
      others question = cancelled question)
    (works : ∀ stage ∈ (Validator.compile transform load cancelled source file).2.ran,
      otherTransform stage = transform stage) :
    Validator.compile otherTransform load others source file =
      Validator.compile transform load cancelled source file := by
  cases file with
  | missing => rfl
  | unreadable detail => rfl
  | tree document =>
      suffices same : performStages otherTransform others source Stage.all document
          (.start source) =
          performStages transform cancelled source Stage.all document (.start source) by
        simp only [Validator.compile, Schematron.compile, same]
      obtain ⟨asked, ran⟩ := Validator.compile_progress transform cancelled source load document
      exact performStages_congr Stage.all document (.start source)
        (fun question after within => answers question after (asked ▸ within))
        (fun stage member => works stage (ran ▸ member))

/-- What a compilation comes to, and that it rests on nothing else: other answers to later
questions, and other stages in place of those that were not run, give the same. -/
structure InOrder (transform : Stage → Xml.Document → StageRun)
    (load : Xml.Document → Except Transform.LoadFault Transform.Stylesheet)
    (cancelled : Nat → Bool) (source : RuleSource) (file : SchemaFile)
    (outcome : Except Failure Validator × Progress) : Prop where
  comes : Compiles transform load cancelled source file outcome.1 outcome.2.polls outcome.2.ran
  rests : ∀ (otherTransform : Stage → Xml.Document → StageRun) (others : Nat → Bool),
    (∀ question, 0 < question → question ≤ outcome.2.polls →
      others question = cancelled question) →
    (∀ stage ∈ outcome.2.ran, otherTransform stage = transform stage) →
    Validator.compile otherTransform load others source file = outcome

end Stages

/-! What a compilation may fail with -/

/-- Where nothing is cancelled, a failure is one of the rule set. -/
theorem Obstacle.compilation {transform : Stage → Xml.Document → StageRun} {source : RuleSource}
    {question : Nat} {stage : Stage} {document : Xml.Document} {failure : Failure}
    {ran : List Performed}
    (obstacle : Obstacle transform (fun _ => false) source question stage document failure ran) :
    ∃ found, failure = .compilation found := by
  cases obstacle with
  | cancelled stops => cases stops
  | failed => exact ⟨_, rfl⟩
  | nothing => exact ⟨_, rfl⟩

theorem Compiles.compilation {transform : Stage → Xml.Document → StageRun}
    {load : Xml.Document → Except Transform.LoadFault Transform.Stylesheet} {source : RuleSource}
    {file : SchemaFile} {failure : Failure} {polls : Nat} {ran : List Stage}
    (compiles : Compiles transform load (fun _ => false) source file (.error failure) polls ran) :
    ∃ found, failure = .compilation found := by
  cases compiles with
  | missing => exact ⟨_, rfl⟩
  | unreadable detail => exact ⟨_, rfl⟩
  | unusable => exact ⟨_, rfl⟩
  | stopped performs =>
      cases performs with
      | stopped _ _ _ obstacle => exact obstacle.compilation

theorem FileTree.schemaFile_eq_error_iff {files : FileTree} {source : RuleSource}
    {failure : Failure} :
    files.schemaFile source = .error failure ↔ files.isFile [] source.path = .error failure := by
  rw [schemaFile]
  cases files.isFile [] source.path with
  | error other => simp [bind, Except.bind]
  | ok isFile =>
      cases isFile
      · simp [bind, Except.bind, pure, Except.pure]
      · simp only [bind, Except.bind, Bool.not_true, Bool.false_eq_true, if_false, reduceCtorEq,
          iff_false]
        split
        next => simp [pure, Except.pure]
        next => split <;> simp [pure, Except.pure]

theorem Pipeline.writable_of_compile {pipeline : Pipeline} {files : FileTree}
    {source : RuleSource} {failure : Failure}
    (failed : (pipeline.compile files (fun _ => false) source).1 = .error failure) :
    failure.onWriting? = none := by
  cases found : files.schemaFile source with
  | error refused =>
      simp only [compile, found] at failed
      cases failed
      have looked := FileTree.schemaFile_eq_error_iff.mp found
      simp only [FileTree.isFile, FileTree.look] at looked
      split at looked
      next => cases looked
      next =>
        split at looked <;> cases looked
        rfl
  | ok file =>
      have comes : Compiles (pipeline.transform files source) (Transform.load source.uri)
          (fun _ => false) source file _ _ _ := Validator.compile_comes file
      simp only [compile, found] at failed
      rw [failed] at comes
      obtain ⟨given, rfl⟩ := comes.compilation
      rfl

end Schematron

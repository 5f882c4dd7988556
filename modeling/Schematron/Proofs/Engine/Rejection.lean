import Schematron.Proofs.Engine.Containment
import Schematron.Proofs.Engine.Courses
import Schematron.Proofs.Engine.Encodings
import Schematron.Proofs.Engine.Enforcement
import Schematron.Proofs.Location.Resolution
import Schematron.Proofs.Text.Sanitizing

/-!
Rejections as texts. Main statement: the text of a rejection that a validation raises has a line for
each message, and it tells which errors and which warnings there were, in order.
-/

namespace Schematron

/-! Lines -/

namespace Text

def lineBreak : CodePoint := .ofChar '\n'

theorem splitAt_lines {α : Type} [BEq α] [LawfulBEq α] {separator : α} {first : List α}
    {rest : List (List α)} (unbroken : ∀ line ∈ first :: rest, separator ∉ line) :
    splitAt separator (first ++ rest.flatMap (separator :: ·)) = first :: rest := by
  have joined (lines : List (List α)) (first : List α) :
      [separator].intercalate (first :: lines) = first ++ lines.flatMap (separator :: ·) := by
    induction lines generalizing first with
    | nil => simp
    | cons next lines ih => simp [List.intercalate_cons_cons, ih]
  rw [← joined, splitAt_eq]
  exact List.splitOn_intercalate separator unbroken (List.cons_ne_nil first rest)

theorem Normal.lineBreak_notMem {line : Text} (normal : Normal line) : lineBreak ∉ line :=
  fun member => normal.unbroken lineBreak member (by decide)

def labelled (label : Text) (lines : List Text) : List Text :=
  (lines.filter (label.isPrefixOf ·)).map (·.drop label.length)

theorem labelled_append (label : Text) (lines others : List Text) :
    labelled label (lines ++ others) = labelled label lines ++ labelled label others := by
  simp [labelled]

theorem labelled_self (label : Text) (messages : List Text) :
    labelled label (messages.map (label ++ ·)) = messages := by
  have begins (message : Text) : label.isPrefixOf (label ++ message) = true := by simp
  simp [labelled, List.filter_map, Function.comp_def, begins]

theorem labelled_other {label other : Text} {messages : List Text}
    (apart : ∀ message, label.isPrefixOf (other ++ message) = false) :
    labelled label (messages.map (other ++ ·)) = [] := by
  simp [labelled, List.filter_map, Function.comp_def, apart]

end Text

namespace Failure

open Text

def listed (text : Text) : List Text × List Text :=
  let lines := (splitAt lineBreak text).tail
  (labelled (ofString "  error: ") lines, labelled (ofString "  warning: ") lines)

theorem rejection_eq (header : String) (errors warnings : List Text) :
    rejection header errors warnings = ofString header ++
      (errors.map (ofString "  error: " ++ ·) ++ warnings.map (ofString "  warning: " ++ ·)).flatMap
        (lineBreak :: ·) := by
  have broken : ofString "\n" = [lineBreak] := rfl
  simp [rejection, broken, List.flatMap_map]

theorem splitAt_rejection {header : String} {errors warnings : List Text}
    (single : lineBreak ∉ ofString header)
    (unbroken : ∀ message ∈ errors ++ warnings, lineBreak ∉ message) :
    splitAt lineBreak (rejection header errors warnings) = ofString header ::
      (errors.map (ofString "  error: " ++ ·) ++
        warnings.map (ofString "  warning: " ++ ·)) := by
  rw [rejection_eq]
  refine splitAt_lines (List.forall_mem_cons.mpr ⟨single, fun line member => ?_⟩)
  have plain : lineBreak ∉ ofString "  error: " ∧ lineBreak ∉ ofString "  warning: " := by decide
  rcases List.mem_append.mp member with erring | warned
  · obtain ⟨message, among, rfl⟩ := List.mem_map.mp erring
    simp [plain.1, unbroken message (List.mem_append_left warnings among)]
  · obtain ⟨message, among, rfl⟩ := List.mem_map.mp warned
    simp [plain.2, unbroken message (List.mem_append_right errors among)]

theorem listed_eq {text header : Text} {errors warnings : List Text}
    (lines : splitAt lineBreak text = header ::
      (errors.map (ofString "  error: " ++ ·) ++ warnings.map (ofString "  warning: " ++ ·))) :
    listed text = (errors, warnings) := by
  have first (message : Text) :
      (ofString "  error: ").isPrefixOf (ofString "  warning: " ++ message) = false := rfl
  have second (message : Text) :
      (ofString "  warning: ").isPrefixOf (ofString "  error: " ++ message) = false := rfl
  simp only [listed, lines, List.tail_cons, labelled_append, labelled_self, labelled_other first,
    labelled_other second, List.append_nil, List.nil_append]

def isRejection : Failure → Bool
  | .rejected .. => true
  | _ => false

def isOrdinary : Failure → Bool
  | .rejected .. => false
  | .unwritable .. => false
  | _ => true

end Failure

/-! What validations raise -/

inductive Service.Raises (service : Service) (document : Document) (failure : Failure) : Prop
  | inRun {moves : List (Engine.Move Validator)} {state : Engine.State Validator} :
      service.system.ComesTo (service.validateCall document) moves state (.error failure) →
      (∀ event ∈ (service.system.asked (service.validateCall document)).trace moves,
        event.Truthful Validator.Gives) →
      service.Raises document failure
  | asked {files : FileTree} :
      (service.ask files (service.validateCall document)).1 = .error failure →
      service.Raises document failure

theorem Document.ordinary_of_parse {document : Document} {failure : Failure}
    (refused : document.parse = .error failure) : failure.isOrdinary = true := by
  unfold Document.parse at refused
  split at refused
  next =>
    cases refused
    rfl
  next =>
    split at refused
    next =>
      cases refused
      rfl
    next =>
      split at refused
      next => cases refused
      next =>
        cases refused
        rfl

theorem Validator.ordinary_of_run {files : FileTree} {validator : Validator}
    {document : Document} {failure : Failure}
    (failed : validator.run files document = .error failure) : failure.isOrdinary = true := by
  unfold Validator.run at failed
  cases read : document.parse with
  | error raised =>
      rw [read] at failed
      cases failed
      exact Document.ordinary_of_parse read
  | ok parsed =>
      simp only [read, Bind.bind, Except.bind] at failed
      split at failed
      next => cases failed
      next =>
        cases failed
        rfl

namespace Engine

variable {V : Type}

theorem Outcome.not_rejection {handle : Handle} {outcome : Outcome V} {failure : Failure}
    (told : .error failure = outcome.result handle) : failure.isRejection = false := by
  cases outcome with
  | succeeded validator => cases told
  | _ =>
      cases told
      rfl

theorem not_rejection_execution (handle : Handle) {failure : Failure}
    (ordinary : failure.isOrdinary = true) :
    (executionFailure handle failure).isRejection = false := by
  cases failure with
  | rejected | unwritable => cases ordinary
  | _ => rfl

theorem validate_evaluates (document : Document) (suppresses : Bool) :
    ((Call.validate document suppresses).program : Program V (Result V)).Keeps anything
      (fun past result => ∃ found, result = verdict suppresses found ∧
        Evaluated document past found) [] := by
  rw [program_validate]
  exact Program.keeps_bind.mpr ((evaluate_evaluates document).mono fun past found evaluated =>
    ⟨found, rfl, evaluated⟩)

theorem Evaluated.normal {document : Document} {past : List (Exchange V)} {report : Report}
    (evaluated : Evaluated document past (.ok report)) :
    ∀ violation ∈ report.violations, Text.Normal violation.message := by
  obtain ⟨settings, rest, rfl, comes⟩ := evaluated
  split at comes
  next =>
    obtain ⟨generation, own, outcome, rfl, visited, found⟩ := comes
    cases outcome with
    | error failure => cases found
    | ok violations =>
        cases found
        obtain ⟨visits, -, -, rfl⟩ := visited
        intro violation member
        obtain ⟨visit, -, among⟩ := List.mem_flatMap.mp member
        obtain ⟨diagnostic, -, rfl⟩ := List.mem_map.mp among
        exact Text.normal_sanitize diagnostic.message
  next =>
    obtain ⟨-, found⟩ := comes
    cases found
    intro violation member
    cases member

namespace System

variable {start last : System V} {moves : List (Move V)} {document : Document}
  {possible : V → Document → Except Failure (List Diagnostic) → Prop}
  (reached : start.run moves = some last)
  (truthful : ∀ event ∈ start.trace moves, event.Truthful possible)
  (delivers : ∀ validator document failure, possible validator document (.error failure) →
    failure.isOrdinary = true)
include reached truthful delivers

theorem not_rejection_of_visit {index : Nat} {handle : Handle} {ending : List (Exchange V)}
    {failure : Failure} (fails : FailedVisit document handle ending failure)
    (done : ∀ exchange ∈ ending, exchange ∈ exchangesOf index (start.trace moves)) :
    failure.isRejection = false := by
  cases fails with
  | undelivered settings failure =>
      have asked := done ⟨.await handle settings.patience, .error failure⟩ (by simp)
      rcases told_of_awaited reached (mem_exchangesOf.mp asked) with ⟨outcome, -, told⟩ |
        ⟨-, told⟩
      · exact Outcome.not_rejection told
      · cases told
        rfl
  | raised settings validator raised =>
      have ran := mem_exchangesOf.mp (done ⟨.run validator document, .error raised⟩ (by simp))
      have said := truthful _ ran validator document (.error raised) rfl
      exact not_rejection_execution handle (delivers validator document raised said)

theorem not_rejection_of_evaluated {index : Nat} {failure : Failure}
    (evaluated : Evaluated document (exchangesOf index (start.trace moves)) (.error failure)) :
    failure.isRejection = false := by
  obtain ⟨settings, rest, own, comes⟩ := evaluated
  split at comes
  next =>
    obtain ⟨generation, visiting, outcome, rfl, visited, ended⟩ := comes
    cases outcome with
    | ok violations => cases ended
    | error raised =>
        cases ended
        obtain ⟨visits, failing, others, ending, rfl, -, fails⟩ := visited
        have done : ∀ exchange ∈ ending, exchange ∈ exchangesOf index (start.trace moves) := by
          intro exchange member
          rw [own]
          simp [member]
        exact not_rejection_of_visit reached truthful delivers fails done
  next => cases comes.2

end System

/-- A rejection holds the messages of a report, and nothing else is one. -/
theorem System.evaluated_of_rejected {system : System Validator} {document : Document}
    {suppresses : Bool} {moves : List (Move Validator)} {state : State Validator} {header : String}
    {errors warnings : List Text}
    (comes : system.ComesTo (.validate document suppresses) moves state
      (.error (.rejected header errors warnings)))
    (truthful : ∀ event ∈ (system.asked (.validate document suppresses)).trace moves,
      event.Truthful Validator.Gives) :
    header = "Schematron validation failed" ∧ ∃ report,
      Evaluated document (exchangesOf system.threads.length
        ((system.asked (.validate document suppresses)).trace moves)) (.ok report) ∧
      ∀ message ∈ errors ++ warnings, ∃ violation ∈ report.violations,
        violation.message = message := by
  obtain ⟨last, reached, -, ended⟩ := comes
  obtain ⟨rest, held, keeps⟩ :=
    keeps_of_run (system.asked_getElem? _) (validate_evaluates document suppresses) reached
  rw [ended] at held
  cases held
  obtain ⟨found, same, evaluated⟩ := keeps
  have decides := Report.decides_verdict (V := Validator) found suppresses
  rw [← same] at decides
  cases decides with
  | raised =>
      have delivers (validator : Validator) (document : Document) (failure : Failure) :
          validator.Gives document (.error failure) → failure.isOrdinary = true := by
        rintro ⟨files, failed⟩
        exact Validator.ordinary_of_run failed.symm
      have other := not_rejection_of_evaluated reached truthful delivers evaluated
      cases other
  | @rejected report _ _ fails splits =>
      refine ⟨rfl, report, evaluated, fun message member => ?_⟩
      rw [splits.erring, splits.warning, List.mem_append] at member
      rcases member with erring | warned
      · obtain ⟨violation, among, rfl⟩ := List.mem_map.mp erring
        exact ⟨violation, (List.mem_filter.mp among).1, rfl⟩
      · obtain ⟨violation, among, rfl⟩ := List.mem_map.mp warned
        exact ⟨violation, (List.mem_filter.mp among).1, rfl⟩

end Engine

theorem Service.Raises.comesTo {service : Service} {document : Document} {failure : Failure}
    (raises : service.Raises document failure) (rejects : failure.isRejection = true) :
    ∃ moves state,
      service.system.ComesTo (service.validateCall document) moves state (.error failure) ∧
        ∀ event ∈ (service.system.asked (service.validateCall document)).trace moves,
          event.Truthful Validator.Gives := by
  cases raises with
  | inRun comes truthful => exact ⟨_, _, comes, truthful⟩
  | @asked files failed =>
      simp only [ask] at failed
      cases performed : (service.system.perform (service.world files)
          (service.validateCall document)).1 with
      | none =>
          rw [performed] at failed
          cases failed
          cases rejects
      | some result =>
          rw [performed] at failed
          obtain rfl : result = .error failure := failed
          obtain ⟨moves, comes, truthful⟩ := Engine.System.comesTo_of_perform performed
          refine ⟨moves, _, comes, fun event member validator document reply asked => ?_⟩
          exact ⟨files, truthful event member validator document reply asked⟩

open Text in
/-- The text of a rejection: its lines, and what can be told from it alone. -/
structure Legible (header : String) (errors warnings : List Text) : Prop where
  heading : header = "Schematron validation failed"
  lines : splitAt lineBreak (Failure.rejected header errors warnings).message =
    ofString header :: (errors.map (ofString "  error: " ++ ·) ++
      warnings.map (ofString "  warning: " ++ ·))
  recovered : Failure.listed (Failure.rejected header errors warnings).message = (errors, warnings)
  determined : ∀ (service : Service) (document : Document) also others rest,
    service.Raises document (.rejected also others rest) →
    (Failure.rejected also others rest).message =
      (Failure.rejected header errors warnings).message → others = errors ∧ rest = warnings

theorem Service.Raises.lines {service : Service} {document : Document} {header : String}
    {errors warnings : List Text}
    (raises : service.Raises document (.rejected header errors warnings)) :
    header = "Schematron validation failed" ∧
      Text.splitAt Text.lineBreak (Failure.rejected header errors warnings).message =
        Text.ofString header :: (errors.map (Text.ofString "  error: " ++ ·) ++
          warnings.map (Text.ofString "  warning: " ++ ·)) := by
  obtain ⟨moves, state, comes, truthful⟩ := raises.comesTo rfl
  obtain ⟨rfl, report, evaluated, held⟩ := Engine.System.evaluated_of_rejected comes truthful
  refine ⟨rfl, Failure.splitAt_rejection (by decide) fun message member => ?_⟩
  obtain ⟨violation, among, rfl⟩ := held message member
  exact (evaluated.normal violation among).lineBreak_notMem

theorem rejection_legible {service : Service} {document : Document} {header : String}
    {errors warnings : List Text}
    (raises : service.Raises document (.rejected header errors warnings)) :
    Legible header errors warnings where
  heading := raises.lines.1
  lines := raises.lines.2
  recovered := Failure.listed_eq raises.lines.2
  determined service document also others rest again same := by
    have told := Failure.listed_eq raises.lines.2
    rw [← same, Failure.listed_eq again.lines.2] at told
    exact Prod.mk.inj told

/-! A rule set that objects to every document -/

def Validator.objecting (message : String) : Validator where
  origin := "rules.sch"
  messages := []
  stylesheet := ⟨[⟨⟨[⟨.root, 0⟩], []⟩, "", 0,
    [.literal ⟨some "svrl", "failed-assert", Svrl.space⟩ [] []
      [.literal ⟨some "svrl", "text", Svrl.space⟩ [] [] [.text message]]]⟩],
    [], [], [], [], ⟨#[], "", []⟩⟩

-- The message has the look of an error and a warning on two lines.
def Validator.misleading : Validator := .objecting "No title\n  warning: none of these"

theorem Transform.findRule_root (library : XPath.Library) (context : XPath.Context) (mode : String)
    (tree : Nat) (priority strength : Float) (scope : List Xml.Binding) (body : List Instruction)
    (rest : List Rule) :
    findRule library context mode (.plain tree 0)
        (⟨⟨[⟨.root, priority⟩], scope⟩, mode, strength, body⟩ :: rest) =
      pure (some ⟨⟨[⟨.root, priority⟩], scope⟩, mode, strength, body⟩) := by
  simp [findRule, XPath.Pattern.accepts, XPath.Pattern.acceptsOne, XPath.PathPattern.accepts,
    XPath.NodeRef.plain]

theorem Validator.run_misleading {files : FileTree} {document : Document}
    (readable : document.parse.toOption.isSome = true) :
    misleading.run files document =
      .ok [⟨Text.ofString "No title\n  warning: none of these", .error, .assert, none, none⟩] := by
  cases parsed : document.parse with
  | error failure => simp [parsed, Except.toOption] at readable
  | ok found =>
      have applied (tree : XPath.Tree) :
          (misleading.stylesheet.apply [] files.tree? tree).result =
            .ok [.element ⟨some "svrl", "failed-assert", Svrl.space⟩ [] []
              [.element ⟨some "svrl", "text", Svrl.space⟩ [] []
                [.text "No title\n  warning: none of these"]]] := by
        have limit : Transform.nestingLimit = 19999 + 1 := rfl
        simp only [Transform.Stylesheet.apply, misleading, objecting, limit, Transform.applyRules,
          Transform.findRule_root]
        rfl
      simp only [run, parsed, Bind.bind, Except.bind, applied]
      rfl

namespace Service

open Engine

def misled : Service :=
  let state : State Validator := .initial ⟨1, [], none, [], none⟩ ⟨none, .unlimited⟩
  { createWith ⟨default, fun _ => none⟩ .standard ⟨1, [], none, [], none⟩ with
    system := ⟨{ state with
      compilations := [⟨.resolved (.succeeded .misleading), []⟩]
      generation := ⟨1, [default], [⟨0, default, 1⟩]⟩ }, []⟩ }

def submitted : Document := ⟨some (.ofString "<b/>"), none, none, "metadata"⟩

def objection : Except Failure (List Diagnostic) :=
  .ok [⟨Text.ofString "No title\n  warning: none of these", .error, .assert, none, none⟩]

theorem misled_legible :
    misled.Raises submitted (.rejected "Schematron validation failed"
      [.ofString "No title warning: none of these"] []) ∧
    Legible "Schematron validation failed" [.ofString "No title warning: none of these"] [] := by
  have said : Validator.misleading.Gives submitted objection :=
    ⟨.empty, (Validator.run_misleading (by decide +kernel)).symm⟩
  have comes : misled.system.ComesTo (misled.validateCall submitted)
      [.advance 0, .advance 0, .advance 0, .advance 0, .ran 0 objection] misled.system.state
      (.error (.rejected "Schematron validation failed"
        [.ofString "No title warning: none of these"] [])) := ⟨_, rfl, rfl, rfl⟩
  have raises : misled.Raises submitted (.rejected "Schematron validation failed"
      [.ofString "No title warning: none of these"] []) := by
    refine .inRun comes fun event member validator document reply asked => ?_
    have told : (misled.system.asked (misled.validateCall submitted)).trace
        [.advance 0, .advance 0, .advance 0, .advance 0, .ran 0 objection] =
          [⟨0, .evaluation, misled.system.state.evaluation⟩, ⟨0, .snapshot, misled.generation⟩,
            ⟨0, .evaluation, misled.system.state.evaluation⟩,
            ⟨0, .await ⟨0, default, 1⟩ .unlimited, .ok .misleading⟩,
            ⟨0, .run .misleading submitted, objection⟩] := rfl
    rw [told] at member
    simp only [List.mem_cons, List.not_mem_nil, or_false] at member
    rcases member with rfl | rfl | rfl | rfl | rfl
    case inr.inr.inr.inr =>
      cases asked
      exact said
    all_goals cases asked
  exact ⟨raises, rejection_legible raises⟩

end Service

end Schematron

import Mathlib.Data.List.Perm.Basic
import Schematron.Command.Run
import Schematron.Proofs.Engine.Substitution

/-!
Enforcement: how a validation decides about a document. Main statement: it raises what the report
raises, and otherwise it passes or rejects the document by the severities of the report, with all
messages of the report in a rejection.
-/

namespace Schematron

def Report.Holds (report : Report) (severity : Severity) : Prop :=
  ∃ violation ∈ report.violations, violation.severity = severity

structure Splits (report : Report) (errors warnings : List Text) : Prop where
  erring : errors =
    (report.violations.filter fun violation => violation.severity = .error).map (·.message)
  warning : warnings =
    (report.violations.filter fun violation => violation.severity = .warning).map (·.message)
  whole : (errors.map ((Severity.error, ·)) ++ warnings.map ((Severity.warning, ·))).Perm
    (report.violations.map fun violation => (violation.severity, violation.message))
  counted : ∃ generation violations, Command.reportJson report =
    .record [("generation", generation),
      ("counters", .record [("errors", .integer errors.length),
        ("warnings", .integer warnings.length)]),
      ("violations", violations)]

inductive Decides {V : Type} (suppresses : Bool) : Except Failure Report → Engine.Result V → Prop
  | raised (failure : Failure) : Decides suppresses (.error failure) (.error failure)
  | passed {report : Report} :
      ¬report.Holds .error → (suppresses = true ∨ ¬report.Holds .warning) →
      Decides suppresses (.ok report) (.ok .nothing)
  | rejected {report : Report} {errors warnings : List Text} :
      (report.Holds .error ∨ suppresses = false ∧ report.Holds .warning) →
      Splits report errors warnings →
      Decides suppresses (.ok report)
        (.error (.rejected "Schematron validation failed" errors warnings))

def Engine.verdict {V : Type} (suppresses : Bool) (found : Except Failure Report) :
    Engine.Result V :=
  (found.bind fun report => report.verdict suppresses).map fun _ => .nothing

namespace Report

theorem hasErrors_iff {report : Report} : report.hasErrors = true ↔ report.Holds .error := by
  simp [hasErrors, Holds]

theorem hasWarnings_iff {report : Report} : report.hasWarnings = true ↔ report.Holds .warning := by
  simp [hasWarnings, Holds]

theorem passes_iff {report : Report} {suppresses : Bool} : report.passes suppresses = true ↔
    ¬report.Holds .error ∧ (suppresses = true ∨ ¬report.Holds .warning) := by
  rw [← hasErrors_iff, ← hasWarnings_iff]
  simp [passes]

/-- With its severity, a message of one of the lists is the message that the report has. -/
theorem tagged_withSeverity (report : Report) (severity : Severity) :
    (report.withSeverity severity).map ((severity, ·)) =
      (report.violations.filter (·.severity == severity)).map
        fun violation => (violation.severity, violation.message) := by
  rw [withSeverity, List.map_map]
  refine List.map_congr_left fun violation member => ?_
  have same : violation.severity = severity := by simpa using (List.mem_filter.mp member).2
  rw [Function.comp_apply, same]

theorem splits (report : Report) : Splits report report.errors report.warnings where
  erring := by simp only [errors, withSeverity, beq_eq_decide]
  warning := by simp only [warnings, withSeverity, beq_eq_decide]
  whole := by
    rw [errors, warnings, tagged_withSeverity, tagged_withSeverity, ← List.map_append]
    refine List.Perm.map _ ?_
    have others : (report.violations.filter (·.severity == .warning)) =
        report.violations.filter fun violation => !(violation.severity == .error) := by
      refine List.filter_congr fun violation _ => ?_
      cases violation.severity <;> rfl
    rw [others]
    exact List.filter_append_perm _ _
  counted := ⟨_, _, rfl⟩

theorem decides_verdict {V : Type} (found : Except Failure Report) (suppresses : Bool) :
    Decides suppresses found (Engine.verdict suppresses found : Engine.Result V) := by
  cases found with
  | error failure => exact .raised failure
  | ok report =>
      simp only [Engine.verdict, Except.bind, verdict]
      split
      next passes =>
        obtain ⟨errorless, mild⟩ := passes_iff.mp passes
        exact .passed errorless mild
      next fails =>
        refine .rejected ?_ report.splits
        rw [passes_iff] at fails
        by_cases errs : report.Holds .error
        · exact .inl errs
        · simpa [errs] using fails

end Report

theorem Splits.unique {report : Report} {errors warnings others rest : List Text}
    (splits : Splits report errors warnings) (also : Splits report others rest) :
    others = errors ∧ rest = warnings :=
  ⟨also.erring.trans splits.erring.symm, also.warning.trans splits.warning.symm⟩

namespace Decides

variable {V : Type} {suppresses : Bool} {found : Except Failure Report}
  {result other : Engine.Result V}

theorem unique (decides : Decides suppresses found result) (also : Decides suppresses found other) :
    other = result := by
  cases decides with
  | raised failure => cases also; rfl
  | passed errorless mild =>
      cases also with
      | passed => rfl
      | rejected fails => simp_all
  | rejected fails splits =>
      cases also with
      | passed errorless mild => simp_all
      | rejected _ others =>
          obtain ⟨rfl, rfl⟩ := splits.unique others
          rfl

theorem lenient (passes : Decides false found (.ok .nothing : Engine.Result V)) :
    Decides true found (.ok .nothing : Engine.Result V) := by
  cases passes with
  | passed errorless mild => exact .passed errorless (.inl rfl)

/-- Suppression makes a difference just for reports with warnings and without errors. -/
theorem changed_iff (strict : Decides false found result) (lenient : Decides true found other) :
    result ≠ other ↔ ∃ report, found = .ok report ∧ report.Holds .warning ∧
      ¬report.Holds .error := by
  cases strict with
  | raised failure =>
      cases lenient
      simp
  | passed errorless mild =>
      have mild := mild.resolve_left Bool.false_ne_true
      cases lenient with
      | passed => simp [mild]
      | rejected fails => simp [errorless] at fails
  | rejected fails splits =>
      cases lenient with
      | passed errorless =>
          have warned := (fails.resolve_left errorless).2
          simp [errorless, warned]
      | rejected errs others =>
          obtain ⟨rfl, rfl⟩ := splits.unique others
          have errs := errs.resolve_right fun suppressed => Bool.noConfusion suppressed.1
          simp [errs]

end Decides

def Service.suppressing (service : Service) (suppresses : Bool) : Service :=
  { service with suppressesWarnings := suppresses }

/-- How a service decides about a document, with any moves meanwhile and with those that it takes
on its own. -/
structure Enforces (service : Service) (document : Document) : Prop where
  reports : ∀ moves state result,
    service.system.ComesTo (.evaluate document) moves state result →
    ∃ found : Except Failure Report, result = found.map .report
  decides : ∀ suppresses moves state result,
    service.system.ComesTo ((service.suppressing suppresses).validateCall document) moves state
        result ↔
      ∃ found, service.system.ComesTo (.evaluate document) moves state (found.map .report) ∧
        Decides suppresses found result
  answers : ∀ files suppresses,
    let evaluated := service.ask files (.evaluate document)
    let validated := (service.suppressing suppresses).ask files
      ((service.suppressing suppresses).validateCall document)
    ∃ found, evaluated.1 = found.map .report ∧ Decides suppresses found validated.1 ∧
      validated.2.system.state = evaluated.2.system.state
  determined : ∀ suppresses found, ∃! result : Engine.Result Validator,
    Decides suppresses found result
  lenient : ∀ moves state,
    service.system.ComesTo ((service.suppressing false).validateCall document) moves state
      (.ok .nothing) →
    service.system.ComesTo ((service.suppressing true).validateCall document) moves state
      (.ok .nothing)
  changed : ∀ moves state strict lenient,
    service.system.ComesTo ((service.suppressing false).validateCall document) moves state strict →
    service.system.ComesTo ((service.suppressing true).validateCall document) moves state lenient →
    (strict ≠ lenient ↔ ∃ report,
      service.system.ComesTo (.evaluate document) moves state (.ok (.report report)) ∧
        report.Holds .warning ∧ ¬report.Holds .error)

namespace Engine

variable {V : Type}

theorem map_report_injective {found other : Except Failure Report}
    (same : (found.map .report : Result V) = other.map .report) : found = other := by
  cases found <;> cases other <;> cases same <;> rfl

theorem program_validate (document : Document) (suppresses : Bool) :
    ((Call.validate document suppresses).program : Program V (Result V)) =
      (evaluate document).giving (verdict suppresses) :=
  Program.bind_assoc (evaluate document) _ _

namespace System

variable {system : System V} {document : Document} {suppresses : Bool} {moves : List (Move V)}
  {state : State V} {result : Result V}

theorem comesTo_evaluate (suppresses : Bool)
    (comes : system.ComesTo (.evaluate document) moves state result) :
    ∃ found, result = found.map .report ∧
      system.ComesTo (.validate document suppresses) moves state (verdict suppresses found) :=
  comes.substituted (program_evaluate document) (program_validate document suppresses)

theorem comesTo_validate_iff :
    system.ComesTo (.validate document suppresses) moves state result ↔
      ∃ found, system.ComesTo (.evaluate document) moves state (found.map .report) ∧
        Decides suppresses found result := by
  constructor
  · intro comes
    obtain ⟨found, rfl, evaluates⟩ :=
      comes.substituted (program_validate document suppresses) (program_evaluate document)
    exact ⟨found, evaluates, Report.decides_verdict found suppresses⟩
  · rintro ⟨found, comes, decides⟩
    obtain ⟨same, alike, validates⟩ := comesTo_evaluate suppresses comes
    obtain rfl := map_report_injective alike
    rwa [decides.unique (Report.decides_verdict _ suppresses)] at validates

end System

end Engine

/-- The decision about a document agrees with the report on it. -/
theorem validation_enforces (service : Service) (document : Document) :
    Enforces service document where
  reports moves state result comes := by
    obtain ⟨found, same, -⟩ := Engine.System.comesTo_evaluate true comes
    exact ⟨found, same⟩
  decides suppresses moves state result := Engine.System.comesTo_validate_iff
  answers files suppresses := by
    obtain ⟨answer, evaluated, validated, state⟩ :=
      service.system.perform_substituted (service.world files)
        (.validate document suppresses) (Engine.verdict suppresses)
        (Engine.program_evaluate document) (Engine.program_validate document suppresses)
    refine ⟨answer.getD (.error (.general "No answer")), ?_, ?_, state⟩
    · change (service.system.perform (service.world files) (.evaluate document)).1.getD _ = _
      rw [evaluated]
      cases answer <;> rfl
    · change Decides suppresses _
        ((service.system.perform (service.world files) (.validate document suppresses)).1.getD _)
      rw [validated]
      cases answer with
      | none => exact .raised _
      | some found => exact Report.decides_verdict found suppresses
  determined suppresses found :=
    ⟨_, Report.decides_verdict found suppresses, fun _ also =>
      (Report.decides_verdict found suppresses).unique also⟩
  lenient moves state comes := by
    obtain ⟨found, evaluates, decides⟩ := Engine.System.comesTo_validate_iff.mp comes
    exact Engine.System.comesTo_validate_iff.mpr ⟨found, evaluates, decides.lenient⟩
  changed moves state strict lenient comes also := by
    obtain ⟨found, evaluates, decides⟩ := Engine.System.comesTo_validate_iff.mp comes
    obtain ⟨again, alike, suppressed⟩ := Engine.System.comesTo_validate_iff.mp also
    obtain rfl := Engine.map_report_injective (evaluates.unique alike)
    rw [decides.changed_iff suppressed]
    refine exists_congr fun report => and_congr_left fun _ => ⟨?_, fun comes => ?_⟩
    · rintro rfl
      exact evaluates
    · exact Engine.map_report_injective (evaluates.unique comes).symm

end Schematron

import Mathlib.Logic.Basic
import Schematron.Settings.Model

/-!
Accepted settings, taken apart: a whole is accepted as the parts that it was read from, and a part
that is not given has its default. What is accepted lies within bounds.
-/

namespace Schematron

namespace Settings

namespace Checked

variable {α β : Type}

theorem and_eq_ok {first : Checked α} {second : Checked β} {left : α} {right : β} :
    first.and second = .ok (left, right) ↔ first = .ok left ∧ second = .ok right := by
  cases first <;> cases second <;> simp [Checked.and]

theorem map_eq_ok {checked : Checked α} {change : α → β} {value : β} :
    checked.map change = .ok value ↔ ∃ found, checked = .ok found ∧ change found = value := by
  cases checked <;> simp [Except.map]

theorem below_eq_ok {key : Text} {checked : Checked α} {value : α} :
    checked.below key = .ok value ↔ checked = .ok value := by
  cases checked with
  | ok found => exact Iff.rfl
  | error faults => constructor <;> intro same <;> cases same

theorem all_eq_ok {parts : List (Checked α)} {values : List α} :
    all parts = .ok values ↔ parts = values.map .ok := by
  induction parts generalizing values with
  | nil => cases values <;> simp [all]
  | cons first rest ih =>
      rw [all, map_eq_ok]
      constructor
      · rintro ⟨⟨value, others⟩, both, rfl⟩
        rw [and_eq_ok, ih] at both
        rw [List.map_cons, both.1, both.2]
      · intro same
        cases values with
        | nil => cases same
        | cons value others =>
            rw [List.map_cons, List.cons.injEq] at same
            exact ⟨(value, others), and_eq_ok.mpr ⟨same.1, ih.mpr same.2⟩, rfl⟩

end Checked

open Checked

section Parts

variable {α : Type} {members : Members} {names : Names} {byDefault value : α}
  {read : Json → Checked α}

theorem setting_eq_ok :
    setting members names byDefault read = .ok value ↔
      (given? members names = none ∧ byDefault = value) ∨
        ∃ name found, given? members names = some (name, found) ∧ read found = .ok value := by
  simp only [setting]
  cases given? members names with
  | none => simp
  | some pair =>
      obtain ⟨name, found⟩ := pair
      simp [below_eq_ok, and_assoc]

/-- What holds of the default, and of all that is read, holds of a setting. -/
theorem setting_holds (holds : α → Prop)
    (accepted : setting members names byDefault read = .ok value) (standard : holds byDefault)
    (reads : ∀ found, read found = .ok value → holds value) : holds value := by
  obtain ⟨-, rfl⟩ | ⟨name, found, -, accepted⟩ := setting_eq_ok.mp accepted
  · exact standard
  · exact reads found accepted

theorem objectOf_eq_ok {read : Members → Checked α} {found : Json} :
    objectOf read found = .ok value ↔ ∃ inner, found = .object inner ∧ read inner = .ok value := by
  cases found <;> simp [objectOf, fault]

/-- A section that is accepted was given as an object, or not at all. -/
theorem section_holds (holds : α → Prop) {read : Members → Checked α}
    (accepted : setting members names byDefault (objectOf read) = .ok value)
    (standard : holds byDefault) (reads : ∀ inner, read inner = .ok value → holds value) :
    holds value := by
  refine setting_holds holds accepted standard ?_
  intro found accepted
  obtain ⟨inner, -, accepted⟩ := objectOf_eq_ok.mp accepted
  exact reads inner accepted

end Parts

/-! The parts of each section -/

theorem ruleSetsOf_eq_ok {members : Members} {settings : RuleSetSettings} :
    ruleSetsOf members = .ok settings ↔
      setting members ["files"] [] strings = .ok settings.files ∧
        setting members ["baseDir", "base_dir"] "schematron" string =
          .ok settings.baseDirectory ∧
        setting members ["phase"] none optionalString = .ok settings.phase ∧
        setting members ["stylesheets"] [] stylesheets = .ok settings.stylesheets := by
  simp only [ruleSetsOf, RuleSetSettings.standard, map_eq_ok, Prod.exists, and_eq_ok]
  constructor
  · rintro ⟨files, base, phase, sheets, accepted, rfl⟩
    exact accepted
  · intro accepted
    exact ⟨_, _, _, _, accepted, rfl⟩

theorem validationOf_eq_ok {members : Members} {settings : ValidationSettings} :
    validationOf members = .ok settings ↔
      setting members ["namespace"] none filterOf = .ok settings.filter ∧
        setting members ["suppressWarnings", "suppress_warnings"] false boolean =
          .ok settings.suppressWarnings ∧
        setting members ["priority"] 10 (fun value => (integer value).map clampPriority) =
          .ok settings.priority := by
  simp only [validationOf, ValidationSettings.standard, map_eq_ok, Prod.exists, and_eq_ok]
  constructor
  · rintro ⟨filter, suppresses, priority, accepted, rfl⟩
    exact accepted
  · intro accepted
    exact ⟨_, _, _, accepted, rfl⟩

theorem poolOf_eq_ok {members : Members} {settings : PoolSettings} :
    poolOf members = .ok settings ↔
      setting members ["threadPoolSize", "thread_pool_size"] 16 workersOf =
          .ok settings.workers ∧
        setting members ["compileTimeoutSeconds", "compile_timeout_seconds"] 600.0 patienceOf =
          .ok settings.patience := by
  simp only [poolOf, PoolSettings.standard, map_eq_ok, Prod.exists, and_eq_ok]
  constructor
  · rintro ⟨workers, patience, accepted, rfl⟩
    exact accepted
  · intro accepted
    exact ⟨_, _, accepted, rfl⟩

theorem loggingOf_eq_ok {members : Members} {settings : LoggingSettings} :
    loggingOf members = .ok settings ↔
      setting members ["level"] .info verbosity = .ok settings.level := by
  simp only [loggingOf, LoggingSettings.standard, map_eq_ok]
  constructor
  · rintro ⟨level, accepted, rfl⟩
    exact accepted
  · intro accepted
    exact ⟨_, accepted, rfl⟩

/-- The whole is accepted as its sections, unless a key names none of them. -/
theorem ofMembers_eq_ok {members : Members} {settings : Settings} :
    ofMembers members = .ok settings ↔
      setting members ["id"] none optionalString = .ok settings.id ∧
        setting members ["ruleSets", "rule_sets"] .standard (objectOf ruleSetsOf) =
          .ok settings.ruleSets ∧
        setting members ["validation"] .standard (objectOf validationOf) =
          .ok settings.validation ∧
        setting members ["pool"] .standard (objectOf poolOf) = .ok settings.pool ∧
        setting members ["logging"] .standard (objectOf loggingOf) = .ok settings.logging ∧
        unknownKeys members = [] := by
  have known : (if (unknownKeys members).isEmpty then .ok () else .error (unknownKeys members)) =
      (.ok () : Checked Unit) ↔ unknownKeys members = [] := by
    cases unknownKeys members <;> simp
  simp only [ofMembers, map_eq_ok, Prod.exists, and_eq_ok]
  constructor
  · rintro ⟨id, ruleSets, validation, pool, logging, ⟨⟩, accepted, rfl⟩
    simpa only [known] using accepted
  · intro accepted
    refine ⟨_, _, _, _, _, (), ?_, rfl⟩
    simpa only [known] using accepted

/-! Bounds -/

theorem one_le_clampPriority (value : Int) : 1 ≤ clampPriority value := by
  simp only [clampPriority]
  omega

theorem clampPriority_le (value : Int) : clampPriority value ≤ 100 := by
  simp only [clampPriority]
  omega

theorem clampPriority_eq {value : Int} (low : 1 ≤ value) (high : value ≤ 100) :
    clampPriority value = value := by
  simp only [clampPriority]
  omega

theorem filterOf_ne {value : Json} {filter : Option String}
    (accepted : filterOf value = .ok filter) : filter ≠ some "" := by
  obtain ⟨found, -, rfl⟩ := map_eq_ok.mp accepted
  cases found with
  | none => simp
  | some name => simp [Option.filter_eq_some_iff]

theorem workersOf_eq_ok {value : Json} {workers : Int} :
    workersOf value = .ok workers ↔ integer value = .ok workers ∧ 1 ≤ workers := by
  simp only [workersOf]
  cases integer value with
  | error faults => simp [bind, Except.bind]
  | ok found =>
      simp only [bind, Except.bind, Except.ok.injEq]
      split
      next below =>
        simp only [fault, reduceCtorEq, false_iff, not_and]
        omega
      next =>
        simp only [Except.ok.injEq]
        omega

theorem patienceOf_eq_ok {value : Json} {patience : Float} :
    patienceOf value = .ok patience ↔ float value = .ok patience ∧ ¬patience ≤ 0.0 := by
  simp only [patienceOf]
  cases float value with
  | error faults => simp [bind, Except.bind]
  | ok found =>
      simp only [bind, Except.bind, Except.ok.injEq]
      split
      next below =>
        simp only [fault, reduceCtorEq, false_iff, not_and, not_not]
        rintro rfl
        exact below
      next above =>
        simp only [Except.ok.injEq]
        constructor
        · rintro rfl
          exact ⟨rfl, above⟩
        · exact fun both => both.1

end Settings

structure ValidationSettings.Bounded (settings : ValidationSettings) : Prop where
  filter_ne : settings.filter ≠ some ""
  one_le_priority : 1 ≤ settings.priority
  priority_le : settings.priority ≤ 100

structure PoolSettings.Bounded (settings : PoolSettings) : Prop where
  one_le_workers : 1 ≤ settings.workers
  patience_not_le : ¬settings.patience ≤ 0.0

namespace Settings

theorem validation_bounded {members : Members} {settings : ValidationSettings}
    (accepted : validationOf members = .ok settings) : settings.Bounded := by
  obtain ⟨filter, -, priority⟩ := validationOf_eq_ok.mp accepted
  have range : 1 ≤ settings.priority ∧ settings.priority ≤ 100 := by
    refine setting_holds (fun value => 1 ≤ value ∧ value ≤ 100) priority (by omega) ?_
    intro found read
    obtain ⟨value, -, clamped⟩ := Checked.map_eq_ok.mp read
    rw [← clamped]
    exact ⟨one_le_clampPriority value, clampPriority_le value⟩
  exact {
    filter_ne := setting_holds (· ≠ some "") filter (by simp) fun found => filterOf_ne
    one_le_priority := range.1
    priority_le := range.2 }

theorem pool_bounded {members : Members} {settings : PoolSettings}
    (accepted : poolOf members = .ok settings) : settings.Bounded := by
  obtain ⟨workers, patience⟩ := poolOf_eq_ok.mp accepted
  exact {
    one_le_workers := setting_holds (1 ≤ ·) workers (by omega) fun found read =>
      (workersOf_eq_ok.mp read).2
    patience_not_le := setting_holds (¬· ≤ 0.0) patience (by decide) fun found read =>
      (patienceOf_eq_ok.mp read).2 }

theorem sections_bounded {members : Members} {settings : Settings}
    (accepted : ofMembers members = .ok settings) :
    settings.validation.Bounded ∧ settings.pool.Bounded := by
  obtain ⟨-, -, validation, pool, -, -⟩ := ofMembers_eq_ok.mp accepted
  have standard : ValidationSettings.standard.Bounded :=
    ⟨by simp [ValidationSettings.standard], by decide, by decide⟩
  constructor
  · exact section_holds ValidationSettings.Bounded validation standard fun _ => validation_bounded
  · exact section_holds PoolSettings.Bounded pool ⟨by decide, by decide⟩ fun _ => pool_bounded

end Settings

end Schematron

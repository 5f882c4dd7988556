import Schematron.Settings.Coercion
import Schematron.Stage

/-! The settings of a validation service: their sections, how they are read from JSON, and how they
are written. -/

namespace Schematron

structure RuleSetSettings where
  files : List String
  baseDirectory : String
  phase : Option String
  stylesheets : List (Stage × String)

structure ValidationSettings where
  filter : Option String
  suppressWarnings : Bool
  priority : Int

structure PoolSettings where
  workers : Int
  patience : Float

inductive Verbosity
  | error
  | warn
  | info
  | debug
deriving DecidableEq, Repr

structure LoggingSettings where
  level : Verbosity

structure Settings where
  id : Option String
  ruleSets : RuleSetSettings
  validation : ValidationSettings
  pool : PoolSettings
  logging : LoggingSettings

namespace Verbosity

def all : List Verbosity := [error, warn, info, debug]

def name : Verbosity → String
  | error => "error"
  | warn => "warn"
  | info => "info"
  | debug => "debug"

def ofName? (name : String) : Option Verbosity := all.find? (·.name == name)

theorem ofName?_name (level : Verbosity) : ofName? level.name = some level := by
  cases level <;> rfl

end Verbosity

namespace RuleSetSettings

def standard : RuleSetSettings := ⟨[], "schematron", none, []⟩

end RuleSetSettings

namespace ValidationSettings

def standard : ValidationSettings := ⟨none, false, 10⟩

end ValidationSettings

namespace PoolSettings

def standard : PoolSettings := ⟨16, 600.0⟩

end PoolSettings

namespace LoggingSettings

def standard : LoggingSettings := ⟨.info⟩

end LoggingSettings

namespace Settings

def standard : Settings := ⟨none, .standard, .standard, .standard, .standard⟩

inductive Section
  | ruleSets
  | validation
  | pool
  | logging
  | whole
deriving DecidableEq, Repr

namespace Section

def all : List Section := [ruleSets, validation, pool, logging, whole]

def title : Section → String
  | ruleSets => "RuleSetConfig"
  | validation => "ValidationConfig"
  | pool => "PoolConfig"
  | logging => "LoggingConfig"
  | whole => "EngineConfig"

def ofTitle? (title : String) : Option Section := all.find? (·.title == title)

end Section

abbrev Names := List String

abbrev Members := List (Text × Json)

def given? (members : Members) (names : Names) : Option (Text × Json) :=
  names.findSome? fun name =>
    (Json.member? members name).map fun value => (Text.ofString name, value)

def setting {α : Type} (members : Members) (names : Names) (byDefault : α)
    (read : Json → Checked α) : Checked α :=
  match given? members names with
  | none => .ok byDefault
  | some (name, value) => (read value).below name

def stage (key : Text) : Checked Stage :=
  match key.toString?.bind Stage.ofName? with
  | some stage => .ok stage
  | none => .error [⟨[.ofString "[key]"], .choice⟩]

def stylesheets : Json → Checked (List (Stage × String))
  | .object members =>
      .all (members.map fun (key, value) => ((stage key).and (string value)).below key)
  | _ => .fault .objectType

def objectOf {α : Type} (read : Members → Checked α) : Json → Checked α
  | .object members => read members
  | _ => .fault .sectionType

def ruleSetsOf (members : Members) : Checked RuleSetSettings :=
  let standard := RuleSetSettings.standard
  ((setting members ["files"] standard.files strings).and
    ((setting members ["baseDir", "base_dir"] standard.baseDirectory string).and
      ((setting members ["phase"] standard.phase optionalString).and
        (setting members ["stylesheets"] standard.stylesheets stylesheets)))).map
    fun (files, baseDirectory, phase, stylesheets) => ⟨files, baseDirectory, phase, stylesheets⟩

def filterOf (value : Json) : Checked (Option String) :=
  (optionalString value).map fun found => found.filter (!·.isEmpty)

def clampPriority (value : Int) : Int := max 1 (min 100 value)

def validationOf (members : Members) : Checked ValidationSettings :=
  let standard := ValidationSettings.standard
  ((setting members ["namespace"] standard.filter filterOf).and
    ((setting members ["suppressWarnings", "suppress_warnings"] standard.suppressWarnings
        boolean).and
      (setting members ["priority"] standard.priority fun value =>
        (integer value).map clampPriority))).map
    fun (filter, suppressWarnings, priority) => ⟨filter, suppressWarnings, priority⟩

def workersOf (value : Json) : Checked Int := do
  let workers ← integer value
  if workers < 1 then .fault (.refused "thread_pool_size must be >= 1") else .ok workers

/-- What is not above zero is refused; not a number is not compared. -/
def patienceOf (value : Json) : Checked Float := do
  let seconds ← float value
  if seconds ≤ 0.0 then .fault (.refused "compile_timeout_seconds must be > 0") else .ok seconds

def poolOf (members : Members) : Checked PoolSettings :=
  let standard := PoolSettings.standard
  ((setting members ["threadPoolSize", "thread_pool_size"] standard.workers workersOf).and
    (setting members ["compileTimeoutSeconds", "compile_timeout_seconds"] standard.patience
      patienceOf)).map
    fun (workers, patience) => ⟨workers, patience⟩

def verbosity : Json → Checked Verbosity
  | .text value =>
      match value.toString?.bind Verbosity.ofName? with
      | some level => .ok level
      | none => .fault .choice
  | _ => .fault .choice

def loggingOf (members : Members) : Checked LoggingSettings :=
  (setting members ["level"] LoggingSettings.standard.level verbosity).map LoggingSettings.mk

def names : List Names :=
  [["id"], ["ruleSets", "rule_sets"], ["validation"], ["pool"], ["logging"]]

def unknownKeys (members : Members) : List FieldFault :=
  -- Keys that name no setting, or one that is given under its other name too.
  let used := names.filterMap fun names => (given? members names).map (·.1)
  (members.filter fun member => !used.contains member.1).map fun member =>
    ⟨[member.1], .unknownKey⟩

def ofMembers (members : Members) : Checked Settings :=
  let unknown := unknownKeys members
  let known : Checked Unit := if unknown.isEmpty then .ok () else .error unknown
  ((setting members ["id"] none optionalString).and
    ((setting members ["ruleSets", "rule_sets"] .standard (objectOf ruleSetsOf)).and
      ((setting members ["validation"] .standard (objectOf validationOf)).and
        ((setting members ["pool"] .standard (objectOf poolOf)).and
          ((setting members ["logging"] .standard (objectOf loggingOf)).and known))))).map
    fun (id, ruleSets, validation, pool, logging, _) => ⟨id, ruleSets, validation, pool, logging⟩

end Settings

namespace RuleSetSettings

def dump (settings : RuleSetSettings) : Json :=
  .record [("files", .list (settings.files.map Json.ofString)),
    ("baseDir", .ofString settings.baseDirectory), ("phase", .ofOption settings.phase),
    ("stylesheets", .record (settings.stylesheets.map fun (stage, path) =>
      (stage.name, .ofString path)))]

end RuleSetSettings

namespace ValidationSettings

def dump (settings : ValidationSettings) : Json :=
  .record [("namespace", .ofOption settings.filter),
    ("suppressWarnings", .boolean settings.suppressWarnings),
    ("priority", .integer settings.priority)]

end ValidationSettings

namespace PoolSettings

def dump (settings : PoolSettings) : Json :=
  .record [("threadPoolSize", .integer settings.workers),
    ("compileTimeoutSeconds", .real settings.patience)]

end PoolSettings

namespace LoggingSettings

def dump (settings : LoggingSettings) : Json := .record [("level", .ofString settings.level.name)]

end LoggingSettings

namespace Settings

def dump (settings : Settings) : Json :=
  .record [("id", .ofOption settings.id), ("ruleSets", settings.ruleSets.dump),
    ("validation", settings.validation.dump), ("pool", settings.pool.dump),
    ("logging", settings.logging.dump)]

def Section.normalize (part : Section) (members : Members) : Checked Json :=
  match part with
  | .ruleSets => (ruleSetsOf members).map RuleSetSettings.dump
  | .validation => (validationOf members).map ValidationSettings.dump
  | .pool => (poolOf members).map PoolSettings.dump
  | .logging => (loggingOf members).map LoggingSettings.dump
  | .whole => (ofMembers members).map Settings.dump

end Settings

end Schematron

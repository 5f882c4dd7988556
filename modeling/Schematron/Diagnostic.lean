import Schematron.Text.Blank
import Schematron.Text.Case

/-! Diagnostics: what running a compiled rule set says about one document. -/

namespace Schematron

inductive Severity
  | error
  | warning
deriving DecidableEq, Repr, Inhabited

namespace Severity

def name : Severity → String
  | error => "error"
  | warning => "warning"

def label : Severity → String
  | error => "ERROR"
  | warning => "WARNING"

def ofName? : String → Option Severity
  | "error" => some error
  | "warning" => some warning
  | _ => none

def tags : Severity → List String
  | error => ["error", "fatal"]
  | warning => ["warning", "warn", "info", "information"]

def ofTag? (tag : Text) : Option Severity :=
  [warning, error].find? fun severity => (severity.tags.map Text.ofString).contains tag

def ofFlavor? (flavor : Text) : Option Severity := ofTag? (Text.lower (Text.trim flavor))

end Severity

inductive DiagnosticKind
  | assert
  | report
deriving DecidableEq, Repr, Inhabited

namespace DiagnosticKind

def name : DiagnosticKind → String
  | assert => "assert"
  | report => "report"

def ofName? : String → Option DiagnosticKind
  | "assert" => some assert
  | "report" => some report
  | _ => none

def defaultSeverity : DiagnosticKind → Severity
  | assert => .error
  | report => .warning

end DiagnosticKind

def classify (kind : DiagnosticKind) (flavors : List (Option Text)) : Severity :=
  (flavors.findSome? fun flavor => flavor.bind Severity.ofFlavor?).getD kind.defaultSeverity

structure Diagnostic where
  message : Text
  severity : Severity
  kind : DiagnosticKind
  location : Option String
  test : Option String
deriving DecidableEq

end Schematron

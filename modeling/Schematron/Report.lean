import Schematron.Diagnostic

/-! Validation reports: the violations that all rule sets together find in one document. -/

namespace Schematron

/-- A diagnostic on one line, tagged with the document attributes that it concerns. The attributes
are kept in code point order and without repeats. -/
structure Violation where
  attributes : List String
  message : Text
  severity : Severity
deriving DecidableEq

def orderedSet (items : List String) : List String :=
  items.foldl insertOnce []
where
  insertOnce : List String → String → List String
    | [], item => [item]
    | next :: rest, item =>
        if item == next then next :: rest
        else if item < next then item :: next :: rest
        else next :: insertOnce rest item

namespace Violation

def ofDiagnostic (concern : String) (diagnostic : Diagnostic) : Violation :=
  ⟨[concern], Text.sanitize diagnostic.message, diagnostic.severity⟩

def line (violation : Violation) : Text :=
  Text.ofString ("[" ++ violation.severity.label ++ "] ") ++ violation.message

end Violation

structure Report where
  violations : List Violation
  generation : Option Int
deriving DecidableEq

namespace Report

def empty : Report := ⟨[], none⟩

def withSeverity (report : Report) (severity : Severity) : List Text :=
  (report.violations.filter (·.severity == severity)).map (·.message)

def errors (report : Report) : List Text := report.withSeverity .error

def warnings (report : Report) : List Text := report.withSeverity .warning

def hasErrors (report : Report) : Bool := report.violations.any (·.severity == .error)

def hasWarnings (report : Report) : Bool := report.violations.any (·.severity == .warning)

end Report

end Schematron

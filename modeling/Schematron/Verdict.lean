import Schematron.Failure
import Schematron.Report

/-! Verdicts: whether a report lets its document pass. -/

namespace Schematron.Report

def passes (report : Report) (suppressesWarnings : Bool) : Bool :=
  !report.hasErrors && (suppressesWarnings || !report.hasWarnings)

def rejection (report : Report) : Failure :=
  .rejected "Schematron validation failed" report.errors report.warnings

def verdict (report : Report) (suppressesWarnings : Bool) : Except Failure Unit :=
  if report.passes suppressesWarnings then .ok () else .error report.rejection

end Schematron.Report

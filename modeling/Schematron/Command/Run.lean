import Schematron.Command.Arguments
import Schematron.Command.Session
import Schematron.Json.Printer
import Schematron.Service
import Schematron.Settings.File

/-! The commands: validating documents, reporting on one, and compiling rule sets. -/

namespace Schematron.Command

open Session

structure Desk where
  files : FileTree
  surroundings : Surroundings

def formats : List String := ["table", "json"]

def printError (text : String) : Session Unit := print ("[red]Error:[/red] " ++ text)

def refuse {α : Type} (text : String) : Session α := do
  printError text
  exit 1

def checkFormat (format : String) : Session Unit := do
  if !formats.contains format then
    refuse ("Invalid format '" ++ format ++ "'. Must be one of: " ++ ", ".intercalate formats)

def schemaPath (desk : Desk) (argument : String) : Except Failure String :=
  (desk.files.resolve desk.surroundings (.ofString argument)).map Path.toString

def withSchemas (desk : Desk) (schemas : List String) (settings : Settings) :
    Except Failure Settings := do
  if schemas.isEmpty then return settings
  return { settings with ruleSets.files := ← schemas.mapM (schemaPath desk) }

def withFilter (filter : Option String) (settings : Settings) : Settings :=
  -- An empty namespace lifts the filter.
  match filter with
  | none => settings
  | some filter =>
      { settings with validation.filter := if filter.isEmpty then none else some filter }

def withSuppression (suppresses : Bool) (settings : Settings) : Settings :=
  if suppresses then { settings with validation.suppressWarnings := true } else settings

def isAccessFailure : Failure → Bool
  | .foreign kind _ => AccessError.ofSystem.any fun error => error.kind == kind
  | _ => false

def isValueFailure : Failure → Bool
  | .foreign kind _ => kind == AccessError.nullCharacter.kind
  | _ => false

def settingsOf (desk : Desk) (options : Options) : Except Settings.LoadError Settings := do
  let settings ← Settings.load desk.files desk.surroundings options.config
  (withSchemas desk options.schemas settings).mapError .access

/-- The configured settings, with the changes that the options make. What a command handles it
reports; anything else ends it. -/
def settingsFor (desk : Desk) (options : Options) (handles : Failure → Bool)
    (change : Settings → Settings) : Session Settings := do
  match settingsOf desk options with
  | .error (.file error) => refuse error.message
  | .error (.access failure) =>
      if handles failure then refuse failure.message.toStringLossy else crash failure
  | .ok settings =>
      setLevel (if options.verbose then .debug else settings.logging.level)
      return change settings

def openService (desk : Desk) (settings : Settings) : Session Service := do
  match Service.create desk.files desk.surroundings settings with
  | .error failure => crash failure
  | .ok service =>
      match service.ask desk.files service.startCall with
      | (.ok _, service) => return service
      | (.error failure, _) => crash failure

/-! Validating -/

inductive Examined
  | unreadable (failure : Failure)
  | passed
  | rejected (errors warnings : List Text)
  | faulty (failure : Failure)
  | undecodable (failure : Failure)

namespace Examined

def isPass : Examined → Bool
  | passed => true
  | _ => false

def lines (isTable : Bool) (path : String) : Examined → List String
  | unreadable failure =>
      ["[red]Error:[/red] Cannot read " ++ path ++ ": " ++ failure.message.toStringLossy]
  | undecodable _ => []
  | passed => if isTable then ["[green]PASS[/green] " ++ path] else []
  | rejected errors warnings =>
      if isTable then
        ["[red]FAIL[/red] " ++ path] ++
          errors.map (fun message => "  [red]error:[/red] " ++ message.toStringLossy) ++
          warnings.map (fun message => "  [yellow]warning:[/yellow] " ++ message.toStringLossy)
      else []
  | faulty failure =>
      if isTable then ["[red]Error:[/red] " ++ path ++ ": " ++ failure.message.toStringLossy]
      else []

def entry? (path : String) : Examined → Option Json
  | unreadable _ => none
  | undecodable _ => none
  | passed => some (.record [("document", .ofString path), ("status", .ofString "pass"),
      ("errors", .list []), ("warnings", .list [])])
  | rejected errors warnings =>
      some (.record [("document", .ofString path), ("status", .ofString "fail"),
        ("errors", .ofTexts errors), ("warnings", .ofTexts warnings)])
  | faulty failure =>
      some (.record [("document", .ofString path), ("status", .ofString "error"),
        ("message", .text failure.message)])

end Examined

def examine (desk : Desk) (service : Service) (path : String) : Examined × Service :=
  match Document.ofFile desk.files desk.surroundings path none none with
  | .error failure =>
      (if isAccessFailure failure then .unreadable failure else .undecodable failure, service)
  | .ok document =>
      match service.ask desk.files (service.validateCall document) with
      | (.ok _, service) => (.passed, service)
      | (.error (.rejected _ errors warnings), service) => (.rejected errors warnings, service)
      | (.error failure, service) => (.faulty failure, service)

def validateAll (desk : Desk) (isTable : Bool) (service : Service) :
    List String → Session (Bool × List Json)
  | [] => return (true, [])
  | path :: rest => do
      let (examined, service) := examine desk service path
      if let .undecodable failure := examined then crash failure
      (examined.lines isTable path).forM print
      let (passed, entries) ← validateAll desk isTable service rest
      return (examined.isPass && passed, (examined.entry? path).toList ++ entries)

def shownPath (argument : String) : String := (Path.ofString argument).toString

def ValidateOptions.change (options : ValidateOptions) (settings : Settings) : Settings :=
  withSuppression options.suppressesWarnings (withFilter options.filter settings)

def validate (desk : Desk) (options : ValidateOptions) : Session Unit := do
  checkFormat options.format
  let settings ← settingsFor desk options.common isValueFailure options.change
  if settings.ruleSets.files.isEmpty then
    printError "No rule sets configured"
    print ("[dim]Pass --schema or add ruleSets.files to " ++ Settings.fileName ++ "[/dim]")
    exit 1
  let service ← openService desk settings
  let isTable := options.format == "table"
  let (passed, entries) ←
    validateAll desk isTable service (options.documents.map shownPath)
  if options.format == "json" then echo (Json.list entries).written
  exit (if passed then 0 else 1)

/-! Reporting -/

def violationJson (violation : Violation) : Json :=
  .record [("attributes", .list (violation.attributes.map Json.ofString)),
    ("message", .text violation.message), ("severity", .ofString violation.severity.name)]

def reportJson (report : Report) : Json :=
  .record [("generation", (report.generation.map Json.integer).getD .null),
    ("counters", .record [("errors", .integer report.errors.length),
      ("warnings", .integer report.warnings.length)]),
    ("violations", .list (report.violations.map violationJson))]

def severityMarkup (severity : Severity) : String :=
  let color := match severity with
    | .error => "red"
    | .warning => "yellow"
  "[" ++ color ++ "]" ++ severity.label ++ "[/" ++ color ++ "]"

def reportTable (label : String) (report : Report) : Console.Table where
  title := some label
  columns := ["Severity", "Message", "Attributes"]
  rows := report.violations.map fun violation =>
    [severityMarkup violation.severity, violation.message.toStringLossy,
      ", ".intercalate violation.attributes]

def printReport (label : String) (report : Report) : Session Unit :=
  if report.violations.isEmpty then
    print ("[green]No violations found in " ++ label ++ "[/green]")
  else printTable (reportTable label report)

def report (desk : Desk) (options : ReportOptions) : Session Unit := do
  checkFormat options.format
  let handles (failure : Failure) := isValueFailure failure || isAccessFailure failure
  let settings ← settingsFor desk options.common handles id
  let path := shownPath options.document
  match Document.ofFile desk.files desk.surroundings path none none with
  | .error failure => refuse failure.message.toStringLossy
  | .ok document =>
      let service ← openService desk settings
      match (service.ask desk.files (.reportOnly document)).1 with
      | .ok (.report report) =>
          if options.format == "json" then echo (reportJson report).written
          else printReport path report
      | .ok _ => do
          print "[yellow]No report available[/yellow]"
          exit 1
      | .error failure => crash failure

/-! Compiling -/

structure Compiled where
  source : String
  isCompiled : Bool
  text : String
deriving DecidableEq, Repr

namespace Compiled

def row (compiled : Compiled) : List String :=
  [compiled.source, if compiled.isCompiled then "[green]OK[/green]" else "[red]FAILED[/red]",
    compiled.text]

end Compiled

def compileSource (desk : Desk) (pipeline : Pipeline) (source : RuleSource) :
    Except Failure Compiled :=
  -- A failure from outside is none of the rule set's.
  match (pipeline.compile desk.files (fun _ => false) source).1 with
  | .ok validator =>
      .ok ⟨source.toString, true, "\n".intercalate (validator.messages.map StageMessage.summary)⟩
  | .error failure =>
      if failure.isForeign then .error failure
      else .ok ⟨source.toString, false, failure.message.toStringLossy⟩

def compileLocation (desk : Desk) (pipeline : Pipeline) (base location : String) :
    Except Failure Compiled := do
  let source ←
    (RuleSource.resolve desk.surroundings (some base) location).mapError LocationError.failure
  compileSource desk pipeline source

def compileAll (desk : Desk) (pipeline : Pipeline) (base : String) (locations : List String) :
    Except Failure (List Compiled) :=
  -- Compiles rule sets in order. A location that leads nowhere ends everything.
  locations.mapM (compileLocation desk pipeline base)

def compileTable (found : List Compiled) : Console.Table where
  title := none
  columns := ["Rule Set", "Status", "Messages"]
  rows := found.map Compiled.row

def compileRuleSets (desk : Desk) (options : Options) : Session Unit := do
  let settings ← settingsFor desk options isValueFailure id
  match Pipeline.ofSettings desk.files desk.surroundings settings.ruleSets with
  | .error failure => refuse failure.message
  | .ok pipeline =>
      match compileAll desk pipeline settings.ruleSets.baseDirectory settings.ruleSets.files with
      | .error failure => crash failure
      | .ok found => do
          printTable (compileTable found)
          exit (if found.all (·.isCompiled) then 0 else 1)

def usage : String :=
  "Usage: schemagate [--version] validate DOCUMENTS... | report DOCUMENT | compile"

def perform (desk : Desk) : Request → Session Unit
  | .validate options => validate desk options
  | .report options => report desk options
  | .compile options => compileRuleSets desk options
  | .version => echo ("schemagate version " ++ Service.version)
  | .help => echo usage
  | .misuse => exit 2

def run (desk : Desk) (arguments : List String) : Ending × Transcript :=
  (perform desk (Request.ofArguments arguments)).run

end Schematron.Command

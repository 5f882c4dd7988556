import Schematron.Document
import Schematron.Schema.Compilation
import Schematron.Schema.Expansion
import Schematron.Schema.Inclusion
import Schematron.Settings.Model
import Schematron.Transform.Run

/-! Compilation: a rule set goes through its stages in order, up to the first obstacle, and what
comes out is loaded as a validator. -/

namespace Schematron

inductive SchemaFile
  | missing
  | unreadable (detail : String)
  | tree (document : Xml.Document)

structure Progress where
  collector : Collector
  -- How often it asked whether it was cancelled.
  polls : Nat
  ran : List Stage
  records : List LogRecord

namespace Progress

def start (source : RuleSource) : Progress := ⟨.empty source.toString, 0, [], []⟩

-- Asks whether the compilation is cancelled; `cancelled` answers by the number of the question.
def poll (progress : Progress) : Progress := { progress with polls := progress.polls + 1 }

def collect (progress : Progress) (stage : Stage) (log : List LogEntry) : Progress :=
  { progress with
    collector := progress.collector.collect stage.name log
    records := progress.records ++ progress.collector.collectRecords stage.name log }

def run (progress : Progress) (stage : Stage) (log : List LogEntry) : Progress :=
  { progress.collect stage log with ran := progress.ran ++ [stage] }

end Progress

def performStages (transform : Stage → Xml.Document → StageRun) (cancelled : Nat → Bool)
    (source : RuleSource) :
    List Stage → Xml.Document → Progress → Except Failure Xml.Document × Progress
  | [], document, progress => (.ok document, progress)
  | stage :: rest, document, progress =>
      let progress := progress.poll
      if cancelled progress.polls then (.error (.cancelled source.toString none), progress)
      else
        let done := transform stage document
        let progress := progress.run stage done.log
        match done.result with
        | .tree next => performStages transform cancelled source rest next progress
        | .nothing =>
            (.error (.compilation (.noOutput stage.name source.toString)), progress)
        | .failure detail =>
            (.error (.compilation (.stageFailed stage.name source.toString detail)), progress)

def compiledRecord (source : RuleSource) (collector : Collector) : LogRecord :=
  ⟨.info, .pipeline, "Compiled schematron file " ++ source.toString ++ " (" ++
    toString collector.warnings.length ++ " warnings, " ++ toString collector.errors.length ++
    " errors)"⟩

/-- Compiles a rule set: `transform` is what the stages do, `load` makes a runnable program of
their result. -/
def compile {Program : Type} (transform : Stage → Xml.Document → StageRun)
    (load : Xml.Document → Except Transform.LoadFault Program) (cancelled : Nat → Bool)
    (source : RuleSource) (file : SchemaFile) : Except Failure Program × Progress :=
  let start := Progress.start source
  match file with
  | .missing => (.error (.compilation (.missing source.toString)), start)
  | .unreadable detail => (.error (.compilation (.unreadable source.toString detail)), start)
  | .tree document =>
      match performStages transform cancelled source Stage.all document start with
      | (.error failure, progress) => (.error failure, progress)
      | (.ok result, progress) =>
          match load result with
          | .ok program =>
              (.ok program, { progress with
                records := progress.records ++ [compiledRecord source progress.collector] })
          | .error fault =>
              (.error (.compilation
                (.unusable Stage.compilation.name source.toString fault.message)),
                progress.collect .compilation (fault.notes.map LogEntry.ofMessage))

structure Validator where
  origin : String
  messages : List StageMessage
  stylesheet : Transform.Stylesheet

namespace FileTree

def document? (files : FileTree) (address : String) : Option Xml.Parsed := do
  let path ← Uri.toPath? address
  let bytes ← (files.read [] (.ofString path)).toOption
  let parsed ← Xml.parseBytes? .validating none bytes.toList
  some { parsed with document := ⟨Xml.Node.resolvedAll parsed.document.nodes⟩ }

def tree? (files : FileTree) (address : String) : Option XPath.Tree :=
  (files.document? address).map fun parsed =>
    .ofDocument address parsed.doctype.identifies parsed.document

def schemaFile (files : FileTree) (source : RuleSource) : Except Failure SchemaFile := do
  if !(← files.isFile [] source.path) then return .missing
  match files.read [] source.path with
  | .error _ => return .unreadable "cannot be read"
  | .ok bytes =>
      match Xml.parseBytes? .validating none bytes.toList with
      | some parsed => return .tree parsed.document
      | none => return .unreadable "not well-formed"

end FileTree

namespace Validator

/-- The validator of a rule set, with the messages of its stages. -/
def compile (transform : Stage → Xml.Document → StageRun)
    (load : Xml.Document → Except Transform.LoadFault Transform.Stylesheet)
    (cancelled : Nat → Bool) (source : RuleSource) (file : SchemaFile) :
    Except Failure Validator × Progress :=
  let (result, progress) := Schematron.compile transform load cancelled source file
  (result.map fun stylesheet => ⟨source.uri, progress.collector.messages, stylesheet⟩, progress)

def run (files : FileTree) (validator : Validator) (document : Document) :
    Except Failure (List Diagnostic) := do
  let parsed ← document.parse
  let tree := XPath.Tree.ofDocument "" parsed.doctype.identifies parsed.document
  match (validator.stylesheet.apply [] files.tree? tree).result with
  | .ok nodes => return Svrl.diagnostics ⟨nodes⟩
  | .error fault =>
      .error (.execution ("Could not run validator " ++ validator.origin ++ ": " ++ fault.message)
        (some (.foreign "XSLTApplyError" fault.message)))

def written (validator : Validator) : String :=
  "SchematronValidator(origin='" ++ validator.origin ++ "')"

end Validator

structure Pipeline where
  stylesheets : List (Stage × Transform.Stylesheet)
  phase : Option String

namespace Pipeline

def standard : Pipeline := ⟨[], none⟩

def loadStylesheet (files : FileTree) (surroundings : Surroundings) (stage : Stage)
    (location : String) : Except CompilationFailure Transform.Stylesheet := do
  let path := Path.ofString location
  let failed (kind detail : String) : CompilationFailure :=
    .stylesheet stage.name path.toString kind detail
  let address := (path.absolute surroundings).uri
  match files.document? address with
  | none =>
      match files.read surroundings.workingDirectory.parts path with
      | .ok _ => .error (failed "XMLSyntaxError" "cannot be read")
      | .error _ => .error (failed "OSError" "cannot be read")
  | some parsed =>
      match Transform.load address parsed.document with
      | .ok stylesheet => .ok stylesheet
      | .error fault => .error (failed "XSLTParseError" fault.message)

def build (files : FileTree) (surroundings : Surroundings) (locations : List (Stage × String))
    (phase : Option String) : Except CompilationFailure Pipeline := do
  let chosen := Stage.all.filterMap fun stage =>
    (locations.reverse.lookup stage).map fun location => (stage, location)
  let stylesheets ← chosen.mapM fun (stage, location) => do
    return (stage, ← loadStylesheet files surroundings stage location)
  return ⟨stylesheets, phase⟩

def ofSettings (files : FileTree) (surroundings : Surroundings) (settings : RuleSetSettings) :
    Except CompilationFailure Pipeline :=
  build files surroundings settings.stylesheets settings.phase

def askedPhase (pipeline : Pipeline) : Option String := pipeline.phase.filter (!·.isEmpty)

def transform (pipeline : Pipeline) (files : FileTree) (source : RuleSource) (stage : Stage)
    (document : Xml.Document) : StageRun :=
  match pipeline.stylesheets.lookup stage with
  | some stylesheet =>
      let parameters := match stage, pipeline.askedPhase with
        | .compilation, some phase => [("phase", phase)]
        | _, _ => []
      let tree := XPath.Tree.ofDocument source.uri (fun _ _ => false) document
      let outcome := stylesheet.apply parameters files.tree? tree
      let messages := outcome.messages.filter (!·.isEmpty)
      match outcome.result with
      | .ok nodes => .ofNodes nodes messages
      | .error fault => ⟨.failure fault.message, messages.map LogEntry.ofMessage⟩
  | none =>
      match stage with
      | .inclusion =>
          Schema.includeAll (fun address => (files.document? address).map (·.document)) source.uri
            document
      | .expansion => Schema.expandAll document
      | .compilation => Schema.compileAll pipeline.askedPhase document

def compile (pipeline : Pipeline) (files : FileTree) (cancelled : Nat → Bool)
    (source : RuleSource) : Except Failure Validator × Progress :=
  match files.schemaFile source with
  | .error failure => (.error failure, .start source)
  | .ok file =>
      Validator.compile (pipeline.transform files source) (Transform.load source.uri) cancelled
        source file

end Pipeline

end Schematron

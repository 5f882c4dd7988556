import Schematron.Engine.Schedule
import Schematron.Pipeline
import Schematron.Settings.Model

/-! The validation service: a pool that compiles the configured rule sets, and what a host may ask
of it. -/

namespace Schematron

structure Service where
  settings : Settings
  surroundings : Surroundings
  pipeline : Pipeline
  ownsPool : Bool
  suppressesWarnings : Bool
  priority : Int
  system : Engine.System Validator

namespace Service

def version : String := "0.1.0"

def clampPriority (priority : Int) : Int := max 1 (min 100 priority)

def assemble (settings : Settings) (surroundings : Surroundings) (pipeline : Pipeline)
    (ownsPool : Bool) (pool : Engine.Pool) : Service where
  settings
  surroundings
  pipeline
  ownsPool
  suppressesWarnings := settings.validation.suppressWarnings
  priority := clampPriority settings.validation.priority
  system := .initial pool ⟨settings.validation.filter, .seconds settings.pool.patience⟩

def create (files : FileTree) (surroundings : Surroundings) (settings : Settings) :
    Except Failure Service := do
  match Pipeline.ofSettings files surroundings settings.ruleSets with
  | .error failure => .error (.compilation failure)
  | .ok pipeline =>
      let pool ← Engine.Pool.create? settings.pool.workers
      return assemble settings surroundings pipeline true pool

def createWith (surroundings : Surroundings) (settings : Settings) (pool : Engine.Pool) : Service :=
  assemble settings surroundings .standard false pool

def world (service : Service) (files : FileTree) : Engine.World Validator where
  compile source :=
    let (result, progress) := service.pipeline.compile files (fun _ => false) source
    (result, progress.records)
  run := Validator.run files

def ask (service : Service) (files : FileTree) (call : Engine.Call) :
    Engine.Result Validator × Service :=
  let (result, system) := service.system.perform (service.world files) call
  (result.getD (.error (.general "No answer")), { service with system })

def isRunning (service : Service) : Bool := service.system.state.pool.isRunning

def generation (service : Service) : Engine.Generation := service.system.state.generation

def filter (service : Service) : Option String := service.system.state.evaluation.filter

def setFilter (service : Service) (filter : Option String) : Service :=
  { service with system.state.evaluation.filter := filter.filter (!·.isEmpty) }

def setPriority (service : Service) (priority : Int) : Service :=
  { service with priority := clampPriority priority }

def description (service : Service) : String :=
  "Validates XML documents against " ++ toString service.generation.sources.length ++
    " Schematron rule sets"

def conditions (service : Service) : List (Engine.Condition Validator) :=
  service.generation.handles.map service.system.state.condition

def configureCall (service : Service) (locations : List String) : Engine.Call :=
  .configure service.surroundings (some service.settings.ruleSets.baseDirectory)
    (locations.map .written)

def startCall (service : Service) : Engine.Call :=
  .openService service.ownsPool service.surroundings
    (some service.settings.ruleSets.baseDirectory)
    (service.settings.ruleSets.files.map .written)

def shutdownCall (service : Service) : Engine.Call := .closeService service.ownsPool

def validateCall (service : Service) (document : Document) : Engine.Call :=
  .validate document service.suppressesWarnings

end Service

end Schematron

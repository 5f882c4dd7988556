import Schematron.Engine.Program
import Schematron.Verdict

/-! What callers and workers do, as programs. -/

namespace Schematron.Engine

open Program

variable {V : Type}

def note (record : LogRecord) : Program V Unit := send (.note record)

def noteAll : List LogRecord → Program V Unit
  | [] => return
  | record :: rest => do
      note record
      noteAll rest

/-! Resolving handles -/

def invoke (handle : Handle) (outcome : Outcome V) : Callback → Program V (Option Failure)
  | .noteFailure => do
      if let .failed failure := outcome then
        note ⟨.warning, .registry,
          "Rule set " ++ handle.source.toString ++ " failed to compile: " ++ failure.message⟩
      return none
  | .host id => send (.call id handle)

def notify (handle : Handle) (outcome : Outcome V) : List Callback → Program V Unit
  -- Calls everything that waited for a handle. What is raised there only leaves a note.
  | [] => return
  | callback :: rest => do
      if (← invoke handle outcome callback).isSome then
        note ⟨.error, .pool, "Callback for compilation of " ++ handle.source.toString ++ " raised"⟩
      notify handle outcome rest

def resolve (handle : Handle) (outcome : Outcome V) : Program V Bool := do
  -- Resolves a handle. False when it had resolved before, and then nothing changes.
  match ← send (.resolve handle outcome) with
  | none => return false
  | some callbacks =>
      notify handle outcome callbacks
      return true

def resolveAll (outcome : Outcome V) : List Handle → Program V Nat
  | [] => return 0
  | handle :: rest => do
      let isFirst ← resolve handle outcome
      let count ← resolveAll outcome rest
      return if isFirst then count + 1 else count

def cancel (handle : Handle) (isSuperseded : Bool) : Program V Bool :=
  resolve handle (.withdrawn isSuperseded)

def onDone (handle : Handle) (callback : Callback) : Program V (Option Failure) := do
  match ← send (.register handle callback) with
  | none => return none
  | some outcome => invoke handle outcome callback

def await (handle : Handle) (limit : TimeLimit) : Program V (Except Failure V) :=
  send (.await handle limit)

/-! The pool -/

def deliver (handle : Handle) : Option (Outcome V) → Program V Unit
  | none => return
  | some outcome => do
      let _ ← resolve handle outcome

def work (executor : Nat) (handle : Handle) : Program V Unit := do
  send (.enter executor handle)
  let (result, records) ← send (.compile handle)
  noteAll records
  deliver handle (Outcome.ofCompiled handle result)

def job (executor : Nat) (handle : Handle) : Program V Unit := do
  work executor handle
  send (.retire executor handle)

def start : Program V Unit := send .openPool

def shutdown (waits : Bool) : Program V Unit := do
  let (executor, outstanding) ← send .closePool
  let _ ← resolveAll .cancelled outstanding
  match executor with
  | none => return
  | some executor =>
      send (.abandon executor)
      if waits then send (.drain executor)

def submit (source : RuleSource) (generation : Int) : Program V (Except Failure Handle) :=
  send (.submit source generation)

/-! The registry -/

def submitAll (generation : Int) : List RuleSource → Program V (List Handle × Option Failure)
  | [] => return ([], none)
  | source :: rest => do
      match ← submit source generation with
      | .error failure => return ([], some failure)
      | .ok handle =>
          let (handles, refusal) ← submitAll generation rest
          return (handle :: handles, refusal)

def watchAll : List Handle → Program V Unit
  | [] => return
  | handle :: rest => do
      let _ ← onDone handle .noteFailure
      watchAll rest

def configuredRecord (number : Int) (size superseded : Nat) : LogRecord :=
  let ending := if superseded == 0 then ""
    else ", superseded " ++ toString superseded ++ " pending compilations"
  ⟨.info, .registry,
    "Configured generation " ++ toString number ++ " with " ++ toString size ++ " rule sets" ++
      ending⟩

/-- Replaces the generation. The new one is in place before the old one is superseded; when a
submission is refused, the old one stays and the new handles are withdrawn. -/
def replaceGeneration (sources : List RuleSource) : Program V (Except Failure Int) := do
  let replaced ← send .reserve
  let number := replaced.number + 1
  let (handles, refusal) ← submitAll number sources
  match refusal with
  | some failure =>
      let _ ← resolveAll .cancelled handles
      send .release
      return .error failure
  | none =>
      send (.publish ⟨number, sources, handles⟩)
      watchAll handles
      let superseded ← resolveAll .superseded replaced.handles
      note (configuredRecord number sources.length superseded)
      return .ok number

def configure (surroundings : Surroundings) (base : Option String)
    (locations : List RuleLocation) : Program V (Except Failure Int) :=
  match RuleLocation.resolveAll surroundings base locations with
  | .error fault => return .error fault.failure
  | .ok sources => replaceGeneration sources

def snapshot : Program V Generation := send .snapshot

def close : Program V Unit := do
  let generation ← snapshot
  let _ ← resolveAll .cancelled generation.handles

/-! Evaluation -/

def executionFailure (handle : Handle) (failure : Failure) : Failure :=
  -- A failure of a validator that is none of the library's becomes one, if it can be written.
  if failure.isForeign then
    failure.onWriting?.getD (.execution ("Validator " ++ handle.source.toString ++ " failed: " ++
      failure.message.toStringLossy) (some failure))
  else failure

def runAll (document : Document) : List Handle → Program V (Except Failure (List Violation))
  | [] => return .ok []
  | handle :: rest => do
      let evaluation ← send .evaluation
      match ← await handle evaluation.patience with
      | .error failure => return .error failure
      | .ok validator =>
          match ← send (.run validator document) with
          | .error failure => return .error (executionFailure handle failure)
          | .ok diagnostics =>
              let found := diagnostics.map (Violation.ofDiagnostic document.contentAttribute)
              let others ← runAll document rest
              return others.map (found ++ ·)

def evaluate (document : Document) : Program V (Except Failure Report) := do
  let evaluation ← send .evaluation
  if evaluation.applies document then
    let generation ← snapshot
    let found ← runAll document generation.handles
    return found.map fun violations => ⟨violations, some generation.number⟩
  else return .ok .empty

def validate (document : Document) (suppressesWarnings : Bool) :
    Program V (Except Failure Unit) := do
  return (← evaluate document).bind fun report => report.verdict suppressesWarnings

def unreportedRecord (document : Document) (failure : Failure) : LogRecord :=
  ⟨.warning, .service,
    "Exception validating document ID " ++ document.id.getD "None" ++ ": " ++
      failure.message.toStringLossy⟩

def reportOnly (document : Document) : Program V (Except Failure (Option Report)) := do
  match ← evaluate document with
  | .ok report => return .ok (some report)
  | .error failure =>
      if failure.isForeign then return .error failure
      else
        match failure.onWriting? with
        | some raised => return .error raised
        | none =>
            note (unreportedRecord document failure)
            return .ok none

/-! The life of a service -/

/-- Starts the pool, if the service owns it, and configures the rule sets. When that fails, an owned
pool is stopped again. -/
def openService (ownsPool : Bool) (surroundings : Surroundings) (base : Option String)
    (locations : List RuleLocation) : Program V (Except Failure Unit) := do
  if ownsPool then start
  match ← configure surroundings base locations with
  | .ok _ => return .ok ()
  | .error failure =>
      if ownsPool then shutdown true
      return .error failure

def closeService (ownsPool : Bool) : Program V Unit := do
  close
  if ownsPool then shutdown true

end Schematron.Engine

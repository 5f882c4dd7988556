import Schematron.Document
import Schematron.Engine.Handle
import Schematron.Log

/-! The state that all threads share: compilations, the pool with its executors, the registry with
its current generation, and how documents are evaluated. Each operation here is atomic. -/

namespace Schematron.Engine

structure Generation where
  number : Int
  sources : List RuleSource
  handles : List Handle
deriving DecidableEq, Repr, Inhabited

namespace Generation

def initial : Generation := ⟨0, [], []⟩

end Generation

structure Executor where
  queue : List Handle
  -- In the hands of a worker that has not begun yet.
  taken : List Handle
  active : List Handle
deriving DecidableEq, Repr, Inhabited

structure Pool where
  workers : Nat
  executors : List Executor
  current : Option Nat
  submitted : List Handle
  quota : Option Nat
deriving DecidableEq, Repr

namespace Pool

def create? (workers : Int) : Except Failure Pool :=
  if workers < 1 then .error (.foreign "ValueError" "max_workers must be >= 1")
  else .ok ⟨workers.toNat, [], none, [], none⟩

def isRunning (pool : Pool) : Bool := pool.current.isSome

def updateExecutor (pool : Pool) (executor : Nat) (change : Executor → Executor) : Pool :=
  { pool with executors := pool.executors.modify executor change }

def next? (pool : Pool) (executor : Nat) : Option Handle := do
  let found ← pool.executors[executor]?
  if found.taken.length + found.active.length < pool.workers then found.queue.head? else none

def holds (pool : Pool) (executor : Nat) (handle : Handle) : Bool :=
  pool.executors[executor]?.any (·.taken.contains handle)

end Pool

structure Evaluation where
  filter : Option String
  patience : TimeLimit

namespace Evaluation

def applies (evaluation : Evaluation) (document : Document) : Bool :=
  -- A document without content, or outside the filter, is not evaluated.
  !document.isEmpty &&
    match evaluation.filter with
    | none => true
    | some space => document.rootNamespace? == some space

end Evaluation

structure State (V : Type) where
  compilations : List (Compilation V)
  pool : Pool
  generation : Generation
  configuring : Option Nat
  evaluation : Evaluation
  records : List LogRecord

namespace State

variable {V : Type}

def initial (pool : Pool) (evaluation : Evaluation) : State V :=
  ⟨[], pool, .initial, none, evaluation, []⟩

def compilation (state : State V) (handle : Handle) : Compilation V :=
  -- What is known about a handle; one that was never made would still be pending.
  state.compilations[handle.id]?.getD .fresh

def condition (state : State V) (handle : Handle) : Condition V :=
  (state.compilation handle).condition

def update (state : State V) (handle : Handle) (compilation : Compilation V) : State V :=
  { state with compilations := state.compilations.set handle.id compilation }

def create (state : State V) (source : RuleSource) (generation : Int) : Handle × State V :=
  (⟨state.compilations.length, source, generation⟩,
    { state with compilations := state.compilations ++ [.fresh] })

def resolve? (state : State V) (handle : Handle) (outcome : Outcome V) :
    Option (List Callback × State V) :=
  match state.condition handle with
  | .resolved _ => none
  | _ => some ((state.compilation handle).callbacks, state.update handle ⟨.resolved outcome, []⟩)

def register (state : State V) (handle : Handle) (callback : Callback) :
    Option (Outcome V) × State V :=
  let found := state.compilation handle
  match found.condition with
  | .resolved outcome => (some outcome, state)
  | _ => (none, state.update handle { found with callbacks := found.callbacks ++ [callback] })

def openPool (state : State V) : State V :=
  match state.pool.current with
  | some _ => state
  | none =>
      { state with pool := { state.pool with
        executors := state.pool.executors ++ [⟨[], [], []⟩]
        current := some state.pool.executors.length } }

def closePool (state : State V) : (Option Nat × List Handle) × State V :=
  -- Stops taking submissions; gives the executor that took them, and the handles that have not
  -- resolved.
  ((state.pool.current, state.pool.submitted.filter fun handle =>
      !(state.condition handle).isResolved),
    { state with pool := { state.pool with current := none } })

def submit (state : State V) (source : RuleSource) (generation : Int) :
    Except Failure Handle × State V :=
  if state.pool.quota = some 0 then (.error (.poolNotRunning "submission refused"), state)
  else
    let pool := { state.pool with quota := state.pool.quota.map (· - 1) }
    match pool.current with
    | none => (.error (.poolNotRunning "Compilation pool is not running"), { state with pool })
    | some executor =>
        let (handle, state) := state.create source generation
        let pool := { pool with submitted := pool.submitted ++ [handle] }
        (.ok handle, { state with
          pool := pool.updateExecutor executor fun found =>
            { found with queue := found.queue ++ [handle] } })

def abandon (state : State V) (executor : Nat) : State V :=
  { state with
    pool := state.pool.updateExecutor executor fun found => { found with queue := [] } }

def isIdle (state : State V) (executor : Nat) : Bool :=
  match state.pool.executors[executor]? with
  | some found => found.taken.isEmpty && found.active.isEmpty
  | none => true

def take? (state : State V) (executor : Nat) : Option (State V) := do
  let handle ← state.pool.next? executor
  return { state with
    pool := state.pool.updateExecutor executor fun found =>
      { found with queue := found.queue.tail, taken := found.taken ++ [handle] } }

/-- A worker comes to the job that it has taken. A handle that is no longer pending is dropped;
otherwise it runs from now on. -/
def begin? (state : State V) (executor : Nat) (handle : Handle) : Option (Bool × State V) :=
  if state.pool.holds executor handle then
    let rest := state.pool.updateExecutor executor fun found =>
      { found with taken := found.taken.erase handle }
    match state.condition handle with
    | .pending =>
        some (true, { state.update handle ⟨.running, (state.compilation handle).callbacks⟩ with
          pool := rest.updateExecutor executor fun found =>
            { found with active := found.active ++ [handle] } })
    | _ => some (false, { state with pool := rest })
  else none

def retire (state : State V) (executor : Nat) (handle : Handle) : State V :=
  { state with
    pool := state.pool.updateExecutor executor fun found =>
      { found with active := found.active.erase handle } }

def note (state : State V) (record : LogRecord) : State V :=
  { state with records := state.records ++ [record] }

end State

end Schematron.Engine

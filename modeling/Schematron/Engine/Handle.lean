import Schematron.Failure
import Schematron.Text.Quoted

/-! Handles: each names one rule set that was handed in for compilation. What is known about the
compilation is kept apart, because it changes, and changes for the last time when it resolves. -/

namespace Schematron.Engine

/-- The number `id` is the place among all handles, and `generation` the one that asked. -/
structure Handle where
  id : Nat
  source : RuleSource
  generation : Int
deriving DecidableEq, Repr, Inhabited

inductive Outcome (V : Type)
  | succeeded (validator : V)
  | failed (failure : CompilationFailure)
  | cancelled
  | superseded

inductive Condition (V : Type)
  | pending
  | running
  | resolved (outcome : Outcome V)

inductive Callback
  | noteFailure
  | host (id : Nat)
deriving DecidableEq, Repr

structure Compilation (V : Type) where
  condition : Condition V
  callbacks : List Callback

namespace Outcome

variable {V : Type}

def name : Outcome V → String
  | succeeded _ => "succeeded"
  | failed _ => "failed"
  | cancelled => "cancelled"
  | superseded => "superseded"

def result (handle : Handle) : Outcome V → Except Failure V
  | succeeded validator => .ok validator
  | failed failure => .error (.compilation failure)
  | cancelled => .error (.cancelled handle.source.toString none)
  | superseded => .error (.superseded handle.source.toString handle.generation)

/-- The outcome of a job. A compilation that stops because it was cancelled is cancelled, and a
failure of another kind becomes one of the rule set. It has to be written for that: a job whose
failure cannot be written ends without an outcome. -/
def ofCompiled (handle : Handle) : Except Failure V → Option (Outcome V)
  | .ok validator => some (succeeded validator)
  | .error (.compilation failure) => some (failed failure)
  | .error failure =>
      if failure.isCancellation then some cancelled
      else if failure.onWriting?.isSome then none
      else some (failed (.unexpected handle.source.toString failure))

def withdrawn (isSuperseded : Bool) : Outcome V := if isSuperseded then superseded else cancelled

end Outcome

namespace Condition

variable {V : Type}

def name : Condition V → String
  | pending => "pending"
  | running => "running"
  | resolved outcome => outcome.name

def outcome? : Condition V → Option (Outcome V)
  | resolved outcome => some outcome
  | _ => none

def isResolved (condition : Condition V) : Bool := condition.outcome?.isSome

def isWithdrawn : Condition V → Bool
  | resolved .cancelled => true
  | resolved .superseded => true
  | _ => false

def failure? : Condition V → Option CompilationFailure
  | resolved (.failed failure) => some failure
  | _ => none

end Condition

namespace Handle

def written {V : Type} (handle : Handle) (condition : Condition V) : String :=
  "CompilationHandle(source=" ++ Text.quoted handle.source.toString ++ ", generation=" ++
    toString handle.generation ++ ", state=" ++ condition.name ++ ")"

end Handle

namespace Compilation

def fresh {V : Type} : Compilation V := ⟨.pending, []⟩

end Compilation

end Schematron.Engine

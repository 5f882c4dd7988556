import Schematron.Engine.State
import Schematron.Report

/-! Programs: what a thread does, one instruction after the other. Every instruction is atomic, and
between two of them other threads may do theirs. -/

namespace Schematron.Engine

inductive Instruction (V : Type)
  | create (source : RuleSource) (generation : Int)
  | submit (source : RuleSource) (generation : Int)
  | resolve (handle : Handle) (outcome : Outcome V)
  | register (handle : Handle) (callback : Callback)
  | await (handle : Handle) (limit : TimeLimit)
  | openPool
  | closePool
  | abandon (executor : Nat)
  -- Waits until no worker of the executor has a job.
  | drain (executor : Nat)
  | retire (executor : Nat) (handle : Handle)
  -- Waits until nobody else is about to replace the generation, and then keeps others out.
  | reserve
  | release
  | publish (generation : Generation)
  | snapshot
  | evaluation
  | note (record : LogRecord)
  | enter (executor : Nat) (handle : Handle)
  | compile (handle : Handle)
  | run (validator : V) (document : Document)
  | call (id : Nat) (handle : Handle)

namespace Instruction

abbrev Reply {V : Type} : Instruction V → Type
  | create .. => Handle
  | submit .. => Except Failure Handle
  | resolve .. => Option (List Callback)
  | register .. => Option (Outcome V)
  | await .. => Except Failure V
  | openPool => Unit
  | closePool => Option Nat × List Handle
  | abandon _ => Unit
  | drain _ => Unit
  | retire .. => Unit
  | reserve => Generation
  | release => Unit
  | publish _ => Unit
  | snapshot => Generation
  | evaluation => Evaluation
  | note _ => Unit
  | enter .. => Unit
  | compile _ => Except Failure V × List LogRecord
  | run .. => Except Failure (List Diagnostic)
  | call .. => Option Failure

/-- Performs an instruction of a thread. None when it has to wait: for another thread, or for an
answer from outside. -/
def perform {V : Type} (thread : Nat) (state : State V) :
    (instruction : Instruction V) → Option (instruction.Reply × State V)
  | create source generation => some (state.create source generation)
  | submit source generation => some (state.submit source generation)
  | resolve handle outcome =>
      match state.resolve? handle outcome with
      | some (callbacks, state) => some (some callbacks, state)
      | none => some (none, state)
  | register handle callback => some (state.register handle callback)
  | await handle _ =>
      match state.condition handle with
      | .resolved outcome => some (outcome.result handle, state)
      | _ => none
  | openPool => some ((), state.openPool)
  | closePool => some state.closePool
  | abandon executor => some ((), state.abandon executor)
  | drain executor => if state.isIdle executor then some ((), state) else none
  | retire executor handle => some ((), state.retire executor handle)
  | reserve =>
      match state.configuring with
      | none => some (state.generation, { state with configuring := some thread })
      | some _ => none
  | release => some ((), { state with configuring := none })
  | publish generation => some ((), { state with generation, configuring := none })
  | snapshot =>
      match state.configuring with
      | none => some (state.generation, state)
      | some _ => none
  | evaluation => some (state.evaluation, state)
  | note record => some ((), state.note record)
  | enter .. => some ((), state)
  | compile _ => none
  | run .. => none
  | call .. => none

end Instruction

inductive Program (V α : Type)
  | done (answer : α)
  | step (instruction : Instruction V) (next : instruction.Reply → Program V α)

namespace Program

variable {V α β : Type}

def bind : Program V α → (α → Program V β) → Program V β
  | done answer, next => next answer
  | step instruction rest, next => step instruction fun reply => (rest reply).bind next

instance : Monad (Program V) where
  pure := done
  bind := bind

def send (instruction : Instruction V) : Program V instruction.Reply := step instruction done

end Program

end Schematron.Engine

import Schematron.Engine.Operation

/-! A system of threads over one state. A move lets one thread go on by one instruction, or brings
an answer from outside; every order of moves is a possible run. -/

namespace Schematron.Engine

inductive Call
  | create (source : RuleSource) (generation : Int)
  | start
  | shutdown (waits : Bool)
  | submit (source : RuleSource) (generation : Int)
  | cancel (handle : Handle) (isSuperseded : Bool)
  | onDone (handle : Handle) (callback : Callback)
  | await (handle : Handle) (limit : TimeLimit)
  | configure (surroundings : Surroundings) (base : Option String) (locations : List RuleLocation)
  | close
  | snapshot
  | evaluate (document : Document)
  | validate (document : Document) (suppressesWarnings : Bool)
  | reportOnly (document : Document)
  | openService (ownsPool : Bool) (surroundings : Surroundings) (base : Option String)
      (locations : List RuleLocation)
  | closeService (ownsPool : Bool)

inductive Answer (V : Type)
  | nothing
  | flag (value : Bool)
  | handle (handle : Handle)
  | validator (validator : V)
  | number (number : Int)
  | generation (generation : Generation)
  | report (report : Report)

abbrev Result (V : Type) := Except Failure (Answer V)

def Call.program {V : Type} : Call → Program V (Result V)
  | create source generation => return .ok (.handle (← .send (.create source generation)))
  | start => do
      Engine.start
      return .ok .nothing
  | shutdown waits => do
      Engine.shutdown waits
      return .ok .nothing
  | submit source generation => return (← Engine.submit source generation).map .handle
  | cancel handle isSuperseded => return .ok (.flag (← Engine.cancel handle isSuperseded))
  | onDone handle callback => do
      match ← Engine.onDone handle callback with
      | some failure => return .error failure
      | none => return .ok .nothing
  | await handle limit => return (← Engine.await handle limit).map .validator
  | configure surroundings base locations =>
      return (← Engine.configure surroundings base locations).map .number
  | close => do
      Engine.close
      return .ok .nothing
  | snapshot => return .ok (.generation (← Engine.snapshot))
  | evaluate document => return (← Engine.evaluate document).map .report
  | validate document suppressesWarnings =>
      return (← Engine.validate document suppressesWarnings).map fun _ => .nothing
  | reportOnly document =>
      return (← Engine.reportOnly document).map fun report => report.elim .nothing .report
  | openService ownsPool surroundings base locations =>
      return (← Engine.openService ownsPool surroundings base locations).map fun _ => .nothing
  | closeService ownsPool => do
      Engine.closeService ownsPool
      return .ok .nothing

inductive Duty
  | call (call : Call)
  | job (executor : Nat) (handle : Handle)

def Duty.program {V : Type} : Duty → Program V (Result V)
  | call request => request.program
  | job executor handle => do
      Engine.job executor handle
      return .ok .nothing

structure Thread (V : Type) where
  duty : Duty
  program : Program V (Result V)

namespace Thread

variable {V : Type}

def ofDuty (duty : Duty) : Thread V := ⟨duty, duty.program⟩

def isJob (thread : Thread V) : Bool :=
  match thread.duty with
  | .job .. => true
  | .call _ => false

def result? (thread : Thread V) : Option (Result V) :=
  match thread.program with
  | .done result => some result
  | .step .. => none

def head? (thread : Thread V) : Option (Instruction V) :=
  match thread.program with
  | .done _ => none
  | .step instruction _ => some instruction

end Thread

structure System (V : Type) where
  state : State V
  threads : List (Thread V)

inductive Move (V : Type)
  | call (call : Call)
  | advance (thread : Nat)
  | take (executor : Nat)
  | begin (executor : Nat) (handle : Handle)
  | expire (thread : Nat)
  | compiled (thread : Nat) (result : Except Failure V) (records : List LogRecord)
  | ran (thread : Nat) (result : Except Failure (List Diagnostic))
  | called (thread : Nat) (raised : Option Failure)
  | adjust (evaluation : Evaluation)
  | limit (submissions : Option Nat)

/-- What a move brings to a thread that has come to an instruction. Patience ends only while the
handle has not resolved, and never where waiting is unlimited. -/
def Move.answer? {V : Type} (move : Move V) (thread : Nat) (state : State V)
    (instruction : Instruction V) : Option (instruction.Reply × State V) :=
  match move with
  | .advance _ => instruction.perform thread state
  | .expire _ =>
      match instruction with
      | .await handle patience =>
          match state.condition handle, patience with
          | .resolved _, _ => none
          | _, .unlimited => none
          | _, _ => some (.error (.timeout handle.source.toString patience), state)
      | _ => none
  | .compiled _ result records =>
      match instruction with
      | .compile _ => some ((result, records), state)
      | _ => none
  | .ran _ result =>
      match instruction with
      | .run .. => some (result, state)
      | _ => none
  | .called _ raised =>
      match instruction with
      | .call .. => some (raised, state)
      | _ => none
  | _ => none

namespace System

variable {V : Type}

def initial (pool : Pool) (evaluation : Evaluation) : System V := ⟨.initial pool evaluation, []⟩

def goOn (system : System V) (index : Nat) (state : State V) (program : Program V (Result V)) :
    System V :=
  ⟨state, system.threads.modify index fun thread => { thread with program }⟩

def goOn? (system : System V) (index : Nat) (move : Move V) : Option (System V) := do
  match (← system.threads[index]?).program with
  | .done _ => none
  | .step instruction next =>
      let (reply, state) ← move.answer? index system.state instruction
      return system.goOn index state (next reply)

def spawn (system : System V) (thread : Thread V) : System V :=
  { system with threads := system.threads ++ [thread] }

def step (system : System V) (move : Move V) : Option (System V) :=
  match move with
  | .call call => some (system.spawn (.ofDuty (.call call)))
  | .take executor => return { system with state := ← system.state.take? executor }
  | .begin executor handle => do
      match ← system.state.begin? executor handle with
      | (false, state) => return { system with state }
      | (true, state) => return { system with state }.spawn (.ofDuty (.job executor handle))
  | .adjust evaluation => some { system with state.evaluation := evaluation }
  | .limit submissions => some { system with state.pool.quota := submissions }
  | .advance index => system.goOn? index move
  | .expire index => system.goOn? index move
  | .compiled index _ _ => system.goOn? index move
  | .ran index _ => system.goOn? index move
  | .called index _ => system.goOn? index move

def run (system : System V) : List (Move V) → Option (System V)
  | [] => some system
  | move :: rest => do (← system.step move).run rest

end System

end Schematron.Engine

import Schematron.Engine.System

/-! A schedule: one order of moves among all that are possible. Workers go before callers, and a
system is left alone once nobody can go on. -/

namespace Schematron.Engine

inductive Request (V : Type)
  | compile (handle : Handle)
  | run (validator : V) (document : Document)
  | call (id : Nat) (handle : Handle)

def Thread.request? {V : Type} (thread : Thread V) : Option (Request V) :=
  match thread.head? with
  | some (.compile handle) => some (.compile handle)
  | some (.run validator document) => some (.run validator document)
  | some (.call id handle) => some (.call id handle)
  | _ => none

/-- A world that answers at once: how rule sets compile, and how validators run. -/
structure World (V : Type) where
  compile : RuleSource → Except Failure V × List LogRecord
  run : V → Document → Except Failure (List Diagnostic)

def World.answer {V : Type} (world : World V) (thread : Nat) : Request V → Move V
  | .compile handle =>
      let (result, records) := world.compile handle.source
      .compiled thread result records
  | .run validator document => .ran thread (world.run validator document)
  | .call _ _ => .called thread none

namespace System

variable {V : Type}

def canAdvance (system : System V) (index : Nat) : Bool := (system.step (.advance index)).isSome

def beginMove? (system : System V) : Option (Move V) :=
  -- Workers come to their jobs in the order in which they have taken them.
  system.state.pool.executors.zipIdx.findSome? fun (found, executor) =>
    found.taken.head?.map fun handle => .begin executor handle

def workerMove? (system : System V) : Option (Move V) :=
  let executors := List.range system.state.pool.executors.length
  match system.beginMove? with
  | some move => some move
  | none =>
      match executors.find? fun executor => (system.state.pool.next? executor).isSome with
      | some executor => some (.take executor)
      | none => (system.threads.zipIdx.find? fun (thread, index) =>
          thread.isJob && system.canAdvance index).map fun (_, index) => .advance index

def callerMove? (system : System V) : Option (Move V) :=
  (system.threads.zipIdx.find? fun (thread, index) =>
    !thread.isJob && system.canAdvance index).map fun (_, index) => .advance index

def requests (system : System V) : List (Nat × Request V) :=
  system.threads.zipIdx.filterMap fun (thread, index) =>
    thread.request?.map fun request => (index, request)

def nextMove? (world : World V) (system : System V) : Option (Move V) :=
  match system.workerMove? with
  | some move => some move
  | none =>
      match system.requests.head? with
      | some (thread, request) => some (world.answer thread request)
      | none => system.callerMove?

def settle (world : World V) : Nat → System V → System V
  | 0, system => system
  | fuel + 1, system =>
      match (system.nextMove? world).bind system.step with
      | some next => settle world fuel next
      | none => system

def result? (system : System V) (thread : Nat) : Option (Result V) :=
  (system.threads[thread]?).bind (·.result?)

def finish (world : World V) (fuel : Nat) (thread : Nat) : Nat → System V → System V
  -- Goes on until a thread has its result: when all have settled, its patience ends.
  | 0, system => system
  | rounds + 1, system =>
      let settled := system.settle world fuel
      match settled.result? thread with
      | some _ => settled
      | none =>
          match settled.step (.expire thread) with
          | some next => finish world fuel thread rounds next
          | none => settled

def enough : Nat := 1000000

def perform (world : World V) (system : System V) (call : Call) :
    Option (Result V) × System V :=
  let thread := system.threads.length
  let finished := (system.spawn (.ofDuty (.call call))).finish world enough thread enough
  (finished.result? thread, finished)

end System

end Schematron.Engine

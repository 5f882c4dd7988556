import Schematron.Proofs.Engine.Idleness

/-!
Serial use: calls that come one after the other, each from its start to its end. Main statement: on
a system at rest a validation comes to what the state and the world say, and leaves all as it was.
-/

namespace Schematron.Engine

open Program

variable {V α β : Type} {world : World V} {state : State V}

/-! Reading -/

def World.reply? (world : World V) (state : State V) :
    (instruction : Instruction V) → Option instruction.Reply
  | .evaluation => some state.evaluation
  | .snapshot => if state.configuring.isNone then some state.generation else none
  | .await handle _ => (state.condition handle).outcome?.map (·.result handle)
  | .run validator document => some (world.run validator document)
  | _ => none

inductive Program.Reads (world : World V) (state : State V) : Nat → Program V α → α → Prop
  | done (answer : α) : Reads world state 0 (.done answer) answer
  | step {instruction : Instruction V} {reply : instruction.Reply}
      {next : instruction.Reply → Program V α} {count : Nat} {answer : α} :
      world.reply? state instruction = some reply →
      Reads world state count (next reply) answer →
      Reads world state (count + 1) (.step instruction next) answer

theorem reads_bind {count more : Nat} {program : Program V α} {value : α} {answer : β}
    (first : program.Reads world state count value) (next : α → Program V β)
    (rest : (next value).Reads world state more answer) :
    (program >>= next).Reads world state (count + more) answer := by
  change (program.bind next).Reads world state _ answer
  induction first with
  | done value =>
      rw [Nat.zero_add]
      exact rest
  | step told _ ih =>
      rw [Nat.add_right_comm]
      exact .step told (ih rest)

theorem reads_map {count : Nat} {program : Program V α} {value : α}
    (reads : program.Reads world state count value) (change : α → β) :
    (program >>= fun value => pure (change value)).Reads world state count (change value) :=
  reads_bind reads (fun value => pure (change value)) (.done _)

theorem reads_send {count : Nat} {instruction : Instruction V} {reply : instruction.Reply}
    {next : instruction.Reply → Program V α} {answer : α}
    (told : world.reply? state instruction = some reply)
    (rest : (next reply).Reads world state count answer) :
    (send instruction >>= next).Reads world state (count + 1) answer :=
  .step told rest

theorem runAll_reads (world : World V) (document : Document) {handles : List Handle}
    (resolved : ∀ handle ∈ handles, (state.condition handle).isResolved = true) :
    ∃ count found, count ≤ 3 * handles.length ∧
      (runAll document handles).Reads world state count found := by
  induction handles with
  | nil => exact ⟨0, _, Nat.le_refl 0, .done _⟩
  | cons handle rest ih =>
      obtain ⟨outcome, settled⟩ := Condition.isResolved_iff.mp (resolved handle List.mem_cons_self)
      obtain ⟨count, found, few, reads⟩ :=
        ih fun target member => resolved target (List.mem_cons_of_mem _ member)
      have told : world.reply? state (.await handle state.evaluation.patience) =
          some (outcome.result handle) := by
        simp [World.reply?, settled, Condition.outcome?]
      -- Three steps for each handle, and fewer for the one that ends it.
      rw [List.length_cons]
      cases delivered : outcome.result handle with
      | error failure =>
          rw [delivered] at told
          exact ⟨2, _, by omega, reads_send rfl (reads_send told (.done _))⟩
      | ok validator =>
          rw [delivered] at told
          cases ran : world.run validator document with
          | error failure =>
              have ran : world.reply? state (.run validator document) =
                  some (.error failure) := congrArg some ran
              exact ⟨3, _, by omega, reads_send rfl (reads_send told (reads_send ran (.done _)))⟩
          | ok diagnostics =>
              have ran : world.reply? state (.run validator document) =
                  some (.ok diagnostics) := congrArg some ran
              exact ⟨count + 3, _, by omega,
                reads_send rfl (reads_send told (reads_send ran (reads_map reads _)))⟩

theorem evaluate_reads (world : World V) (document : Document) (free : state.configuring = none)
    (resolved : ∀ handle ∈ state.generation.handles,
      (state.condition handle).isResolved = true) :
    ∃ count found, count ≤ 3 * state.generation.handles.length + 2 ∧
      (evaluate document).Reads world state count found := by
  have seen : world.reply? state .snapshot = some state.generation := by
    simp [World.reply?, free]
  obtain ⟨count, found, few, reads⟩ := runAll_reads world document resolved
  by_cases applies : state.evaluation.applies document
  · refine ⟨count + 2, found.map fun violations => ⟨violations, some state.generation.number⟩,
      by omega, reads_send rfl ?_⟩
    rw [if_pos applies]
    exact reads_send seen (reads_map reads _)
  · refine ⟨1, .ok .empty, by omega, reads_send rfl ?_⟩
    rw [if_neg applies]
    exact .done _

theorem validate_reads (world : World V) (document : Document) (suppresses : Bool)
    (free : state.configuring = none)
    (resolved : ∀ handle ∈ state.generation.handles,
      (state.condition handle).isResolved = true) :
    ∃ count result, count ≤ 3 * state.generation.handles.length + 2 ∧
      ((Call.validate document suppresses).program : Program V (Result V)).Reads world state count
        result := by
  obtain ⟨count, found, few, reads⟩ := evaluate_reads world document free resolved
  exact ⟨count, _, few, reads_map (reads_map reads _) _⟩

/-! One call on its own -/

namespace System

variable {system : System V}

section Call

variable {call : Call} {program : Program V (Result V)} {thread : Thread V}

theorem Idle.stopped_spawn (idle : system.Idle) {index : Nat}
    (old : index ≠ system.threads.length) : (system.spawn thread).canAdvance index = false := by
  rw [← Bool.not_eq_true, canAdvance_eq_true]
  rintro ⟨duty, instruction, rest, there, performed⟩
  have within : index < system.threads.length := by
    have bound := (List.getElem?_eq_some_iff.mp there).1
    simp only [spawn, List.length_append, List.length_singleton] at bound
    omega
  have there : system.threads[index]? = some ⟨duty, .step instruction rest⟩ := by
    rwa [spawn, List.getElem?_append_left within] at there
  have advances := canAdvance_eq_true.mpr ⟨duty, instruction, rest, there, performed⟩
  rw [idle.stopped index] at advances
  cases advances

theorem Idle.spawn (idle : system.Idle) (result : Result V) :
    (system.spawn ⟨.call call, .done result⟩).Idle := by
  constructor
  case unheld => exact idle.unheld
  case untaken => exact idle.untaken
  case stopped =>
    intro index
    by_cases new : index = system.threads.length
    · rw [← Bool.not_eq_true, canAdvance_eq_true]
      rintro ⟨duty, instruction, rest, there, -⟩
      simp [System.spawn, new] at there
    · exact idle.stopped_spawn new
  case unasked =>
    intro thread member
    rcases List.mem_append.mp member with old | new
    · exact idle.unasked thread old
    · rw [List.mem_singleton.mp new]
      rfl

theorem Idle.workerMove?_spawn (idle : system.Idle) (call : Call)
    (program : Program V (Result V)) :
    (system.spawn ⟨.call call, program⟩).workerMove? = none := by
  refine workerMove?_eq_none.mpr ⟨idle.unheld, idle.untaken, fun index thread there job => ?_⟩
  by_cases new : index = system.threads.length
  · simp only [System.spawn, new, List.getElem?_concat_length, Option.some.injEq] at there
    subst there
    cases job
  · exact idle.stopped_spawn new

theorem Idle.requests_spawn (idle : system.Idle) (thread : Thread V) :
    (system.spawn thread).requests =
      (thread.request?.map fun request => (system.threads.length, request)).toList := by
  have none : system.requests = [] := requests_eq_nil.mpr idle.unasked
  simp only [requests] at none
  simp only [requests, System.spawn, List.zipIdx_append, List.filterMap_append, none,
    List.nil_append]
  cases asked : thread.request? <;> simp [asked]

theorem Idle.callerMove?_spawn (idle : system.Idle)
    (advances : (system.spawn ⟨.call call, program⟩).canAdvance system.threads.length = true) :
    (system.spawn ⟨.call call, program⟩).callerMove? = some (.advance system.threads.length) := by
  have threads : (system.spawn ⟨.call call, program⟩).threads =
      system.threads ++ [⟨.call call, program⟩] := rfl
  rw [callerMove?, threads, List.zipIdx_append, List.find?_append,
    find?_zipIdx_eq_none.mpr fun index thread there => ?_]
  · simp [advances, Thread.isJob]
  · have old := Nat.ne_of_lt (List.getElem?_eq_some_iff.mp there).1
    simp [idle.stopped_spawn old]

@[simp] theorem spawn_getElem?_length (thread : Thread V) :
    (system.spawn thread).threads[system.threads.length]? = some thread := by
  simp [spawn]

theorem goOn_spawn (duty : Duty) (before after : Program V (Result V)) :
    (system.spawn ⟨duty, before⟩).goOn system.threads.length system.state after =
      system.spawn ⟨duty, after⟩ := by
  simp [goOn, spawn, List.modify_eq_take_drop, List.modifyHead]

/-- A thread that reads goes on by the next move of the schedule. -/
theorem Idle.nextMove?_spawn (idle : system.Idle) (call : Call) {instruction : Instruction V}
    {reply : instruction.Reply} (next : instruction.Reply → Program V (Result V))
    (told : world.reply? system.state instruction = some reply) :
    ∃ move, (system.spawn ⟨.call call, .step instruction next⟩).nextMove? world = some move ∧
      (system.spawn ⟨.call call, .step instruction next⟩).step move =
        some (system.spawn ⟨.call call, next reply⟩) := by
  have workers := idle.workerMove?_spawn call (.step instruction next)
  have asked := idle.requests_spawn ⟨.call call, .step instruction next⟩
  have alone (unasked : (⟨.call call, .step instruction next⟩ : Thread V).request? = none)
      (performed : instruction.perform system.threads.length system.state =
        some (reply, system.state)) :
      ∃ move, (system.spawn ⟨.call call, .step instruction next⟩).nextMove? world = some move ∧
        (system.spawn ⟨.call call, .step instruction next⟩).step move =
          some (system.spawn ⟨.call call, next reply⟩) := by
    have stepped : (system.spawn ⟨.call call, .step instruction next⟩).step
        (.advance system.threads.length) = some (system.spawn ⟨.call call, next reply⟩) := by
      rw [step_of_perform (spawn_getElem?_length _) performed, goOn_spawn]
    have chosen := idle.callerMove?_spawn (by rw [canAdvance, stepped, Option.isSome_some])
    rw [unasked] at asked
    exact ⟨.advance system.threads.length, by simp [nextMove?, workers, asked, chosen], stepped⟩
  cases instruction with
  | evaluation =>
      cases told
      exact alone rfl rfl
  | snapshot =>
      simp only [World.reply?, Option.isNone_iff_eq_none, Option.ite_none_right_eq_some] at told
      obtain ⟨free, told⟩ := told
      cases told
      exact alone rfl (by simp [Instruction.perform, free])
  | await handle limit =>
      obtain ⟨outcome, settled, rfl⟩ := Option.map_eq_some_iff.mp told
      have resolved : system.state.condition handle = .resolved outcome := by
        cases condition : system.state.condition handle with
        | resolved given => simpa [condition, Condition.outcome?] using settled
        | _ => simp [condition, Condition.outcome?] at settled
      exact alone rfl (by simp [Instruction.perform, resolved])
  | run validator document =>
      cases told
      refine ⟨.ran system.threads.length (world.run validator document), ?_, ?_⟩
      · simp [nextMove?, workers, asked, Thread.request?, Thread.head?, World.answer]
      · simp only [step, goOn?, spawn_getElem?_length, Move.answer?, Option.bind_eq_bind,
          Option.bind_some]
        exact congrArg some (goOn_spawn _ _ _)
  | _ => cases told

theorem Idle.settle_spawn (idle : system.Idle) (call : Call) {count fuel : Nat} {result : Result V}
    (reads : program.Reads world system.state count result) (enough : count ≤ fuel) :
    (system.spawn ⟨.call call, program⟩).settle world fuel =
      system.spawn ⟨.call call, .done result⟩ := by
  induction reads generalizing fuel with
  | done answer => exact (idle.spawn answer).settle_eq fuel
  | step told _ ih =>
      obtain ⟨fuel, rfl⟩ := Nat.exists_eq_add_of_lt enough
      obtain ⟨move, chosen, stepped⟩ := idle.nextMove?_spawn call _ told
      rw [settle, chosen, Option.bind_some, stepped]
      exact ih (by omega)

theorem Idle.perform_eq (idle : system.Idle) {count : Nat} {result : Result V}
    (reads : (call.program : Program V (Result V)).Reads world system.state count result)
    (few : count ≤ enough) :
    system.perform world call = (some result, system.spawn ⟨.call call, .done result⟩) := by
  have settles := idle.settle_spawn call reads few
  have ended : (system.spawn ⟨.call call, .done result⟩).result? system.threads.length =
      some result := by
    simp [result?, Thread.result?]
  have finishes : (system.spawn (.ofDuty (.call call))).finish world enough system.threads.length
      enough = system.spawn ⟨.call call, .done result⟩ := by
    change (system.spawn ⟨.call call, call.program⟩).finish world enough _ (999999 + 1) = _
    rw [finish, settles, ended]
  rw [perform, finishes, ended]

end Call

structure AtRest (system : System V) : Prop where
  idle : system.Idle
  free : system.state.configuring = none
  resolved : ∀ handle ∈ system.state.generation.handles,
    (system.state.condition handle).isResolved = true
  short : 3 * system.state.generation.handles.length + 2 ≤ enough

/-- What a validation comes to on a system at rest follows from the state, which stays as it is. -/
theorem AtRest.validates (rest : system.AtRest) (world : World V) (document : Document)
    (suppresses : Bool) :
    ∃ result, ∀ other : System V, other.AtRest → other.state = system.state →
      (other.perform world (.validate document suppresses)).1 = some result ∧
      (other.perform world (.validate document suppresses)).2.AtRest ∧
      (other.perform world (.validate document suppresses)).2.state = system.state := by
  obtain ⟨count, result, few, reads⟩ := validate_reads world document suppresses rest.free
    rest.resolved
  refine ⟨result, fun other also same => ?_⟩
  rw [← same] at reads few
  rw [also.idle.perform_eq reads (Nat.le_trans few also.short)]
  exact ⟨rfl, ⟨also.idle.spawn result, also.free, also.resolved, also.short⟩, same⟩

end System

end Schematron.Engine

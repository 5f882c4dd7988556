import Schematron.Proofs.Engine.Duties

/-!
States: what one move does to the state that all threads share. Handles are numbered in the order in
which they are made, a condition changes only as a handle begins or resolves, and nothing is queued
that was not handed in.
-/

namespace Schematron.Engine

variable {V : Type}

def Exchange.made? : Exchange V → Option Handle
  | ⟨.create _ _, handle⟩ => some handle
  | ⟨.submit _ _, .ok handle⟩ => some handle
  | _ => none

def Exchange.resolution? (handle : Handle) : Exchange V → Option (Outcome V)
  | ⟨.resolve target outcome, some _⟩ => if target.id = handle.id then some outcome else none
  | _ => none

theorem Condition.isResolved_iff {condition : Condition V} :
    condition.isResolved = true ↔ ∃ outcome, condition = .resolved outcome := by
  cases condition <;> simp [isResolved, outcome?]

def Executor.line (executor : Executor) : List Handle := executor.taken ++ executor.queue

theorem Executor.mem_line_erase {executor : Executor} {handle other : Handle}
    {active : List Handle} (waits : handle ∈ executor.line) (apart : handle ≠ other) :
    handle ∈ Executor.line ⟨executor.queue, executor.taken.erase other, active⟩ := by
  rcases List.mem_append.mp waits with taken | queued
  · exact List.mem_append_left _ ((List.mem_erase_of_ne apart).mpr taken)
  · exact List.mem_append_right _ queued

def Pool.Queues (pool : Pool) (handle : Handle) : Prop :=
  ∃ executor ∈ pool.executors, handle ∈ executor.line

theorem Pool.queues_updateExecutor {pool : Pool} {index : Nat} {change : Executor → Executor}
    {handle : Handle} (queues : (pool.updateExecutor index change).Queues handle) :
    pool.Queues handle ∨ ∃ found, pool.executors[index]? = some found ∧
      handle ∈ (change found).line := by
  obtain ⟨executor, member, queued⟩ := queues
  obtain ⟨place, found⟩ := List.mem_iff_getElem?.mp member
  simp only [updateExecutor, List.getElem?_modify, Option.map_eq_map,
    Option.map_eq_some_iff] at found
  obtain ⟨before, found, changed⟩ := found
  split at changed
  next same =>
    subst same changed
    exact .inr ⟨before, found, queued⟩
  next =>
    subst changed
    exact .inl ⟨before, List.mem_of_getElem? found, queued⟩

theorem Pool.next?_eq_some {pool : Pool} {executor : Nat} {handle : Handle}
    (next : pool.next? executor = some handle) :
    ∃ found rest, pool.executors[executor]? = some found ∧
      found.taken.length + found.active.length < pool.workers ∧ found.queue = handle :: rest := by
  simp only [next?, Option.bind_eq_bind, Option.bind_eq_some_iff,
    Option.ite_none_right_eq_some] at next
  obtain ⟨found, held, free, front⟩ := next
  obtain ⟨rest, queue⟩ := List.head?_eq_some_iff.mp front
  exact ⟨found, rest, held, free, queue⟩

theorem Pool.holds_iff {pool : Pool} {executor : Nat} {handle : Handle} :
    pool.holds executor handle = true ↔
      ∃ found, pool.executors[executor]? = some found ∧ handle ∈ found.taken := by
  simp [holds, Option.any_eq_true]

theorem Pool.queues_of_holds {pool : Pool} {executor : Nat} {handle : Handle}
    (holds : pool.holds executor handle = true) : pool.Queues handle := by
  obtain ⟨found, held, taken⟩ := holds_iff.mp holds
  exact ⟨found, List.mem_of_getElem? held, List.mem_append_left _ taken⟩

/-- Nobody comes to wait by one being begun or dropped. -/
theorem Pool.queues_erase {pool : Pool} {index : Nat} {handle other : Handle}
    {active : Executor → List Handle}
    (queues : (pool.updateExecutor index fun found =>
      ⟨found.queue, found.taken.erase handle, active found⟩).Queues other) :
    pool.Queues other := by
  rcases queues_updateExecutor queues with old | ⟨found, held, member⟩
  · exact old
  · refine ⟨found, List.mem_of_getElem? held, ?_⟩
    exact List.Sublist.mem member ((List.erase_sublist).append_right _)

namespace State

def Knows (state : State V) (handle : Handle) : Prop := handle.id < state.compilations.length

instance (state : State V) (handle : Handle) : Decidable (state.Knows handle) :=
  inferInstanceAs (Decidable (_ < _))

/-! What is known about a handle -/

theorem compilation_of_not_knows {state : State V} {handle : Handle}
    (unknown : ¬ state.Knows handle) : state.compilation handle = .fresh := by
  have beyond : state.compilations[handle.id]? = none := by
    simpa [Knows] using unknown
  simp [compilation, beyond]

theorem compilation_congr {state next : State V} (same : next.compilations = state.compilations)
    (handle : Handle) : next.compilation handle = state.compilation handle := by
  simp [compilation, same]

theorem compilation_of_id_eq (state : State V) {handle other : Handle}
    (same : handle.id = other.id) : state.compilation handle = state.compilation other := by
  simp [compilation, same]

theorem compilation_update (state : State V) (target handle : Handle) (found : Compilation V) :
    (state.update target found).compilation handle =
      if target.id = handle.id ∧ state.Knows handle then found else state.compilation handle := by
  simp only [compilation, update, Knows, List.getElem?_set]
  by_cases same : target.id = handle.id
  · by_cases known : handle.id < state.compilations.length <;> simp [same, known]
  · simp [same]

theorem compilation_create (state : State V) (source : RuleSource) (generation : Int)
    (handle : Handle) :
    (state.create source generation).2.compilation handle = state.compilation handle := by
  simp only [compilation, create, List.getElem?_append]
  by_cases known : handle.id < state.compilations.length
  · simp [known]
  · by_cases next : handle.id = state.compilations.length
    · simp [next]
    · have beyond : handle.id - state.compilations.length ≠ 0 := by omega
      obtain ⟨rest, beyond⟩ := Nat.exists_eq_succ_of_ne_zero beyond
      simp [known, beyond]

theorem compilation_submit (state : State V) (source : RuleSource) (generation : Int)
    (handle : Handle) :
    (state.submit source generation).2.compilation handle = state.compilation handle := by
  simp only [submit]
  split
  · rfl
  · split
    · exact compilation_congr rfl handle
    · exact compilation_create state source generation handle

theorem compilation_openPool (state : State V) (handle : Handle) :
    state.openPool.compilation handle = state.compilation handle := by
  simp only [openPool]
  split <;> rfl

theorem condition_of_not_knows {state : State V} {handle : Handle}
    (unknown : ¬ state.Knows handle) : state.condition handle = .pending := by
  rw [condition, compilation_of_not_knows unknown]
  rfl

theorem knows_of_resolved {state : State V} {handle : Handle} {outcome : Outcome V}
    (resolved : state.condition handle = .resolved outcome) : state.Knows handle := by
  by_contra unknown
  rw [condition_of_not_knows unknown] at resolved
  cases resolved

theorem condition_of_id_eq (state : State V) {handle other : Handle} (same : handle.id = other.id) :
    state.condition handle = state.condition other :=
  congrArg Compilation.condition (state.compilation_of_id_eq same)

theorem condition_update (state : State V) (target handle : Handle) (found : Compilation V) :
    (state.update target found).condition handle =
      if target.id = handle.id ∧ state.Knows handle then found.condition
      else state.condition handle := by
  rw [condition, compilation_update, apply_ite Compilation.condition, condition]

theorem condition_register (state : State V) (target : Handle) (callback : Callback)
    (handle : Handle) :
    (state.register target callback).2.condition handle = state.condition handle := by
  simp only [register]
  split
  · rfl
  · rw [condition_update]
    split
    next matched => exact condition_of_id_eq state matched.1
    next => rfl

/-! Taking a job, and beginning it -/

theorem take?_eq_some {state next : State V} {executor : Nat}
    (taken : state.take? executor = some next) :
    ∃ handle, state.pool.next? executor = some handle ∧
      next = { state with pool := state.pool.updateExecutor executor fun found =>
        ⟨found.queue.tail, found.taken ++ [handle], found.active⟩ } := by
  simp only [take?, Option.bind_eq_bind, Option.bind_eq_some_iff, Option.pure_def,
    Option.some.injEq] at taken
  obtain ⟨handle, front, rfl⟩ := taken
  exact ⟨handle, front, rfl⟩

/-- Who is taken goes on waiting until he is begun. -/
theorem take?_queues {state next : State V} {executor : Nat}
    (taken : state.take? executor = some next) :
    ∃ pool, next = { state with pool } ∧ ∀ handle, pool.Queues handle →
      state.pool.Queues handle := by
  obtain ⟨front, next?, rfl⟩ := take?_eq_some taken
  obtain ⟨found, rest, held, -, queue⟩ := Pool.next?_eq_some next?
  refine ⟨_, rfl, fun handle queued => ?_⟩
  rcases Pool.queues_updateExecutor queued with old | ⟨before, still, member⟩
  · exact old
  · rw [held, Option.some.injEq] at still
    subst before
    refine ⟨found, List.mem_of_getElem? held, ?_⟩
    simpa [Executor.line, queue] using member

theorem begin?_eq_some {state next : State V} {executor : Nat} {handle : Handle} {starts : Bool}
    (begun : state.begin? executor handle = some (starts, next)) :
    state.pool.holds executor handle = true ∧
      ((starts = false ∧ state.condition handle ≠ .pending ∧
          next = { state with pool := state.pool.updateExecutor executor fun found =>
            { found with taken := found.taken.erase handle } }) ∨
        (starts = true ∧ state.condition handle = .pending ∧
          next = { state.update handle ⟨.running, (state.compilation handle).callbacks⟩ with
            pool := state.pool.updateExecutor executor fun found =>
              ⟨found.queue, found.taken.erase handle, found.active ++ [handle]⟩ })) := by
  simp only [begin?, Option.ite_none_right_eq_some] at begun
  obtain ⟨holds, begun⟩ := begun
  refine ⟨holds, ?_⟩
  cases condition : state.condition handle with
  | pending =>
      simp only [condition, Option.some.injEq, Prod.mk.injEq] at begun
      obtain ⟨rfl, rfl⟩ := begun
      refine .inr ⟨rfl, rfl, ?_⟩
      simp [Pool.updateExecutor, List.modify_modify_eq, Function.comp_def]
  | _ =>
      simp only [condition, Option.some.injEq, Prod.mk.injEq] at begun
      obtain ⟨rfl, rfl⟩ := begun
      exact .inl ⟨rfl, by simp, rfl⟩

theorem begin?_drops {state next : State V} {executor : Nat} {handle : Handle}
    (begun : state.begin? executor handle = some (false, next)) :
    ∃ pool, next = { state with pool } ∧ ∀ other, pool.Queues other →
      state.pool.Queues other := by
  obtain ⟨-, ⟨-, -, rfl⟩ | ⟨starts, -⟩⟩ := begin?_eq_some begun
  · exact ⟨_, rfl, fun other => Pool.queues_erase⟩
  · cases starts

theorem begin?_starts {state next : State V} {executor : Nat} {handle : Handle}
    (begun : state.begin? executor handle = some (true, next)) :
    state.pool.Queues handle ∧ state.condition handle = .pending ∧ ∃ pool,
      next = { state.update handle ⟨.running, (state.compilation handle).callbacks⟩ with pool } ∧
      ∀ other, pool.Queues other → state.pool.Queues other := by
  obtain ⟨holds, ⟨dropped, -⟩ | ⟨-, pending, rfl⟩⟩ := begin?_eq_some begun
  · cases dropped
  · exact ⟨Pool.queues_of_holds holds, pending, _, rfl, fun other => Pool.queues_erase⟩

/-- A submission makes a handle, or is refused and makes none. -/
theorem submit_cases (state : State V) (source : RuleSource) (generation : Int) :
    (∃ failure, (state.submit source generation).1 = .error failure ∧
      (state.submit source generation).2.compilations = state.compilations) ∨
    (∃ handle, (state.submit source generation).1 = .ok handle ∧
      handle.id = state.compilations.length ∧
      (state.submit source generation).2.compilations = state.compilations ++ [.fresh]) := by
  by_cases refused : state.pool.quota = some 0
  · exact .inl ⟨.poolNotRunning "submission refused", by simp only [submit, if_pos refused],
      by simp only [submit, if_pos refused]⟩
  · cases current : state.pool.current with
    | none =>
        exact .inl ⟨.poolNotRunning "Compilation pool is not running",
          by simp only [submit, if_neg refused, current],
          by simp only [submit, if_neg refused, current]⟩
    | some executor =>
        exact .inr ⟨(state.create source generation).1,
          by simp only [submit, if_neg refused, current], rfl,
          by simp only [submit, if_neg refused, current, create]⟩

theorem queues_submit {state : State V} {source : RuleSource} {generation : Int} {handle : Handle}
    (queues : (state.submit source generation).2.pool.Queues handle) :
    state.pool.Queues handle ∨ (state.submit source generation).1 = .ok handle := by
  simp only [submit] at queues ⊢
  split at queues
  next refused => exact .inl queues
  next accepted =>
    rw [if_neg accepted]
    split at queues
    · exact .inl queues
    · rcases Pool.queues_updateExecutor queues with old | ⟨found, held, member⟩
      · exact .inl old
      · have member : handle ∈ found.line ++ [(state.create source generation).1] := by
          simpa only [Executor.line, List.append_assoc] using member
        rcases List.mem_append.mp member with old | new
        · exact .inl ⟨found, List.mem_of_getElem? held, old⟩
        · simp only [List.mem_singleton] at new
          exact .inr (by rw [new])

theorem queues_openPool {state : State V} {handle : Handle}
    (queues : state.openPool.pool.Queues handle) : state.pool.Queues handle := by
  simp only [openPool] at queues
  split at queues
  · exact queues
  · obtain ⟨executor, member, queued⟩ := queues
    simp only [List.mem_append, List.mem_singleton] at member
    rcases member with old | rfl
    · exact ⟨executor, old, queued⟩
    · cases queued

end State

namespace System

variable {thread : Nat} {state next : State V} {instruction : Instruction V}
  {reply : instruction.Reply}

theorem Answer.made (answer : Answer thread state instruction reply next) :
    match Exchange.made? ⟨instruction, reply⟩ with
    | some handle => handle.id = state.compilations.length ∧
        next.compilations.length = state.compilations.length + 1
    | none => next.compilations.length = state.compilations.length := by
  cases answer with
  | create source generation => exact ⟨rfl, by simp [State.create]⟩
  | submit source generation =>
      rcases state.submit_cases source generation with ⟨failure, refused, same⟩ |
        ⟨handle, submitted, number, longer⟩
      · rw [refused, same]
        rfl
      · rw [submitted, longer]
        exact ⟨number, by simp⟩
  | resolve | tooLate => simp [Exchange.made?, State.update]
  | register target callback =>
      simp only [Exchange.made?, State.register]
      split <;> simp [State.update]
  | openPool =>
      simp only [Exchange.made?, State.openPool]
      split <;> rfl
  | _ => rfl

theorem Answer.knows (answer : Answer thread state instruction reply next) {handle : Handle}
    (known : state.Knows handle) : next.Knows handle := by
  have made := answer.made
  simp only [State.Knows] at known ⊢
  split at made <;> omega

theorem Answer.queues (answer : Answer thread state instruction reply next) {handle : Handle}
    (queues : next.pool.Queues handle) :
    state.pool.Queues handle ∨ Exchange.made? ⟨instruction, reply⟩ = some handle := by
  have shrunk {index : Nat} {change : Executor → Executor}
      (shrinks : ∀ found, ∀ target ∈ (change found).line, target ∈ found.line)
      (queues : (state.pool.updateExecutor index change).Queues handle) :
      state.pool.Queues handle := by
    rcases Pool.queues_updateExecutor queues with old | ⟨found, held, member⟩
    · exact old
    · exact ⟨found, List.mem_of_getElem? held, shrinks found handle member⟩
  cases answer with
  | submit source generation =>
      refine (State.queues_submit queues).imp_right fun submitted => ?_
      rw [submitted]
      rfl
  | openPool => exact .inl (State.queues_openPool queues)
  | register target callback =>
      simp only [State.register] at queues
      split at queues <;> exact .inl queues
  | abandon executor =>
      refine .inl (shrunk (fun found target member => ?_) queues)
      exact List.mem_append_left _ (by simpa [Executor.line] using member)
  | retire executor target =>
      refine .inl (shrunk (fun found target member => ?_) queues)
      exact member
  | _ => exact .inl queues

/-- An instruction changes the condition of a handle only by resolving it. -/
theorem Answer.condition (answer : Answer thread state instruction reply next) (handle : Handle) :
    match Exchange.resolution? handle ⟨instruction, reply⟩ with
    | some outcome => (state.condition handle).isResolved = false ∧
        (state.Knows handle → next.condition handle = .resolved outcome)
    | none => next.condition handle = state.condition handle := by
  cases answer with
  | create source generation =>
      exact congrArg Compilation.condition (state.compilation_create source generation handle)
  | submit source generation =>
      exact congrArg Compilation.condition (state.compilation_submit source generation handle)
  | register target callback => exact state.condition_register target callback handle
  | openPool => exact congrArg Compilation.condition (state.compilation_openPool handle)
  | @resolve target outcome unresolved =>
      by_cases same : target.id = handle.id
      · have settled (known : state.Knows handle) :
            (state.update target ⟨.resolved outcome, []⟩).condition handle = .resolved outcome := by
          rw [state.condition_update, if_pos ⟨same, known⟩]
        rw [state.condition_of_id_eq same] at unresolved
        simpa [Exchange.resolution?, same] using ⟨unresolved, settled⟩
      · simp [Exchange.resolution?, same, State.condition_update]
  | _ => rfl

end System

end Schematron.Engine

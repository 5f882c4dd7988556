import Schematron.Proofs.Engine.Independence

/-!
Idleness: what the schedule chooses, and when it is through. Main statements: nothing can be chosen
in an idle system, which is settled; and when a caller that is alone with workers ends with a note,
it leaves an idle system behind.
-/

namespace Schematron.Engine

variable {V α : Type} {world : World V}

/-- A note keeps nobody waiting, and lets nobody go on. -/
theorem Instruction.perform_note (thread : Nat) (state : State V) (record : LogRecord)
    (instruction : Instruction V) :
    (instruction.perform thread (state.note record)).isSome =
      (instruction.perform thread state).isSome := by
  cases instruction with
  | resolve handle outcome =>
      simp only [perform, State.resolve?, State.condition, State.compilation, State.note]
      split <;> split <;> rfl
  | await handle limit =>
      simp only [perform, State.condition, State.compilation, State.note]
      split <;> rfl
  | drain executor =>
      have same : (state.note record).isIdle executor = state.isIdle executor := rfl
      simp only [perform, same]
      split <;> rfl
  | reserve | snapshot =>
      simp only [perform, State.note]
      split <;> rfl
  | _ => rfl

namespace System

variable {system next : System V}

structure Idle (system : System V) : Prop where
  unheld : ∀ executor handle, system.state.pool.holds executor handle = false
  untaken : ∀ executor, system.state.pool.next? executor = none
  stopped : ∀ index, system.canAdvance index = false
  unasked : ∀ thread ∈ system.threads, thread.request? = none

theorem canAdvance_eq_true {index : Nat} : system.canAdvance index = true ↔
    ∃ duty instruction rest, system.threads[index]? = some ⟨duty, .step instruction rest⟩ ∧
      (instruction.perform index system.state).isSome = true := by
  simp only [canAdvance, step, goOn?]
  cases found : system.threads[index]? with
  | none => simp
  | some thread =>
      obtain ⟨duty, program⟩ := thread
      cases program with
      | done result => simp
      | step instruction rest =>
          cases performed : instruction.perform index system.state <;>
            simp [Move.answer?, performed]

theorem next?_eq_none_of_beyond {pool : Pool} {executor : Nat}
    (beyond : pool.executors.length ≤ executor) : pool.next? executor = none := by
  simp [Pool.next?, beyond]

theorem find?_zipIdx {item : α} {list : List α} {index : Nat} {wanted : α × Nat → Bool}
    (found : list.zipIdx.find? wanted = some (item, index)) :
    list[index]? = some item ∧ wanted (item, index) = true := by
  refine ⟨?_, List.find?_some found⟩
  have member := List.mem_of_find?_eq_some found
  exact List.mem_zipIdx_iff_getElem?.mp member

theorem find?_zipIdx_eq_none {list : List α} {wanted : α × Nat → Bool} :
    list.zipIdx.find? wanted = none ↔
      ∀ (index : Nat) item, list[index]? = some item → wanted (item, index) = false := by
  simp only [List.find?_eq_none, Bool.not_eq_true]
  constructor
  · intro none index item found
    exact none _ (List.mem_zipIdx_iff_getElem?.mpr found)
  · rintro none ⟨item, index⟩ member
    exact none index item (List.mem_zipIdx_iff_getElem?.mp member)

theorem beginMove?_eq_none : system.beginMove? = none ↔
    ∀ executor handle, system.state.pool.holds executor handle = false := by
  simp only [beginMove?, List.findSome?_eq_none_iff, Option.map_eq_none_iff,
    List.head?_eq_none_iff, Bool.eq_false_iff, ne_eq, Pool.holds_iff, not_exists, not_and]
  constructor
  · intro empty executor handle found held member
    rw [empty (found, executor) (List.mem_zipIdx_iff_getElem?.mpr held)] at member
    cases member
  · rintro unheld ⟨found, executor⟩ member
    refine List.eq_nil_iff_forall_not_mem.mpr fun handle => ?_
    exact unheld executor handle found (List.mem_zipIdx_iff_getElem?.mp member)

theorem eq_of_beginMove? {move : Move V} (begins : system.beginMove? = some move) :
    ∃ executor handle, move = .begin executor handle := by
  obtain ⟨⟨found, executor⟩, -, given⟩ := List.exists_of_findSome?_eq_some begins
  obtain ⟨handle, -, rfl⟩ := Option.map_eq_some_iff.mp given
  exact ⟨executor, handle, rfl⟩

theorem workerMove?_eq_none : system.workerMove? = none ↔
    (∀ executor handle, system.state.pool.holds executor handle = false) ∧
      (∀ executor, system.state.pool.next? executor = none) ∧
      ∀ index thread, system.threads[index]? = some thread → thread.isJob = true →
        system.canAdvance index = false := by
  have executors : ((List.range system.state.pool.executors.length).find? fun executor =>
      (system.state.pool.next? executor).isSome) = none ↔
        ∀ executor, system.state.pool.next? executor = none := by
    simp only [List.find?_eq_none, List.mem_range, Option.not_isSome_iff_eq_none]
    refine ⟨fun none executor => ?_, fun none executor _ => none executor⟩
    by_cases within : executor < system.state.pool.executors.length
    · exact none executor within
    · exact next?_eq_none_of_beyond (Nat.le_of_not_lt within)
  rw [← executors, ← beginMove?_eq_none]
  simp only [workerMove?]
  split
  next move begins => simp [begins]
  next unheld =>
    split
    next executor chosen => simp [chosen]
    next nothing =>
      rw [Option.map_eq_none_iff, find?_zipIdx_eq_none]
      simp [unheld, nothing]

theorem requests_eq_nil : system.requests = [] ↔
    ∀ thread ∈ system.threads, thread.request? = none := by
  simp only [requests, List.filterMap_eq_nil_iff, Option.map_eq_none_iff]
  constructor
  · intro none thread member
    obtain ⟨index, found⟩ := List.getElem?_of_mem member
    exact none ⟨thread, index⟩ (List.mem_zipIdx_iff_getElem?.mpr found)
  · rintro none ⟨thread, index⟩ member
    exact none thread (List.mem_of_getElem? (List.mem_zipIdx_iff_getElem?.mp member))

theorem mem_requests {place : Nat} {request : Request V}
    (member : (place, request) ∈ system.requests) :
    ∃ thread, system.threads[place]? = some thread ∧ thread.request? = some request := by
  obtain ⟨⟨thread, index⟩, among, found⟩ := List.mem_filterMap.mp member
  obtain ⟨also, asked, same⟩ := Option.map_eq_some_iff.mp found
  cases same
  exact ⟨thread, List.mem_zipIdx_iff_getElem?.mp among, asked⟩

theorem callerMove?_eq_none : system.callerMove? = none ↔
    ∀ index thread, system.threads[index]? = some thread → thread.isJob = false →
      system.canAdvance index = false := by
  rw [callerMove?, Option.map_eq_none_iff, find?_zipIdx_eq_none]
  simp

theorem Idle.nextMove?_eq_none (idle : system.Idle) : system.nextMove? world = none := by
  have workers := workerMove?_eq_none.mpr ⟨idle.unheld, idle.untaken, fun index _ _ _ => idle.stopped index⟩
  have asked := requests_eq_nil.mpr idle.unasked
  have callers := callerMove?_eq_none.mpr fun index _ _ _ => idle.stopped index
  simp [nextMove?, workers, asked, callers]

theorem Idle.settle_eq (idle : system.Idle) (fuel : Nat) : system.settle world fuel = system := by
  cases fuel with
  | zero => rfl
  | succ fuel => simp [settle, idle.nextMove?_eq_none]

theorem eq_of_workerMove? {move : Move V} (works : system.workerMove? = some move) :
    (∃ executor handle, move = .begin executor handle) ∨ (∃ executor, move = .take executor) ∨
      ∃ index thread, move = .advance index ∧ system.threads[index]? = some thread ∧
        thread.isJob = true := by
  simp only [workerMove?] at works
  split at works
  next begun begins =>
    cases works
    exact .inl (eq_of_beginMove? begins)
  next =>
    split at works
    next executor _ =>
      cases works
      exact .inr (.inl ⟨executor, rfl⟩)
    next =>
      obtain ⟨⟨thread, index⟩, found, rfl⟩ := Option.map_eq_some_iff.mp works
      obtain ⟨there, wanted⟩ := find?_zipIdx found
      simp only [Bool.and_eq_true] at wanted
      exact .inr (.inr ⟨index, thread, rfl, there, wanted.1⟩)

theorem answered_of_event? {move : Move V} {index : Nat} {instruction : Instruction V}
    {reply : instruction.Reply}
    (happened : system.event? move = some ⟨index, instruction, reply⟩) :
    ∃ state, move.answer? index system.state instruction = some (reply, state) := by
  simp only [event?, Option.bind_eq_bind, Option.bind_eq_some_iff] at happened
  obtain ⟨place, -, held, -, happened⟩ := happened
  split at happened
  · cases happened
  · obtain ⟨⟨given, state⟩, answered, same⟩ := Option.bind_eq_some_iff.mp happened
    cases same
    exact ⟨state, answered⟩

/-- When a caller notes something, the workers are through with everything by then. -/
theorem alone_of_noted {move : Move V} (chosen : system.nextMove? world = some move)
    {index : Nat} {record : LogRecord}
    (happened : system.event? move = some ⟨index, .note record, ()⟩) {call : Call}
    {program : Program V (Result V)}
    (found : system.threads[index]? = some ⟨.call call, program⟩) :
    system.workerMove? = none ∧ system.requests = [] := by
  -- Workers come first, then answers from outside, and callers last.
  simp only [nextMove?] at chosen
  split at chosen
  next works =>
    cases chosen
    rcases eq_of_workerMove? works with ⟨executor, handle, rfl⟩ | ⟨executor, rfl⟩ |
      ⟨other, thread, rfl, there, job⟩
    · cases happened
    · cases happened
    · cases event?_thread happened
      rw [found] at there
      cases there
      cases job
  next nothing =>
    refine ⟨nothing, ?_⟩
    split at chosen
    next thread request asked =>
      cases chosen
      obtain ⟨state, answered⟩ := answered_of_event? happened
      cases request <;> cases answered
    next none => exact List.head?_eq_none_iff.mp none

theorem Idle.of_noted {move : Move V} (chosen : system.nextMove? world = some move)
    (stepped : system.step move = some next) {index : Nat} {record : LogRecord}
    (happened : system.event? move = some ⟨index, .note record, ()⟩) {call : Call}
    {program : Program V (Result V)} (found : system.threads[index]? = some ⟨.call call, program⟩)
    (others : ∀ other thread, other ≠ index → system.threads[other]? = some thread →
      thread.isJob = true)
    {duty : Duty} {result : Result V} (ended : next.threads[index]? = some ⟨duty, .done result⟩) :
    next.Idle := by
  obtain ⟨workers, asked⟩ := alone_of_noted chosen happened found
  obtain ⟨unheld, untaken, stopped⟩ := workerMove?_eq_none.mp workers
  have unasked := requests_eq_nil.mp asked
  have transition := step_transition stepped
  rw [happened] at transition
  have noted : next.state = system.state.note record := by
    have answer := transition.event.1
    generalize next.state = state at answer
    cases answer
    rfl
  -- The note has changed nothing but the log, and nobody else has gone on.
  have stays {other : Nat} {thread : Thread V} (there : next.threads[other]? = some thread) :
      thread.program = .done result ∨
        other ≠ index ∧ system.threads[other]? = some thread := by
    by_cases same : other = index
    · subst same
      rw [ended] at there
      cases there
      exact .inl rfl
    · refine .inr ⟨same, ?_⟩
      rcases transition.thread there with ⟨old, -⟩ | ⟨-, silent, -⟩ | ⟨_, _, _, -, other, -⟩
      · exact old
      · cases silent
      · cases other
        exact absurd rfl same
  constructor
  case unheld =>
    rw [noted]
    exact unheld
  case untaken =>
    rw [noted]
    exact untaken
  case stopped =>
    intro other
    rw [← Bool.not_eq_true, canAdvance_eq_true]
    rintro ⟨duty, instruction, rest, there, performed⟩
    rcases stays there with done | ⟨apart, old⟩
    · cases done
    · rw [noted, instruction.perform_note] at performed
      have advances := canAdvance_eq_true.mpr ⟨duty, instruction, rest, old, performed⟩
      rw [stopped other _ old (others other _ apart old)] at advances
      cases advances
  case unasked =>
    intro thread member
    obtain ⟨other, there⟩ := List.getElem?_of_mem member
    rcases stays there with done | ⟨-, old⟩
    · simp [Thread.request?, Thread.head?, done]
    · exact unasked thread (List.mem_of_getElem? old)

theorem Idle.unanswered (idle : system.Idle) {index : Nat} {move : Move V}
    (outside : (∃ result, move = .ran index result) ∨ ∃ raised, move = .called index raised) :
    system.goOn? index move = none := by
  simp only [goOn?]
  cases found : system.threads[index]? with
  | none => rfl
  | some thread =>
      obtain ⟨duty, program⟩ := thread
      have unasked := idle.unasked _ (List.mem_of_getElem? found)
      cases program with
      | done result => rfl
      | step instruction rest =>
          cases instruction with
          | run | call => simp [Thread.request?, Thread.head?] at unasked
          | _ => rcases outside with ⟨_, rfl⟩ | ⟨_, rfl⟩ <;> rfl

theorem Idle.settled (idle : system.Idle) : system.Settled where
  untaken executor := by simp [step, State.take?, idle.untaken executor]
  unbegun executor handle := by simp [step, State.begin?, idle.unheld executor handle]
  stopped index := by simpa [canAdvance] using idle.stopped index
  ran _ result := idle.unanswered (.inl ⟨result, rfl⟩)
  called _ raised := idle.unanswered (.inr ⟨raised, rfl⟩)

theorem Idle.compiling_eq_nil (idle : system.Idle) (executor : Nat) :
    system.compiling executor = [] := by
  refine List.filterMap_eq_nil_iff.mpr fun thread member => ?_
  have unasked := idle.unasked thread member
  obtain ⟨duty, program⟩ := thread
  cases program with
  | done result => rfl
  | step instruction rest =>
      cases instruction with
      | compile => simp [Thread.request?, Thread.head?] at unasked
      | _ => rfl

/-! What comes of the moves that are chosen -/

theorem settle_induction {motive : Nat → System V → Prop}
    (start : motive 0 system)
    (keeps : ∀ count middle move next, motive count middle → middle.nextMove? world = some move →
      middle.step move = some next → motive (count + 1) next) (fuel : Nat) :
    ∃ count ≤ fuel, motive count (system.settle world fuel) := by
  induction fuel generalizing system motive with
  | zero => exact ⟨0, Nat.le_refl 0, start⟩
  | succ fuel ih =>
      cases made : (system.nextMove? world).bind system.step with
      | none =>
          rw [settle, made]
          exact ⟨0, Nat.zero_le _, start⟩
      | some next =>
          rw [settle, made]
          obtain ⟨move, chosen, stepped⟩ := Option.bind_eq_some_iff.mp made
          obtain ⟨count, few, found⟩ := ih (motive := fun count => motive (count + 1))
            (keeps 0 _ move next start chosen stepped)
            fun count middle move next before => keeps (count + 1) middle move next before
          exact ⟨count + 1, Nat.succ_le_succ few, found⟩

/-- A compilation that the schedule brings to its end comes to what the world has for it. -/
theorem compiled_of_nextMove? {move : Move V} (chosen : system.nextMove? world = some move)
    (stepped : system.step move = some next) {index : Nat} {handle : Handle}
    {reply : Except Failure V × List LogRecord}
    (happened : system.event? move = some ⟨index, .compile handle, reply⟩) :
    reply = world.compile handle.source := by
  obtain ⟨state, answered⟩ := answered_of_event? happened
  have transition := step_transition stepped
  rw [happened] at transition
  obtain ⟨-, duty, rest, found⟩ := transition.event
  simp only [nextMove?] at chosen
  split at chosen
  next works =>
    cases chosen
    rcases eq_of_workerMove? works with ⟨_, _, rfl⟩ | ⟨_, rfl⟩ | ⟨_, _, rfl, -⟩ <;> cases answered
  next =>
    split at chosen
    next place request waiting =>
      cases chosen
      obtain ⟨thread, there, requested⟩ := mem_requests (List.mem_of_mem_head? waiting)
      cases request with
      | compile target =>
          cases event?_thread happened
          rw [found] at there
          cases there
          cases requested
          cases answered
          rfl
      | _ => cases answered
    next =>
      obtain ⟨_, -, rfl⟩ := Option.map_eq_some_iff.mp chosen
      cases answered

theorem ne_call_of_nextMove? {move : Move V}
    (chosen : system.nextMove? world = some move) (call : Call) : move ≠ .call call := by
  simp only [nextMove?] at chosen
  split at chosen
  next works =>
    cases chosen
    rcases eq_of_workerMove? works with ⟨_, _, rfl⟩ | ⟨_, rfl⟩ | ⟨_, _, rfl, -⟩ <;> simp
  next =>
    split at chosen
    next thread request asked =>
      cases chosen
      cases request <;> simp [World.answer]
    next =>
      obtain ⟨_, -, rfl⟩ := Option.map_eq_some_iff.mp chosen
      simp

theorem duty_of_nextMove? {move : Move V}
    (chosen : system.nextMove? world = some move) (stepped : system.step move = some next)
    {index : Nat} {thread : Thread V} (found : next.threads[index]? = some thread) :
    thread.isJob = true ∨ ∃ before, system.threads[index]? = some before ∧
      before.duty = thread.duty := by
  have transition := step_transition stepped
  rcases transition.thread found with ⟨old, -⟩ | ⟨new, silent, -⟩ | ⟨_, _, _, old, -⟩
  · exact .inr ⟨thread, old, rfl⟩
  · rw [silent] at transition
    cases transition with
    | call call => exact absurd rfl (ne_call_of_nextMove? chosen call)
    | begin taken =>
        simp only [spawn, new, List.getElem?_concat_length, Option.some.injEq] at found
        rw [← found]
        exact .inl rfl
    | _ => exact .inr ⟨thread, found, rfl⟩
  · exact .inr ⟨_, old, rfl⟩

end System

end Schematron.Engine

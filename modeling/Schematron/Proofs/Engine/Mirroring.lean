import Schematron.Proofs.Engine.History

/-!
Mirroring: two systems that differ in one thread only. Main statement: while that thread is still
inside a program that it has in both of them, whatever happens in one can happen in the other.
-/

namespace Schematron.Engine

variable {V α β γ : Type}

theorem Program.bind_assoc (program : Program V α) (next : α → Program V β)
    (last : β → Program V γ) :
    (program.bind next).bind last = program.bind fun answer => (next answer).bind last := by
  induction program with
  | done answer => rfl
  | step instruction rest ih =>
      simp only [bind, step.injEq, heq_eq_eq, true_and]
      funext reply
      exact ih reply

namespace System

def recast (system : System V) (index : Nat) (thread : Thread V) : System V :=
  { system with threads := system.threads.set index thread }

variable {system next last : System V} {index : Nat} {thread other : Thread V} {move : Move V}

theorem recast_getElem?_self (present : index < system.threads.length) :
    (system.recast index thread).threads[index]? = some thread := by
  simp [recast, present]

theorem recast_spawn (present : index < system.threads.length) :
    (system.recast index thread).spawn other = (system.spawn other).recast index thread := by
  simp only [recast, spawn, List.set_append_left _ _ present]

theorem event?_thread {event : Event V} (happens : system.event? move = some event) :
    move.thread? = some event.thread := by
  simp only [event?, Option.bind_eq_bind, Option.bind_eq_some_iff] at happens
  obtain ⟨place, moves, held, found, happens⟩ := happens
  split at happens
  · cases happens
  · obtain ⟨answered, -, same⟩ := Option.bind_eq_some_iff.mp happens
    cases same
    exact moves

/-- A move changes no thread but its own. -/
theorem kept_of_step (found : system.threads[index]? = some thread)
    (elsewhere : move.thread? ≠ some index) (stepped : system.step move = some next) :
    next.threads[index]? = some thread := by
  have present := (List.getElem?_eq_some_iff.mp found).1
  have transition := step_transition stepped
  have apart (event : Event V) (happens : system.event? move = some event) :
      event.thread ≠ index := by
    intro same
    exact elsewhere (same ▸ event?_thread happens)
  generalize system.event? move = event at transition apart
  cases transition with
  | call call => simp only [spawn, List.getElem?_append_left present, found]
  | begin begun => simp only [spawn, List.getElem?_append_left present, found]
  | @answer _ place held instruction rest reply state =>
      have apart : place ≠ index := apart ⟨place, instruction, reply⟩ rfl
      simp [goOn, apart, found]
  | _ => exact found

/-- A move that leaves the thread alone is the same move for both. -/
theorem step_recast (present : index < system.threads.length)
    (elsewhere : move.thread? ≠ some index) (stepped : system.step move = some next) :
    (system.recast index thread).step move = some (next.recast index thread) := by
  have goes {place : Nat} (apart : place ≠ index) (stepped : system.goOn? place move = some next) :
      (system.recast index thread).goOn? place move = some (next.recast index thread) := by
    simp only [goOn?, recast, List.getElem?_set_ne (Ne.symm apart)] at stepped ⊢
    cases found : system.threads[place]? with
    | none => simp [found] at stepped
    | some held =>
        simp only [found, Option.bind_eq_bind, Option.bind_some] at stepped ⊢
        cases program : held.program with
        | done result => simp [program] at stepped
        | step instruction rest =>
            simp only [program, Option.bind_eq_some_iff] at stepped ⊢
            obtain ⟨⟨reply, state⟩, answered, reached⟩ := stepped
            cases reached
            refine ⟨(reply, state), answered, ?_⟩
            simp only [Option.pure_def, Option.some.injEq, goOn, System.mk.injEq, true_and]
            refine List.ext_getElem? fun other => ?_
            simp only [List.getElem?_modify, List.getElem?_set, List.length_modify]
            by_cases same : index = other
            · subst same
              simp [apart, present]
            · simp [same]
  cases move with
  | call call =>
      simp only [step, Option.some.injEq] at stepped ⊢
      rw [← stepped, recast_spawn present]
  | take executor =>
      simp only [step, recast, Option.bind_eq_bind, Option.bind_eq_some_iff, Option.pure_def,
        Option.some.injEq] at stepped ⊢
      obtain ⟨state, taken, rfl⟩ := stepped
      exact ⟨state, taken, rfl⟩
  | begin executor handle =>
      simp only [step, recast, Option.bind_eq_bind, Option.bind_eq_some_iff] at stepped ⊢
      obtain ⟨⟨starts, state⟩, begun, reached⟩ := stepped
      refine ⟨(starts, state), begun, ?_⟩
      cases starts with
      | false =>
          cases reached
          rfl
      | true =>
          cases reached
          have held : index < ({ system with state } : System V).threads.length := present
          exact congrArg some (recast_spawn held)
  | adjust evaluation | limit submissions =>
      simp only [step, recast, Option.some.injEq] at stepped ⊢
      rw [← stepped]
  | advance place | expire place | compiled place | ran place | called place =>
      exact goes (fun same => elsewhere (congrArg some same)) stepped

section Mirrored

variable {duty : Duty} {program : Program V α} {follow : α → Program V (Result V)} (mirror : Duty)
  (mirrored : α → Program V (Result V))

/-- A move of the thread itself is the same for both as long as their program is. -/
theorem goOn?_recast {instruction : Instruction V} {rest : instruction.Reply → Program V α}
    (found : system.threads[index]? = some ⟨duty, (Program.step instruction rest).bind follow⟩)
    (stepped : system.goOn? index move = some next) :
    ∃ reply, next.threads[index]? = some ⟨duty, (rest reply).bind follow⟩ ∧
      (system.recast index ⟨mirror, (Program.step instruction rest).bind mirrored⟩).goOn? index
        move = some (next.recast index ⟨mirror, (rest reply).bind mirrored⟩) := by
  have present := (List.getElem?_eq_some_iff.mp found).1
  simp only [goOn?, found, Program.bind, Option.bind_eq_bind, Option.bind_some,
    Option.bind_eq_some_iff] at stepped
  obtain ⟨⟨reply, state⟩, answered, reached⟩ := stepped
  simp only [Option.pure_def, Option.some.injEq] at reached
  subst next
  refine ⟨reply, by simp [goOn, found], ?_⟩
  simp only [goOn?, recast_getElem?_self present, Program.bind, Option.bind_eq_bind,
    Option.bind_some, Option.bind_eq_some_iff]
  refine ⟨(reply, state), answered, ?_⟩
  simp only [Option.pure_def, Option.some.injEq, goOn, recast, System.mk.injEq, true_and]
  refine List.ext_getElem? fun other => ?_
  simp only [List.getElem?_modify, List.getElem?_set, List.length_modify]
  by_cases same : index = other
  · subst same
    simp [present]
  · simp [same]

theorem mirrored_step (found : system.threads[index]? = some ⟨duty, program.bind follow⟩)
    (stepped : system.step move = some next) :
    (∃ answer, program = .done answer ∧ move.thread? = some index) ∨
    ∃ later : Program V α, next.threads[index]? = some ⟨duty, later.bind follow⟩ ∧
      (system.recast index ⟨mirror, program.bind mirrored⟩).step move =
        some (next.recast index ⟨mirror, later.bind mirrored⟩) := by
  have present := (List.getElem?_eq_some_iff.mp found).1
  by_cases own : move.thread? = some index
  · cases program with
    | done answer => exact .inl ⟨answer, rfl, own⟩
    | step instruction rest =>
        refine .inr ?_
        cases move with
        | advance place | expire place | compiled place | ran place | called place =>
            cases own
            obtain ⟨reply, held, mirrors⟩ := goOn?_recast mirror mirrored found stepped
            exact ⟨rest reply, held, mirrors⟩
        | _ => cases own
  · exact .inr ⟨program, kept_of_step found own stepped, step_recast present own stepped⟩

/-- When the thread has come to its end, there was a moment at which it had left the program that is
the same for both, and up to then whatever happened in one can happen in the other. -/
theorem mirrored_run {moves : List (Move V)} {result : Result V}
    (found : system.threads[index]? = some ⟨duty, program.bind follow⟩)
    (reached : system.run moves = some last)
    (ended : last.threads[index]? = some ⟨duty, .done result⟩) :
    ∃ early late middle answer, moves = early ++ late ∧ system.run early = some middle ∧
      middle.run late = some last ∧ middle.threads[index]? = some ⟨duty, follow answer⟩ ∧
      (system.recast index ⟨mirror, program.bind mirrored⟩).run early =
        some (middle.recast index ⟨mirror, mirrored answer⟩) := by
  induction moves generalizing system program with
  | nil =>
      cases reached
      rw [ended, Option.some.injEq, Thread.mk.injEq] at found
      cases program with
      | done answer =>
          refine ⟨[], [], last, answer, rfl, rfl, rfl, ?_, rfl⟩
          rw [ended, found.2]
          rfl
      | step instruction rest => cases found.2
  | cons move moves ih =>
      simp only [run, Option.bind_eq_bind, Option.bind_eq_some_iff] at reached
      obtain ⟨next, stepped, continued⟩ := reached
      rcases mirrored_step mirror mirrored found stepped with ⟨answer, rfl, -⟩ |
        ⟨later, held, mirrors⟩
      · refine ⟨[], move :: moves, system, answer, rfl, rfl, ?_, found, rfl⟩
        simp [run, stepped, continued]
      · obtain ⟨early, late, middle, answer, rfl, before, after, left, alike⟩ := ih held continued
        refine ⟨move :: early, late, middle, answer, rfl, ?_, after, left, ?_⟩
        · simp [run, stepped, before]
        · simp [run, mirrors, alike]

end Mirrored

end System

end Schematron.Engine

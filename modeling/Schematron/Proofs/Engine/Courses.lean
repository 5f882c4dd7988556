import Schematron.Proofs.Engine.Likeness

/-!
Courses: the runs that a schedule takes. Main statements: whatever a system has been through before,
a thread of it keeps the rule that its program keeps; and when the schedule brings a call to its
result, the call comes to it by moves of the system, with the answers of the world.
-/

namespace Schematron.Engine.System

variable {V : Type} {world : World V} {system first next last : System V} {moves : List (Move V)}
  {index : Nat} {call : Call} {result : Result V}

/-- From any point of a run on, a thread goes on with what keeps the rule. -/
theorem keeps_of_run {duty : Duty} {program : Program V (Result V)} {rule : Rule V}
    {ending : List (Exchange V) → Result V → Prop} {past : List (Exchange V)}
    (found : first.threads[index]? = some ⟨duty, program⟩)
    (keeps : program.Keeps rule ending past) (reached : first.run moves = some last) :
    ∃ rest, last.threads[index]? = some ⟨duty, rest⟩ ∧
      rest.Keeps rule ending (past ++ exchangesOf index (first.trace moves)) := by
  refine run_induction (motive := fun moves system => ∃ rest,
    system.threads[index]? = some ⟨duty, rest⟩ ∧
      rest.Keeps rule ending (past ++ exchangesOf index (first.trace moves)))
    ⟨program, found, by simpa using keeps⟩ ?_ reached
  rintro moves middle move next reached ⟨program, found, keeps⟩ stepped
  have transition := step_transition stepped
  obtain ⟨⟨same, rest⟩, held, kept⟩ := transition.duty found
  obtain rfl : same = duty := kept
  refine ⟨rest, held, ?_⟩
  rw [trace_concat reached stepped, exchangesOf_append, ← List.append_assoc]
  rcases transition.thread held with ⟨old, others⟩ | ⟨new, -, -⟩ |
    ⟨instruction, later, reply, old, happened, goes⟩
  · have nothing : exchangesOf index (middle.event? move).toList = [] := by
      cases event : middle.event? move with
      | none => rfl
      | some other => exact exchangesOf_single_other (others other event) _
    rw [found] at old
    cases old
    rwa [nothing, List.append_nil]
  · have present := (List.getElem?_eq_some_iff.mp found).1
    omega
  · rw [found] at old
    cases old
    rw [happened] at transition ⊢
    rw [Option.toList_some, exchangesOf_single_self]
    obtain rfl : rest = later reply := goes
    exact keeps.2 reply transition.event.1.isPossible

def LeadsTo (world : World V) (first last : System V) : Prop :=
  ∃ moves, first.run moves = some last ∧ ∀ event ∈ first.trace moves,
    event.Truthful fun validator document reply => reply = world.run validator document

theorem LeadsTo.refl (world : World V) (system : System V) : LeadsTo world system system :=
  ⟨[], rfl, by simp⟩

theorem LeadsTo.trans (leads : LeadsTo world first next) (further : LeadsTo world next last) :
    LeadsTo world first last := by
  obtain ⟨moves, reached, truthful⟩ := leads
  obtain ⟨later, continued, honest⟩ := further
  obtain ⟨whole, trace⟩ := run_join reached continued
  refine ⟨moves ++ later, whole, fun event member => ?_⟩
  rw [trace, List.mem_append] at member
  exact member.elim (truthful event) (honest event)

theorem LeadsTo.of_step {move : Move V} (stepped : system.step move = some next)
    (truthful : ∀ event, system.event? move = some event →
      event.Truthful fun validator document reply => reply = world.run validator document) :
    LeadsTo world system next := by
  refine ⟨[move], (run_single system move).trans stepped, fun event member => truthful event ?_⟩
  rw [trace_single stepped] at member
  exact Option.mem_toList.mp member

/-- A validator that the schedule lets answer says what it says in the world. -/
theorem truthful_of_nextMove? {move : Move V} (chosen : system.nextMove? world = some move)
    {event : Event V} (happens : system.event? move = some event) :
    event.Truthful fun validator document reply => reply = world.run validator document := by
  intro validator document reply asked
  obtain ⟨index, duty, next, rfl, found⟩ := ran_of_event? happens asked
  simp only [nextMove?] at chosen
  split at chosen
  next works =>
    cases chosen
    rcases eq_of_workerMove? works with ⟨_, _, same⟩ | ⟨_, same⟩ | ⟨_, _, same, -⟩ <;> cases same
  next =>
    split at chosen
    next place request waiting =>
      obtain ⟨thread, there, requested⟩ := mem_requests (List.mem_of_mem_head? waiting)
      cases request with
      | run other given =>
          cases chosen
          rw [found] at there
          cases there
          cases requested
          rfl
      | _ => cases chosen
    next =>
      obtain ⟨_, -, same⟩ := Option.map_eq_some_iff.mp chosen
      cases same

theorem leadsTo_settle (world : World V) (fuel : Nat) (system : System V) :
    LeadsTo world system (system.settle world fuel) := by
  induction fuel generalizing system with
  | zero => exact .refl world system
  | succ fuel ih =>
      rw [settle]
      split
      next next made =>
        obtain ⟨move, chosen, stepped⟩ := Option.bind_eq_some_iff.mp made
        exact (LeadsTo.of_step stepped fun _ => truthful_of_nextMove? chosen).trans (ih next)
      next => exact .refl world system

theorem leadsTo_finish (world : World V) (fuel index rounds : Nat) (system : System V) :
    LeadsTo world system (system.finish world fuel index rounds) := by
  induction rounds generalizing system with
  | zero => exact .refl world system
  | succ rounds ih =>
      have settled := leadsTo_settle world fuel system
      simp only [finish]
      split
      next => exact settled
      next =>
        split
        next next expired =>
          refine settled.trans (.trans (.of_step expired fun event happens => ?_) (ih next))
          intro validator document reply asked
          obtain ⟨_, _, _, same, -⟩ := ran_of_event? happens asked
          cases same
        next => exact settled

/-- What the schedule brings a call to, the call comes to in a run. -/
theorem comesTo_of_perform (performed : (system.perform world call).1 = some result) :
    ∃ moves, system.ComesTo call moves (system.perform world call).2.state result ∧
      ∀ event ∈ (system.asked call).trace moves,
        event.Truthful fun validator document reply => reply = world.run validator document := by
  obtain ⟨moves, reached, truthful⟩ :=
    leadsTo_finish world enough system.threads.length enough (system.asked call)
  refine ⟨moves, ⟨_, reached, rfl, ?_⟩, truthful⟩
  obtain ⟨rest, held, -⟩ :=
    keeps_of_run (system.asked_getElem? call) (call.program.keeps_past []) reached
  have ended : (system.perform world call).1 = (⟨.call call, rest⟩ : Thread V).result? := by
    change ((finish world enough system.threads.length enough (system.asked call)).threads[_]?).bind
      _ = _
    rw [held, Option.bind_some]
  rw [ended] at performed
  cases rest with
  | done given =>
      cases performed
      exact held
  | step => cases performed

end Schematron.Engine.System

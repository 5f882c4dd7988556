import Schematron.Proofs.Engine.Registry

/-!
Turns: when calls are made, and when they are through. Main statement: where the calls that manage a
service take turns, each of them is through when the next one is made, and does nothing any more.
-/

namespace Schematron.Engine

variable {V : Type}

def Call.manages : Call → Bool
  | configure .. => true
  | openService .. => true
  | closeService _ => true
  | _ => false

def Duty.manages : Duty → Bool
  | .call request => request.manages
  | .job .. => false

namespace System

def unmanaged (system : System V) : Bool :=
  system.threads.all fun thread => !thread.duty.manages || thread.result?.isSome

def mayBegin (system : System V) : Move V → Bool
  | .call call => !call.manages || system.unmanaged
  | _ => true

def takesTurns (system : System V) : List (Move V) → Bool
  | [] => true
  | move :: rest => system.mayBegin move &&
      match system.step move with
      | some next => next.takesTurns rest
      | none => true

theorem takesTurns_append {system middle : System V} {first : List (Move V)}
    (reached : system.run first = some middle) (second : List (Move V)) :
    system.takesTurns (first ++ second) =
      (system.takesTurns first && middle.takesTurns second) := by
  induction first generalizing system with
  | nil =>
      cases reached
      rfl
  | cons move rest ih =>
      simp only [run, Option.bind_eq_bind, Option.bind_eq_some_iff] at reached
      obtain ⟨next, stepped, reached⟩ := reached
      simp only [List.cons_append, takesTurns, stepped, ih reached, Bool.and_assoc]

/-! Threads that are through -/

section Ended

variable {system next first last : System V} {move : Move V} {event : Option (Event V)}
  {later : List (Move V)} {index : Nat} {duty : Duty} {result : Result V}

theorem Transition.ended (transition : Transition system move event next)
    (found : system.threads[index]? = some ⟨duty, .done result⟩) :
    next.threads[index]? = some ⟨duty, .done result⟩ ∧
      ∀ happened, event = some happened → happened.thread ≠ index := by
  obtain ⟨⟨same, program⟩, held, rfl⟩ := transition.duty found
  rcases transition.thread held with ⟨old, others⟩ | ⟨new, -, -⟩ | ⟨_, _, _, old, -, -⟩
  · rw [found] at old
    cases old
    exact ⟨held, others⟩
  · have present := (List.getElem?_eq_some_iff.mp found).1
    omega
  · rw [found] at old
    cases old

theorem ended_of_run (found : first.threads[index]? = some ⟨duty, .done result⟩)
    (continued : first.run later = some last) :
    last.threads[index]? = some ⟨duty, .done result⟩ ∧
      ∀ event ∈ first.trace later, event.thread ≠ index := by
  refine run_induction (motive := fun moves system =>
    system.threads[index]? = some ⟨duty, .done result⟩ ∧
      ∀ event ∈ first.trace moves, event.thread ≠ index) ⟨found, by simp⟩ ?_ continued
  intro moves middle move next reached before stepped
  obtain ⟨held, others⟩ := (step_transition stepped).ended before.1
  refine ⟨held, fun event member => ?_⟩
  rw [trace_concat reached stepped, List.mem_append, Option.mem_toList] at member
  exact member.elim (before.2 event) (others event)

theorem idle_of_ended (found : first.threads[index]? = some ⟨duty, .done result⟩)
    (continued : first.run later = some last) :
    exchangesOf index (first.trace later) = [] := by
  refine List.eq_nil_iff_forall_not_mem.mpr fun exchange member => ?_
  exact (ended_of_run found continued).2 _ (mem_exchangesOf.mp member) rfl

end Ended

/-! Calls that are made -/

structure Birth (start : System V) (moves : List (Move V)) (last : System V) (index : Nat)
    (call : Call) where
  early : List (Move V)
  late : List (Move V)
  moment : System V
  whole : moves = early ++ .call call :: late
  reached : start.run early = some moment
  place : moment.threads.length = index
  continued : (moment.asked call).run late = some last

namespace Birth

variable {start middle last next : System V} {moves : List (Move V)} {index : Nat} {call : Call}

theorem called (birth : Birth start moves last index call) : .call call ∈ moves := by
  rw [birth.whole]
  exact List.mem_append_right _ List.mem_cons_self

theorem trace (birth : Birth start moves last index call) :
    start.trace moves =
      start.trace birth.early ++ (birth.moment.asked call).trace birth.late := by
  refine (congrArg start.trace birth.whole).trans ?_
  rw [trace_append birth.reached]
  rfl

theorem kept {before : Nat} {thread : Thread V} (birth : Birth start moves last index call)
    (found : birth.moment.threads[before]? = some thread) :
    (birth.moment.asked call).threads[before]? = some thread := by
  have present := (List.getElem?_eq_some_iff.mp found).1
  simp only [asked, spawn, List.getElem?_append_left present, found]

def ahead {move : Move V} (birth : Birth start moves middle index call)
    (stepped : middle.step move = some next) : Birth start (moves ++ [move]) next index call where
  early := birth.early
  late := birth.late ++ [move]
  moment := birth.moment
  whole := (congrArg (· ++ [move]) birth.whole).trans (by simp)
  reached := birth.reached
  place := birth.place
  continued := by rw [run_append, birth.continued, Option.bind_some, run_single, stepped]

end Birth

section Runs

variable {pool : Pool} {evaluation : Evaluation} {moves : List (Move V)} {last : System V}
  {index before : Nat} {call : Call} {duty : Duty} {program : Program V (Result V)}

theorem exists_birth (reached : (initial pool evaluation).run moves = some last)
    (found : last.threads[index]? = some ⟨.call call, program⟩) :
    Nonempty (Birth (initial pool evaluation) moves last index call) := by
  refine run_induction (motive := fun moves system => ∀ program,
    system.threads[index]? = some ⟨.call call, program⟩ →
      Nonempty (Birth (initial pool evaluation) moves system index call))
    (by simp [initial]) ?_ reached program found
  intro moves middle move next reached earlier stepped program found
  have transition := step_transition stepped
  rcases transition.thread found with ⟨old, -⟩ | ⟨new, silent, -⟩ | ⟨_, _, _, old, -, -⟩
  · obtain ⟨birth⟩ := earlier _ old
    exact ⟨birth.ahead stepped⟩
  · rw [silent] at transition
    cases transition with
    | call other =>
        have same : (System.asked middle other).threads[index]? = some ⟨.call call, program⟩ :=
          found
        rw [new, asked_getElem?] at same
        cases same
        exact ⟨moves, [], middle, rfl, reached, new.symm, rfl⟩
    | begin taken =>
        rw [new] at found
        simp [spawn, Thread.ofDuty] at found
    | _ =>
        have present := (List.getElem?_eq_some_iff.mp found).1
        simp only [new, Nat.lt_irrefl] at present
  · obtain ⟨birth⟩ := earlier _ old
    exact ⟨birth.ahead stepped⟩

/-- Whoever was there before a call that manages the service is through with that. -/
theorem Birth.through (birth : Birth (initial pool evaluation) moves last index call)
    (turns : (initial pool evaluation : System V).takesTurns moves = true)
    (manages : call.manages = true) (found : last.threads[before]? = some ⟨duty, program⟩)
    (also : duty.manages = true) (first : before < index) :
    ∃ result, birth.moment.threads[before]? = some ⟨duty, .done result⟩ := by
  have present : before < birth.moment.threads.length :=
    Nat.lt_of_lt_of_eq first birth.place.symm
  obtain ⟨⟨other, held⟩, there⟩ : ∃ thread, birth.moment.threads[before]? = some thread :=
    ⟨_, List.getElem?_eq_getElem present⟩
  obtain ⟨⟨same, latest⟩, later, rfl⟩ := duty_of_run birth.continued (birth.kept there)
  rw [found] at later
  cases later
  rw [birth.whole, takesTurns_append birth.reached, Bool.and_eq_true] at turns
  -- When the call was made, everybody who manages the service was through.
  have turn := turns.2
  simp only [takesTurns, mayBegin, manages, Bool.not_true, Bool.false_or, Bool.and_eq_true,
    unmanaged, List.all_eq_true] at turn
  have ended := turn.1 _ (List.mem_of_getElem? there)
  cases held with
  | done result => exact ⟨result, there⟩
  | step instruction rest => simp [also, Thread.result?] at ended

/-- What is done from a call on that manages the service is not done by those who managed it
before. -/
theorem Birth.since (birth : Birth (initial pool evaluation) moves last index call)
    (turns : (initial pool evaluation : System V).takesTurns moves = true)
    (manages : call.manages = true) {event : Event V}
    (happened : event ∈ (birth.moment.asked call).trace birth.late)
    (found : last.threads[event.thread]? = some ⟨duty, program⟩) (also : duty.manages = true) :
    index ≤ event.thread := by
  by_contra earlier
  obtain ⟨result, ended⟩ := birth.through turns manages found also (Nat.lt_of_not_le earlier)
  exact (ended_of_run (birth.kept ended) birth.continued).2 event happened rfl

theorem through_of_turns (reached : (initial pool evaluation).run moves = some last)
    (turns : (initial pool evaluation : System V).takesTurns moves = true)
    {other : Duty} {rest : Program V (Result V)}
    (found : last.threads[index]? = some ⟨duty, program⟩) (manages : duty.manages = true)
    (held : last.threads[before]? = some ⟨other, rest⟩) (also : other.manages = true)
    (first : before < index) : ∃ result, rest = .done result := by
  cases duty with
  | job => cases manages
  | call call =>
      obtain ⟨birth⟩ := exists_birth reached found
      obtain ⟨result, ended⟩ := birth.through turns manages held also first
      have still := (ended_of_run (birth.kept ended) birth.continued).1
      rw [held] at still
      cases still
      exact ⟨result, rfl⟩

/-- While somebody manages the service, all others who do are through. -/
theorem Cut.through {event : Event V} (cut : Cut (initial pool evaluation) moves last event)
    (turns : (initial pool evaluation : System V).takesTurns moves = true)
    {other : Duty} {rest : Program V (Result V)}
    (found : cut.moment.threads[event.thread]? = some ⟨duty, program⟩)
    (manages : duty.manages = true) (held : cut.moment.threads[before]? = some ⟨other, rest⟩)
    (also : other.manages = true) (different : before ≠ event.thread) :
    ∃ result, rest = .done result := by
  rw [cut.whole, takesTurns_append cut.reached, Bool.and_eq_true] at turns
  rcases Nat.lt_or_gt_of_ne different with first | late
  · exact through_of_turns cut.reached turns.1 found manages held also first
  · -- It has not come to its end, so nobody can have begun after it.
    obtain ⟨result, rfl⟩ := through_of_turns cut.reached turns.1 held also found manages late
    obtain ⟨-, _, _, goes⟩ := cut.transition.event
    rw [found] at goes
    cases goes

end Runs

end System

end Schematron.Engine

import Schematron.Proofs.Engine.Idleness
import Schematron.Proofs.Engine.Mirroring

/-!
Substitution: a call in place of another that does the same, and gives something else for what it
finds. Main statements: both go by the same moves from start to end, and the schedule takes them the
same way.
-/

namespace Schematron.Engine

variable {V α : Type}

namespace Program

def giving (program : Program V α) (give : α → Result V) : Program V (Result V) :=
  program.bind fun answer => .done (give answer)

def answer? : Program V α → Option α
  | done answer => some answer
  | step .. => none

variable (program : Program V α) (give other : α → Result V)

theorem result?_giving (duty : Duty) :
    (⟨duty, program.giving give⟩ : Thread V).result? = program.answer?.map give := by
  cases program <;> rfl

theorem head?_giving (duty mirror : Duty) : (⟨mirror, program.giving other⟩ : Thread V).head? =
    (⟨duty, program.giving give⟩ : Thread V).head? := by
  cases program <;> rfl

theorem done_of_giving {result : Result V} (ended : program.giving give = .done result) :
    ∃ answer, program = .done answer ∧ result = give answer := by
  cases program with
  | done answer =>
      cases ended
      exact ⟨answer, rfl, rfl⟩
  | step instruction rest => cases ended

end Program

namespace System

variable {system next last : System V} {index : Nat} {thread other : Thread V} {move : Move V}

theorem recast_recast : (system.recast index thread).recast index other =
    system.recast index other := by
  simp [recast]

theorem recast_self (found : system.threads[index]? = some thread) :
    system.recast index thread = system := by
  obtain ⟨present, rfl⟩ := List.getElem?_eq_some_iff.mp found
  simp [recast]

section Moves

variable {duty : Duty} {program : Program V α} {give : α → Result V} (mirror : Duty)
  (otherGive : α → Result V)

theorem substituted_step (found : system.threads[index]? = some ⟨duty, program.giving give⟩)
    (stepped : system.step move = some next) :
    ∃ later : Program V α, next.threads[index]? = some ⟨duty, later.giving give⟩ ∧
      (system.recast index ⟨mirror, program.giving otherGive⟩).step move =
        some (next.recast index ⟨mirror, later.giving otherGive⟩) := by
  rcases mirrored_step mirror (fun answer => .done (otherGive answer)) found stepped with
    ⟨answer, rfl, own⟩ | mirrors
  · cases move with
    | advance place | expire place | compiled place | ran place | called place =>
        cases own
        simp [step, goOn?, found, Program.giving, Program.bind] at stepped
    | _ => cases own
  · exact mirrors

theorem substituted_run {moves : List (Move V)}
    (found : system.threads[index]? = some ⟨duty, program.giving give⟩)
    (reached : system.run moves = some last) :
    ∃ later : Program V α, last.threads[index]? = some ⟨duty, later.giving give⟩ ∧
      (system.recast index ⟨mirror, program.giving otherGive⟩).run moves =
        some (last.recast index ⟨mirror, later.giving otherGive⟩) := by
  induction moves generalizing system program with
  | nil =>
      cases reached
      exact ⟨program, found, rfl⟩
  | cons move moves ih =>
      simp only [run, Option.bind_eq_bind, Option.bind_eq_some_iff] at reached
      obtain ⟨next, stepped, continued⟩ := reached
      obtain ⟨later, held, mirrors⟩ := substituted_step mirror otherGive found stepped
      obtain ⟨latest, ends, goes⟩ := ih held continued
      exact ⟨latest, ends, by simp [run, mirrors, goes]⟩

theorem substituted_stops (found : system.threads[index]? = some ⟨duty, program.giving give⟩)
    (stops : system.step move = none) :
    (system.recast index ⟨mirror, program.giving otherGive⟩).step move = none := by
  refine Option.eq_none_iff_forall_ne_some.mpr fun next stepped => ?_
  have present := (List.getElem?_eq_some_iff.mp found).1
  have mirrored : (system.recast index ⟨mirror, program.giving otherGive⟩).threads[index]? =
      some ⟨mirror, program.giving otherGive⟩ := recast_getElem?_self present
  obtain ⟨later, -, goes⟩ := substituted_step duty give mirrored stepped
  rw [recast_recast, recast_self found, stops] at goes
  cases goes

end Moves

def ComesTo (system : System V) (call : Call) (moves : List (Move V)) (state : State V)
    (result : Result V) : Prop :=
  ∃ last, (system.asked call).run moves = some last ∧ last.state = state ∧
    last.threads[system.threads.length]? = some ⟨.call call, .done result⟩

theorem ComesTo.unique {call : Call} {moves : List (Move V)} {state other : State V}
    {result also : Result V} (comes : system.ComesTo call moves state result)
    (again : system.ComesTo call moves other also) : also = result := by
  obtain ⟨last, reached, -, ended⟩ := comes
  obtain ⟨same, alike, -, found⟩ := again
  rw [reached] at alike
  cases alike
  rw [ended] at found
  cases found
  rfl

/-- Asked instead, a call that does the same comes to its own result by the same moves. -/
theorem ComesTo.substituted {call substitute : Call} {body : Program V α}
    {give otherGive : α → Result V} (first : call.program = body.giving give)
    (second : substitute.program = body.giving otherGive) {moves : List (Move V)} {state : State V}
    {result : Result V} (comes : system.ComesTo call moves state result) :
    ∃ answer, result = give answer ∧
      system.ComesTo substitute moves state (otherGive answer) := by
  obtain ⟨last, reached, left, ended⟩ := comes
  have found := system.asked_getElem? call
  rw [first] at found
  obtain ⟨later, held, mirrors⟩ := substituted_run (.call substitute) otherGive found reached
  rw [← second, recast_asked] at mirrors
  have present := (List.getElem?_eq_some_iff.mp held).1
  rw [held, Option.some.injEq, Thread.mk.injEq] at ended
  obtain ⟨answer, rfl, rfl⟩ := later.done_of_giving give ended.2
  exact ⟨answer, rfl, _, mirrors, left, recast_getElem?_self present⟩

/-! The schedule -/

theorem map_zipIdx_congr {β : Type} {items others : List α} {first second : α × Nat → β}
    (alike : ∀ index : Nat, (items[index]?).map (fun item => first (item, index)) =
      (others[index]?).map fun item => second (item, index)) :
    items.zipIdx.map first = others.zipIdx.map second := by
  refine List.ext_getElem? fun index => ?_
  simpa [Function.comp_def] using alike index

theorem find?_zipIdx_congr {items others : List α} {first second : α × Nat → Bool}
    (alike : ∀ index : Nat, (items[index]?).map (fun item => first (item, index)) =
      (others[index]?).map fun item => second (item, index)) :
    (items.zipIdx.find? first).map (·.2) = (others.zipIdx.find? second).map (·.2) := by
  have marks (list : List α) (wanted : α × Nat → Bool) :
      (list.zipIdx.find? wanted).map (·.2) =
        ((list.zipIdx.map fun item => (wanted item, item.2)).find? (·.1)).map (·.2) := by
    simp [List.find?_map, Function.comp_def]
  rw [marks items, marks others]
  refine congrArg (fun list : List (Bool × Nat) => (list.find? (·.1)).map (·.2))
    (map_zipIdx_congr fun index => ?_)
  have same := congrArg (Option.map fun mark => (mark, index)) (alike index)
  simpa [Function.comp_def] using same

def seen (thread : Thread V) : Bool × Option (Instruction V) := (thread.isJob, thread.head?)

theorem canAdvance_eq (system : System V) (index : Nat) : system.canAdvance index =
    ((system.threads[index]?).bind Thread.head?).any fun instruction =>
      (instruction.perform index system.state).isSome := by
  rw [Bool.eq_iff_iff, canAdvance_eq_true]
  cases found : system.threads[index]? with
  | none => simp
  | some thread =>
      obtain ⟨duty, program⟩ := thread
      cases program <;> simp [Thread.head?]

/-- The schedule chooses by the state and by what it sees of the threads. -/
theorem nextMove?_congr {world : World V} {first second : System V}
    (state : first.state = second.state)
    (threads : ∀ index : Nat,
      (first.threads[index]?).map seen = (second.threads[index]?).map seen) :
    first.nextMove? world = second.nextMove? world := by
  have heads (index : Nat) : (first.threads[index]?).bind Thread.head? =
      (second.threads[index]?).bind Thread.head? := by
    have same := congrArg (Option.bind · Prod.snd) (threads index)
    simpa [Option.bind_map, Function.comp_def, seen] using same
  have advances (index : Nat) : first.canAdvance index = second.canAdvance index := by
    rw [canAdvance_eq, canAdvance_eq, heads, state]
  have found (wanted : Bool → Bool) :
      (first.threads.zipIdx.find? fun item =>
        wanted item.1.isJob && first.canAdvance item.2).map (Move.advance ·.2) =
      (second.threads.zipIdx.find? fun item =>
        wanted item.1.isJob && second.canAdvance item.2).map (Move.advance (V := V) ·.2) := by
    have same : (first.threads.zipIdx.find? fun item =>
        wanted item.1.isJob && first.canAdvance item.2).map (·.2) =
        (second.threads.zipIdx.find? fun item =>
          wanted item.1.isJob && second.canAdvance item.2).map (·.2) := by
      refine find?_zipIdx_congr fun index => ?_
      have jobs := congrArg (Option.map fun seen => wanted seen.1 && second.canAdvance index)
        (threads index)
      simpa [Function.comp_def, seen, advances] using jobs
    simpa [Function.comp_def] using congrArg (Option.map Move.advance) same
  have workers : first.workerMove? = second.workerMove? := by
    have begins : first.beginMove? = second.beginMove? := by rw [beginMove?, beginMove?, state]
    simp only [workerMove?, begins, state]
    split
    · rfl
    · split
      · rfl
      · exact found id
  have callers : first.callerMove? = second.callerMove? := found not
  have asked : first.requests = second.requests := by
    have requested (index : Nat) : (first.threads[index]?).map Thread.request? =
        (second.threads[index]?).map Thread.request? := by
      have same := threads index
      cases here : first.threads[index]? <;> cases there : second.threads[index]? <;>
        simp_all [seen, Thread.request?]
    have collects (list : List (Thread V)) :
        (list.zipIdx.filterMap fun item => item.1.request?.map fun request => (item.2, request)) =
        (list.zipIdx.map fun item =>
          item.1.request?.map fun request => (item.2, request)).filterMap id := by
      simp [List.filterMap_map]
    refine (collects first.threads).trans (Eq.trans ?_ (collects second.threads).symm)
    refine congrArg (List.filterMap id) (map_zipIdx_congr fun index => ?_)
    have same := congrArg (Option.map (Option.map fun request => (index, request)))
      (requested index)
    simpa [Function.comp_def] using same
  rw [nextMove?, nextMove?, workers, callers, asked]

section Schedule

variable (world : World V) {call : Call} {program : Program V α} {give : α → Result V}
  (substitute : Call) (otherGive : α → Result V)

theorem substituted_nextMove?
    (found : system.threads[index]? = some ⟨.call call, program.giving give⟩) :
    (system.recast index ⟨.call substitute, program.giving otherGive⟩).nextMove? world =
      system.nextMove? world := by
  refine nextMove?_congr rfl fun place => ?_
  have present := (List.getElem?_eq_some_iff.mp found).1
  by_cases same : index = place
  · subst same
    rw [recast_getElem?_self present, found]
    simp [seen, Thread.isJob, program.head?_giving give otherGive (.call call)]
  · simp [recast, List.getElem?_set_ne same]

theorem substituted_settle
    (found : system.threads[index]? = some ⟨.call call, program.giving give⟩) (fuel : Nat) :
    ∃ later : Program V α,
      (system.settle world fuel).threads[index]? = some ⟨.call call, later.giving give⟩ ∧
      (system.recast index ⟨.call substitute, program.giving otherGive⟩).settle world fuel =
        (system.settle world fuel).recast index ⟨.call substitute, later.giving otherGive⟩ := by
  induction fuel generalizing system program with
  | zero => exact ⟨program, found, rfl⟩
  | succ fuel ih =>
      have chosen := substituted_nextMove? world substitute otherGive found
      simp only [settle, chosen]
      cases made : (system.nextMove? world).bind system.step with
      | none =>
          cases move : system.nextMove? world with
          | none => exact ⟨program, found, rfl⟩
          | some move =>
              rw [move, Option.bind_some] at made
              simp only [Option.bind_some, substituted_stops _ otherGive found made]
              exact ⟨program, found, rfl⟩
      | some next =>
          obtain ⟨move, same, stepped⟩ := Option.bind_eq_some_iff.mp made
          obtain ⟨later, held, mirrors⟩ :=
            substituted_step (.call substitute) otherGive found stepped
          obtain ⟨latest, ends, goes⟩ := ih held
          simp only [same, Option.bind_some, mirrors]
          exact ⟨latest, ends, goes⟩

theorem substituted_finish
    (found : system.threads[index]? = some ⟨.call call, program.giving give⟩) (fuel rounds : Nat) :
    ∃ later : Program V α,
      (system.finish world fuel index rounds).threads[index]? =
        some ⟨.call call, later.giving give⟩ ∧
      (system.recast index ⟨.call substitute, program.giving otherGive⟩).finish world fuel index
          rounds =
        (system.finish world fuel index rounds).recast index
          ⟨.call substitute, later.giving otherGive⟩ := by
  induction rounds generalizing system program with
  | zero => exact ⟨program, found, rfl⟩
  | succ rounds ih =>
      obtain ⟨later, held, settles⟩ :=
        substituted_settle world substitute otherGive found fuel
      have present := (List.getElem?_eq_some_iff.mp held).1
      simp only [finish, settles]
      have results : (system.settle world fuel).result? index = later.answer?.map give := by
        rw [result?, held, Option.bind_some, Program.result?_giving]
      have others : ((system.settle world fuel).recast index
          ⟨.call substitute, later.giving otherGive⟩).result? index =
            later.answer?.map otherGive := by
        rw [result?, recast_getElem?_self present, Option.bind_some, Program.result?_giving]
      rw [results, others]
      cases later.answer? with
      | some answer => exact ⟨later, held, rfl⟩
      | none =>
          simp only [Option.map_none]
          cases stepped : (system.settle world fuel).step (.expire index) with
          | none =>
              rw [substituted_stops _ otherGive held stepped]
              exact ⟨later, held, rfl⟩
          | some next =>
              obtain ⟨latest, ends, mirrors⟩ :=
                substituted_step (.call substitute) otherGive held stepped
              rw [mirrors]
              exact ih ends

/-- A call from start to end, and another in its place. -/
theorem perform_substituted {body : Program V α} (first : call.program = body.giving give)
    (second : substitute.program = body.giving otherGive) :
    ∃ answer : Option α, (system.perform world call).1 = answer.map give ∧
      (system.perform world substitute).1 = answer.map otherGive ∧
      (system.perform world substitute).2.state = (system.perform world call).2.state := by
  have found := system.asked_getElem? call
  rw [first] at found
  obtain ⟨later, held, finishes⟩ :=
    substituted_finish world substitute otherGive found enough enough
  rw [← second, recast_asked] at finishes
  have present := (List.getElem?_eq_some_iff.mp held).1
  refine ⟨later.answer?, ?_, ?_, ?_⟩
  · change ((system.asked call).finish world enough system.threads.length enough).result? _ = _
    rw [result?, held, Option.bind_some, Program.result?_giving]
  · change ((system.asked substitute).finish world enough system.threads.length enough).result? _
      = _
    rw [finishes, result?, recast_getElem?_self present, Option.bind_some,
      Program.result?_giving]
  · change ((system.asked substitute).finish world enough system.threads.length enough).state = _
    rw [finishes]
    rfl

end Schedule

end System

end Schematron.Engine

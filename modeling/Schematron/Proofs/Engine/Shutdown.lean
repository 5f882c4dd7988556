import Schematron.Proofs.Engine.Scheduling

/-!
Shutdown: what becomes of the handles of a pool that is stopped. Main statement: whoever has stopped
the pool leaves nothing unresolved that was handed in before, and touches nothing that came later.
-/

namespace Schematron.Engine

open Program

variable {V α : Type}

/-! What stops the pool -/

def Instruction.IsPoolless : Instruction V → Prop
  | .openPool => False
  | .closePool => False
  | .abandon _ => False
  | .drain _ => False
  | _ => True

theorem Instruction.Tends.isPoolless {permitted : Outcome V → Prop} (instruction : Instruction V)
    (tends : instruction.Tends permitted) : instruction.IsPoolless := by
  cases instruction with
  | resolve | register | note | call => trivial
  | _ => exact tends.elim

theorem Instruction.Evaluates.isPoolless (instruction : Instruction V)
    (evaluates : instruction.Evaluates) : instruction.IsPoolless := by
  cases instruction with
  | evaluation | await | run | snapshot | note => trivial
  | _ => exact evaluates.elim

theorem Instruction.Configures.isPoolless (instruction : Instruction V)
    (configures : instruction.Configures) : instruction.IsPoolless := by
  cases instruction with
  | openPool | closePool | abandon | drain => exact configures.elim
  | _ => trivial

def Call.handlesPool : Call → Bool
  | start => true
  | shutdown _ => true
  | openService ownsPool .. => ownsPool
  | closeService ownsPool => ownsPool
  | _ => false

theorem close_isPoolless : (close : Program V Unit).Uses Instruction.IsPoolless := by
  refine (uses_send .snapshot trivial).bind fun generation => ?_
  refine Uses.bind ?_ fun _ => uses_pure ()
  exact (resolveAll_uses .cancelled generation.handles).mono Instruction.Tends.isPoolless

theorem configure_isPoolless (surroundings : Surroundings) (base : Option String)
    (locations : List RuleLocation) :
    (configure surroundings base locations : Program V _).Uses Instruction.IsPoolless :=
  (configure_uses surroundings base locations).mono Instruction.Configures.isPoolless

theorem openService_isPoolless (surroundings : Surroundings) (base : Option String)
    (locations : List RuleLocation) :
    (openService false surroundings base locations : Program V _).Uses Instruction.IsPoolless := by
  refine (configure_isPoolless surroundings base locations).bind fun found => ?_
  cases found with
  | ok number => exact uses_pure _
  | error failure => exact uses_pure _

theorem call_isPoolless {call : Call} (elsewhere : call.handlesPool = false) :
    (call.program : Program V (Result V)).Uses Instruction.IsPoolless := by
  cases call with
  | start | shutdown => cases elsewhere
  | create source generation =>
      exact (uses_send (.create source generation) trivial).bind fun _ => uses_pure _
  | submit source generation =>
      exact (uses_send (.submit source generation) trivial).bind fun _ => uses_pure _
  | cancel handle isSuperseded =>
      refine Uses.bind ?_ fun _ => uses_pure _
      exact (resolve_uses handle _).mono Instruction.Tends.isPoolless
  | onDone handle callback =>
      refine ((onDone_uses handle callback).mono Instruction.Tends.isPoolless).bind fun raised => ?_
      cases raised <;> exact uses_pure _
  | await handle limit =>
      exact (uses_send (.await handle limit) trivial).bind fun _ => uses_pure _
  | configure surroundings base locations =>
      exact (configure_isPoolless surroundings base locations).bind fun _ => uses_pure _
  | close => exact close_isPoolless.bind fun _ => uses_pure _
  | snapshot => exact (uses_send .snapshot trivial).bind fun _ => uses_pure _
  | evaluate document =>
      exact ((evaluate_uses document).mono Instruction.Evaluates.isPoolless).bind
        fun _ => uses_pure _
  | validate document suppresses =>
      exact ((validate_uses document suppresses).mono Instruction.Evaluates.isPoolless).bind
        fun _ => uses_pure _
  | reportOnly document =>
      exact ((reportOnly_uses document).mono Instruction.Evaluates.isPoolless).bind
        fun _ => uses_pure _
  | openService ownsPool surroundings base locations =>
      cases elsewhere
      exact (openService_isPoolless surroundings base locations).bind fun _ => uses_pure _
  | closeService ownsPool =>
      cases elsewhere
      exact (close_isPoolless.bind fun _ => uses_pure ()).bind fun _ => uses_pure _

theorem job_isPoolless (executor : Nat) (handle : Handle) :
    ((Duty.job executor handle).program : Program V (Result V)).Uses Instruction.IsPoolless := by
  refine Uses.bind ?_ fun _ => uses_pure _
  refine ((work_uses executor handle).mono fun instruction compiles => ?_).bind fun _ =>
    uses_send (.retire executor handle) trivial
  cases instruction with
  | enter | compile | resolve | note | call => trivial
  | _ => exact compiles.elim

def Duty.handlesPool : Duty → Bool
  | .call request => request.handlesPool
  | .job .. => false

theorem duty_isPoolless {duty : Duty} (elsewhere : duty.handlesPool = false) :
    (duty.program : Program V (Result V)).Uses Instruction.IsPoolless := by
  cases duty with
  | call call => exact call_isPoolless elsewhere
  | job executor handle => exact job_isPoolless executor handle

def Exchange.closed? : Exchange V → Option (Option Nat × List Handle)
  | ⟨.closePool, closed⟩ => some closed
  | _ => none

def closedIn (past : List (Exchange V)) : List (Option Nat × List Handle) :=
  past.filterMap Exchange.closed?

@[simp] theorem closedIn_nil : closedIn ([] : List (Exchange V)) = [] := rfl

@[simp] theorem closedIn_append (first second : List (Exchange V)) :
    closedIn (first ++ second) = closedIn first ++ closedIn second := by
  simp [closedIn]

theorem mem_closedIn {past : List (Exchange V)} {closed : Option Nat × List Handle} :
    closed ∈ closedIn past ↔ ⟨.closePool, closed⟩ ∈ past := by
  simp only [closedIn, List.mem_filterMap]
  constructor
  · rintro ⟨⟨instruction, reply⟩, member, closes⟩
    cases instruction with
    | closePool =>
        cases closes
        exact member
    | _ => cases closes
  · intro member
    exact ⟨_, member, rfl⟩

theorem closedIn_concat {past : List (Exchange V)} {instruction : Instruction V}
    (other : instruction ≠ .closePool) (reply : instruction.Reply) :
    closedIn (past ++ [⟨instruction, reply⟩]) = closedIn past := by
  rw [closedIn_append]
  cases instruction with
  | closePool => exact absurd rfl other
  | _ => exact List.append_nil _

-- Whoever has stopped the pool withdraws nothing but what it was given, and sends nobody home
-- but the workers of the executor that it has found.
def stopRule : Rule V := fun past instruction => ∀ closed ∈ closedIn past,
  match instruction with
  | .resolve handle outcome => handle ∈ closed.2 ∧ outcome = .cancelled
  | .abandon executor => closed.1 = some executor
  | .closePool => False
  | _ => True

/-- Before that it may do what it likes. -/
theorem Program.Uses.unstopped {program : Program V α} (uses : program.Uses (· ≠ .closePool))
    {past : List (Exchange V)} (unstopped : closedIn past = []) :
    program.Keeps stopRule (fun later _ => closedIn later = []) past := by
  refine uses.keeps (fun later instruction _ nothing => ?_)
    (fun later instruction reply other nothing => ?_) unstopped
  · intro closed member
    rw [nothing] at member
    cases member
  · rw [closedIn_concat other reply, nothing]

theorem Instruction.IsPoolless.ne_closePool (instruction : Instruction V)
    (poolless : instruction.IsPoolless) : instruction ≠ .closePool := by
  rintro rfl
  exact poolless

theorem resolveAll_stops (closed : Option Nat × List Handle) {past : List (Exchange V)}
    (stopped : closedIn past = [closed]) :
    (resolveAll .cancelled closed.2).Keeps stopRule (fun later _ => closedIn later = [closed])
      past := by
  refine (resolveAll_settles .cancelled fun _ member => member).keeps
    (fun later instruction settles only => ?_) (fun later instruction reply settles only => ?_)
    stopped
  · intro other member
    rw [only, List.mem_singleton] at member
    subst other
    cases instruction with
    | resolve => exact settles
    | note | call => trivial
    | _ => exact settles.elim
  · rw [closedIn_concat _ reply, only]
    rintro rfl
    exact settles

theorem shutdown_stops (waits : Bool) {past : List (Exchange V)} (unstopped : closedIn past = []) :
    (shutdown waits : Program V Unit).Keeps stopRule
      (fun later _ => ∃ closed, closedIn later = [closed]) past := by
  have allowed : stopRule past .closePool := by
    intro closed member
    rw [unstopped] at member
    cases member
  simp only [shutdown, keeps_bind]
  refine ⟨allowed, fun closed _ => ?_⟩
  have stopped : closedIn (past ++ [⟨.closePool, closed⟩]) = [closed] := by
    rw [closedIn_append, unstopped]
    rfl
  refine (resolveAll_stops closed stopped).mono fun later _ stopped => ?_
  obtain ⟨executor, outstanding⟩ := closed
  cases executor with
  | none => exact ⟨_, stopped⟩
  | some executor =>
      refine ⟨fun other member => ?_, fun reply _ => ?_⟩
      · rw [stopped, List.mem_singleton] at member
        exact member ▸ rfl
      have abandoned : closedIn (later ++ [⟨.abandon executor, reply⟩]) =
          [(some executor, outstanding)] := by
        rw [closedIn_concat (by simp), stopped]
      cases waits with
      | false => exact ⟨_, abandoned⟩
      | true =>
          refine ⟨fun _ _ => trivial, fun reply _ => ⟨(some executor, outstanding), ?_⟩⟩
          rw [closedIn_concat (by simp), abandoned]

theorem openService_stops (ownsPool : Bool) (surroundings : Surroundings) (base : Option String)
    (locations : List RuleLocation) :
    (openService ownsPool surroundings base locations : Program V _).Keeps stopRule
      (fun _ _ => True) [] := by
  cases ownsPool with
  | false =>
      have uses := (openService_isPoolless (V := V) surroundings base locations).mono
        Instruction.IsPoolless.ne_closePool
      exact (uses.unstopped rfl).mono fun _ _ _ => trivial
  | true =>
      have opens : (Engine.start : Program V Unit).Uses (· ≠ .closePool) :=
        uses_send .openPool (by simp)
      have configures := (configure_isPoolless (V := V) surroundings base locations).mono
        Instruction.IsPoolless.ne_closePool
      simp only [openService, if_true, keeps_bind]
      refine (opens.unstopped rfl).mono fun past _ unstopped => ?_
      refine (configures.unstopped unstopped).mono fun later found unstopped => ?_
      cases found with
      | ok number => trivial
      | error failure =>
          rw [keeps_bind]
          exact (shutdown_stops true unstopped).mono fun _ _ _ => trivial

theorem closeService_stops (ownsPool : Bool) :
    (closeService ownsPool : Program V Unit).Keeps stopRule (fun _ _ => True) [] := by
  have closes := close_isPoolless (V := V).mono Instruction.IsPoolless.ne_closePool
  simp only [closeService, keeps_bind]
  refine (closes.unstopped rfl).mono fun past _ unstopped => ?_
  cases ownsPool with
  | false => trivial
  | true => exact (shutdown_stops true unstopped).mono fun _ _ _ => trivial

theorem duty_stops (duty : Duty) :
    (duty.program : Program V (Result V)).Keeps stopRule (fun _ _ => True) [] := by
  cases handles : duty.handlesPool with
  | false =>
      have uses := (duty_isPoolless (V := V) handles).mono Instruction.IsPoolless.ne_closePool
      exact (uses.unstopped rfl).mono fun _ _ _ => trivial
  | true =>
      cases duty with
      | job => cases handles
      | call call =>
          cases call with
          | start => exact ⟨fun _ member => absurd member List.not_mem_nil, fun _ _ => trivial⟩
          | shutdown waits =>
              simp only [Duty.program, Call.program, keeps_bind]
              exact (shutdown_stops waits rfl).mono fun _ _ _ => trivial
          | openService ownsPool surroundings base locations =>
              simp only [Duty.program, Call.program, keeps_bind]
              exact openService_stops ownsPool surroundings base locations
          | closeService ownsPool =>
              simp only [Duty.program, Call.program, keeps_bind]
              exact closeService_stops ownsPool
          | _ => cases handles

/-! A pool that is stopped -/

/-- A pool that does not run makes nothing for a submission, and queues nothing. -/
theorem State.submit_stopped {state : State V} (stopped : state.pool.isRunning = false)
    (source : RuleSource) (generation : Int) :
    ∃ message quota, state.submit source generation =
        (.error (.poolNotRunning message), { state with pool.quota := quota }) ∧
      (state.pool.quota ≠ some 0 → message = "Compilation pool is not running") := by
  have current : state.pool.current = none := by
    simpa [Pool.isRunning] using stopped
  by_cases refused : state.pool.quota = some 0
  · refine ⟨"submission refused", state.pool.quota, ?_, fun accepted => absurd refused accepted⟩
    simp only [State.submit, if_pos refused]
  · refine ⟨_, state.pool.quota.map (· - 1), ?_, fun _ => rfl⟩
    simp only [State.submit, if_neg refused, current]

namespace System

section Runs

variable {workers : Int} {pool : Pool} {evaluation : Evaluation} {moves : List (Move V)}
  {last : System V} {index : Nat} {closed : Option Nat × List Handle}

theorem late_keeps (cut : Cut (initial pool evaluation) moves last ⟨index, .closePool, closed⟩)
    {exchange : Exchange V}
    (later : exchange ∈ exchangesOf index (cut.next.trace cut.late)) :
    match exchange.instruction with
    | .resolve handle outcome => handle ∈ closed.2 ∧ outcome = .cancelled
    | .abandon executor => closed.1 = some executor
    | .closePool => False
    | _ => True := by
  obtain ⟨before, after, split⟩ := List.append_of_mem later
  have own := cut.own
  rw [split, ← List.cons_append, ← List.append_assoc] at own
  obtain ⟨moment, earlier, -⟩ := exists_cut cut.ends own
  obtain ⟨-, -, -, rule⟩ := keeper_of_cut duty_stops moment
  refine rule closed ?_
  rw [earlier, mem_closedIn]
  exact List.mem_append_right _ List.mem_cons_self

structure Stops (cut : Cut (initial pool evaluation) moves last ⟨index, .closePool, closed⟩) :
    Prop where
  terminal : ∀ handle ∈ submittedIn (exchanges ((initial pool evaluation).trace cut.early)),
    (last.state.condition handle).isResolved = true
  kept : ∀ handle outcome, cut.moment.state.condition handle = .resolved outcome →
    last.state.condition handle = .resolved outcome
  -- What is unfinished is cancelled, unless somebody else was first to supersede it, or its
  -- worker to come to an end with it.
  withdrawn : ∀ handle ∈ submittedIn (exchanges ((initial pool evaluation).trace cut.early)),
    (cut.moment.state.condition handle).isResolved = false →
    last.state.condition handle = .resolved .cancelled ∨
    ∃ outcome, last.state.condition handle = .resolved outcome ∧
      (outcome = .superseded ∨ ∃ result,
        compiledIn handle (exchanges ((initial pool evaluation).trace moves)) = [result] ∧
        Outcome.ofCompiled handle result = some outcome) ∧
      ∃ event ∈ cut.next.trace cut.late, event.thread ≠ index ∧
        event.exchange.resolution? handle = some outcome
  -- Nothing is withdrawn that was handed in later.
  spared : ∀ handle ∈ submittedIn (exchanges (cut.next.trace cut.late)),
    ∀ exchange ∈ exchangesOf index (cut.next.trace cut.late), exchange.resolution? handle = none
  abandoned : ∀ executor, ⟨index, .abandon executor, ()⟩ ∈ cut.next.trace cut.late →
    cut.moment.state.pool.current = some executor

section Cuts

variable (cut : Cut (initial pool evaluation) moves last ⟨index, .closePool, closed⟩)

theorem Cut.given (cut : Cut (initial pool evaluation) moves last ⟨index, .closePool, closed⟩)
    (created : Pool.create? workers = .ok pool) {handle : Handle}
    (submitted : handle ∈ submittedIn (exchanges ((initial pool evaluation).trace cut.early)))
    (unresolved : (cut.moment.state.condition handle).isResolved = false) : handle ∈ closed.2 := by
  rw [← (served_of_run created cut.reached).submitted] at submitted
  rw [cut.answer.closed]
  exact List.mem_filter.mpr ⟨submitted, by simp [unresolved]⟩

theorem Cut.knows {event : Event V} (cut : Cut (initial pool evaluation) moves last event)
    (created : Pool.create? workers = .ok pool) {handle : Handle}
    (submitted : handle ∈ submittedIn (exchanges ((initial pool evaluation).trace cut.early))) :
    cut.moment.state.Knows handle :=
  (sound_of_run created cut.reached).knows ((submittedIn_sublist_madeIn _).subset submitted)

theorem terminal_of_stopped (created : Pool.create? workers = .ok pool) {closes : Bool}
    (discharged : Discharged closes (exchangesOf index ((initial pool evaluation).trace moves)))
    {handle : Handle}
    (submitted : handle ∈ submittedIn (exchanges ((initial pool evaluation).trace cut.early))) :
    (last.state.condition handle).isResolved = true := by
  cases before : (cut.moment.state.condition handle).isResolved with
  | true => exact isResolved_of_run cut.rest before
  | false =>
      have given := cut.given created submitted before
      refine resolved_of_stopped created cut.ends discharged ?_ given
      rw [cut.trace]
      exact List.mem_append_right _ List.mem_cons_self

theorem withdrawn_of_stopped (created : Pool.create? workers = .ok pool) {handle : Handle}
    (submitted : handle ∈ submittedIn (exchanges ((initial pool evaluation).trace cut.early)))
    (unresolved : (cut.moment.state.condition handle).isResolved = false)
    (terminal : (last.state.condition handle).isResolved = true) :
    last.state.condition handle = .resolved .cancelled ∨
    ∃ outcome, last.state.condition handle = .resolved outcome ∧
      (outcome = .superseded ∨ ∃ result,
        compiledIn handle (exchanges ((initial pool evaluation).trace moves)) = [result] ∧
        Outcome.ofCompiled handle result = some outcome) ∧
      ∃ event ∈ cut.next.trace cut.late, event.thread ≠ index ∧
        event.exchange.resolution? handle = some outcome := by
  obtain ⟨outcome, resolved⟩ := Condition.isResolved_iff.mp terminal
  have known := cut.knows created submitted
  obtain ⟨event, happened, gives⟩ := given_of_run known cut.rest unresolved resolved
  rw [cut.rest_trace] at happened
  have later : event ∈ cut.next.trace cut.late := by
    rcases List.mem_cons.mp happened with rfl | later
    · cases gives
    · exact later
  by_cases own : event.thread = index
  · -- The thread itself gives nothing but a cancellation.
    obtain ⟨thread, instruction, reply⟩ := event
    simp only at own
    subst own
    have keeps := late_keeps cut (mem_exchangesOf.mpr later)
    cases instruction with
    | resolve target given =>
        cases reply with
        | none => cases gives
        | some callbacks =>
            simp only [Exchange.resolution?, Option.ite_none_right_eq_some,
              Option.some.injEq] at gives
            rw [resolved, ← gives.2, keeps.2]
            exact .inl rfl
    | _ => cases gives
  · have made : handle ∈ madeIn (exchanges ((initial pool evaluation).trace moves)) := by
      rw [cut.trace, exchanges_append, madeIn_append]
      exact List.mem_append_left _ ((submittedIn_sublist_madeIn _).subset submitted)
    have other : ∃ event ∈ cut.next.trace cut.late, event.thread ≠ index ∧
        event.exchange.resolution? handle = some outcome := ⟨event, later, own, gives⟩
    rcases (sound_of_run created cut.ends).ended handle made outcome resolved with
      ⟨isSuperseded, rfl⟩ | ⟨result, compiled, came⟩
    · cases isSuperseded with
      | false => exact .inl resolved
      | true => exact .inr ⟨_, resolved, .inl rfl, other⟩
    · exact .inr ⟨outcome, resolved, .inr ⟨result, compiled, came⟩, other⟩

theorem spared_of_stopped (created : Pool.create? workers = .ok pool) {handle : Handle}
    (submitted : handle ∈ submittedIn (exchanges (cut.next.trace cut.late)))
    {exchange : Exchange V} (later : exchange ∈ exchangesOf index (cut.next.trace cut.late)) :
    exchange.resolution? handle = none := by
  have keeps := late_keeps cut later
  obtain ⟨instruction, reply⟩ := exchange
  cases instruction with
  | resolve target outcome =>
      cases reply with
      | none => rfl
      | some callbacks =>
          refine if_neg fun same => ?_
          have given := keeps.1
          rw [cut.answer.closed] at given
          have before := (List.mem_filter.mp given).1
          rw [(served_of_run created cut.reached).submitted] at before
          -- Nothing is handed in twice.
          have distinct := (sound_of_run created cut.ends).nodup (submittedIn_sublist_madeIn _)
          rw [cut.trace, exchanges_append, submittedIn_append, List.map_append] at distinct
          have apart := (List.nodup_append.mp distinct).2.2
          refine apart target.id (List.mem_map_of_mem before) handle.id ?_ same
          exact List.mem_map_of_mem submitted
  | _ => rfl

theorem stops_of_cut (created : Pool.create? workers = .ok pool) {closes : Bool}
    (discharged : Discharged closes (exchangesOf index ((initial pool evaluation).trace moves))) :
    Stops cut := by
  have terminal (handle : Handle)
      (submitted : handle ∈ submittedIn (exchanges ((initial pool evaluation).trace cut.early))) :=
    terminal_of_stopped cut created discharged submitted
  constructor
  case terminal => exact terminal
  case kept =>
    intro handle outcome resolved
    exact (resolved_of_run cut.rest resolved).1
  case withdrawn =>
    intro handle submitted unresolved
    exact withdrawn_of_stopped cut created submitted unresolved (terminal handle submitted)
  case spared =>
    intro handle submitted exchange later
    exact spared_of_stopped cut created submitted later
  case abandoned =>
    intro executor happened
    have keeps := late_keeps cut (mem_exchangesOf.mpr happened)
    rw [cut.answer.closed] at keeps
    exact keeps

end Cuts

/-- How a pool fares whose calls may stop it at any time. -/
structure ShutsDown (pool : Pool) (evaluation : Evaluation) (moves : List (Move V))
    (last : System V) : Prop where
  returned : ∀ index waits result,
    last.threads[index]? = some ⟨.call (.shutdown waits), .done result⟩ →
    ∃ closed, ∃ cut : Cut (initial pool evaluation) moves last ⟨index, .closePool, closed⟩,
      Stops cut
  stops : ∀ index duty result closed
    (cut : Cut (initial pool evaluation) moves last ⟨index, .closePool, closed⟩),
    last.threads[index]? = some ⟨duty, .done result⟩ → Stops cut
  terminal : last.state.pool.isRunning = false →
    (∀ index closed, ⟨index, .closePool, closed⟩ ∈ (initial pool evaluation).trace moves →
      ∃ duty result, last.threads[index]? = some ⟨duty, .done result⟩) →
    ∀ handle ∈ submittedIn (exchanges ((initial pool evaluation).trace moves)),
      (last.state.condition handle).isResolved = true
  refused : last.state.pool.isRunning = false → ∀ index duty source generation rest,
    last.threads[index]? = some ⟨duty, .step (.submit source generation) rest⟩ →
    ∃ message quota,
      (last.state.pool.quota ≠ some 0 → message = "Compilation pool is not running") ∧
      last.step (.advance index) = some (last.goOn index { last.state with pool.quota := quota }
        (rest (.error (.poolNotRunning message))))
  raised : last.state.pool.isRunning = false → ∀ source generation, ∃ message quota,
    (last.state.pool.quota ≠ some 0 → message = "Compilation pool is not running") ∧
      last.run [.call (.submit source generation), .advance last.threads.length] =
        some ⟨{ last.state with pool.quota := quota }, last.threads ++
          [⟨.call (.submit source generation), .done (.error (.poolNotRunning message))⟩]⟩

/-- Whatever else happens, a pool that is stopped leaves no handle unresolved. -/
theorem shutdown_leaves_nothing (created : Pool.create? workers = .ok pool)
    (reached : (initial pool evaluation : System V).run moves = some last) :
    ShutsDown pool evaluation moves last := by
  have discharged {index : Nat} {duty : Duty} {result : Result V}
      (found : last.threads[index]? = some ⟨duty, .done result⟩) :
      Discharged duty.closes
        (exchangesOf index ((initial pool evaluation : System V).trace moves)) :=
    (thread_keeps reached found (duty_tidies duty)).discharged
  constructor
  case returned =>
    intro index waits result found
    have keeps : ((Call.shutdown waits).program : Program V (Result V)).Keeps stopRule
        (fun later _ => ∃ closed, closedIn later = [closed]) [] := by
      simp only [Call.program, keeps_bind]
      exact shutdown_stops waits rfl
    obtain ⟨closed, stopped⟩ := thread_keeps reached found keeps
    have happened := mem_closedIn.mp (stopped ▸ List.mem_singleton_self closed)
    obtain ⟨cut⟩ := cut_of_mem reached (mem_exchangesOf.mp happened)
    exact ⟨closed, cut, stops_of_cut cut created (discharged found)⟩
  case stops =>
    intro index duty result closed cut found
    exact stops_of_cut cut created (discharged found)
  case terminal =>
    intro stopped finished handle submitted
    have served := served_of_run created reached
    by_contra unresolved
    rw [Bool.not_eq_true] at unresolved
    rcases served.kept handle (served.submitted ▸ submitted) unresolved with
      ⟨thread, closed, happened, given⟩ | ⟨executor, found, serves, -⟩
    · obtain ⟨duty, result, found⟩ := finished thread closed happened
      rw [resolved_of_stopped created reached (discharged found) happened given] at unresolved
      cases unresolved
    · simp [Pool.isRunning, serves] at stopped
  case refused =>
    intro stopped index duty source generation rest found
    obtain ⟨message, quota, refuses, worded⟩ := State.submit_stopped stopped source generation
    refine ⟨message, quota, worded, ?_⟩
    exact step_of_perform found (congrArg some refuses)
  case raised =>
    intro stopped source generation
    obtain ⟨message, quota, refuses, worded⟩ := State.submit_stopped stopped source generation
    refine ⟨message, quota, worded, ?_⟩
    have begins : (Call.submit source generation).program = (.step (.submit source generation)
        fun found => .done (found.map .handle) : Program V (Result V)) := rfl
    exact run_call begins (congrArg some refuses) rfl

def stopping : List (Move Unit) :=
  -- A pool is stopped while a worker is inside a compilation, started again, and stopped for
  -- good.
  [.call .start, .advance 0, .call (.submit default 1), .advance 1, .take 0,
    .begin 0 ⟨0, default, 1⟩, .advance 2, .call (.shutdown true), .advance 3, .call .start, .advance 4,
    .call (.submit default 2), .advance 5, .advance 3, .advance 3,
    .compiled 2 (.ok ()) [], .advance 2, .advance 2, .advance 3,
    .call (.shutdown false), .advance 6, .advance 6, .advance 6]

theorem stopped_leaves_nothing :
    ∃ pool last, Pool.create? 1 = .ok pool ∧
      (initial pool ⟨none, .unlimited⟩).run stopping = some last ∧
      ShutsDown pool ⟨none, .unlimited⟩ stopping last ∧
      last.state.pool.isRunning = false ∧
      last.threads[3]? = some ⟨.call (.shutdown true), .done (.ok .nothing)⟩ ∧
      last.state.condition ⟨0, default, 1⟩ = .resolved .cancelled ∧
      last.state.condition ⟨1, default, 2⟩ = .resolved .cancelled :=
  ⟨_, _, rfl, rfl, shutdown_leaves_nothing (rfl : Pool.create? 1 = _) rfl, rfl, rfl, rfl, rfl⟩

end Runs

end System

end Schematron.Engine

import Schematron.Proofs.Engine.Settling
import Schematron.Proofs.Sequence

/-!
Serving: what one move does to the pool. Main statement: a move hands in a job, opens or closes the
pool, empties an executor that was taken out of service, or takes, begins or ends one job.
-/

namespace Schematron.Engine

open Program

variable {V α β : Type}

/-! Jobs -/

def Thread.begun? (executor : Nat) (thread : Thread V) : Option Handle :=
  match thread.duty with
  | .job place handle => if place = executor then some handle else none
  | .call _ => none

def Thread.working? (executor : Nat) (thread : Thread V) : Option Handle :=
  match thread.program with
  | .done _ => none
  | .step .. => thread.begun? executor

def Thread.compiling? (executor : Nat) (thread : Thread V) : Option Handle :=
  match thread.head? with
  | some (.compile _) => thread.begun? executor
  | _ => none

theorem Thread.working?_call (executor : Nat) (call : Call) (program : Program V (Result V)) :
    Thread.working? executor ⟨.call call, program⟩ = none := by
  cases program <;> rfl

namespace System

def begun (system : System V) (executor : Nat) : List Handle :=
  system.threads.filterMap (Thread.begun? executor)

def working (system : System V) (executor : Nat) : List Handle :=
  system.threads.filterMap (Thread.working? executor)

def compiling (system : System V) (executor : Nat) : List Handle :=
  system.threads.filterMap (Thread.compiling? executor)

theorem working_sublist_begun (system : System V) (executor : Nat) :
    (system.working executor).Sublist (system.begun executor) := by
  refine filterMap_sublist_filterMap (fun thread handle working => ?_) _
  obtain ⟨duty, program⟩ := thread
  cases program with
  | done result => cases working
  | step instruction rest => exact working

theorem compiling_sublist_working (system : System V) (executor : Nat) :
    (system.compiling executor).Sublist (system.working executor) := by
  refine filterMap_sublist_filterMap (fun thread handle compiling => ?_) _
  obtain ⟨duty, program⟩ := thread
  cases program with
  | done result => cases compiling
  | step instruction rest =>
      cases instruction with
      | compile => exact compiling
      | _ => cases compiling

theorem mem_begun {system : System V} {executor : Nat} {handle : Handle} :
    handle ∈ system.begun executor ↔
      ∃ (index : Nat) (program : Program V (Result V)),
        system.threads[index]? = some ⟨.job executor handle, program⟩ := by
  simp only [begun, List.mem_filterMap]
  constructor
  · rintro ⟨⟨duty, program⟩, member, begun⟩
    obtain ⟨index, found⟩ := List.mem_iff_getElem?.mp member
    cases duty with
    | call call => cases begun
    | job place target =>
        simp only [Thread.begun?, Option.ite_none_right_eq_some, Option.some.injEq] at begun
        obtain ⟨rfl, rfl⟩ := begun
        exact ⟨index, program, found⟩
  · rintro ⟨index, program, found⟩
    exact ⟨_, List.mem_of_getElem? found, by simp [Thread.begun?]⟩

section Threads

variable (system : System V) (executor : Nat)

theorem begun_spawn_call (call : Call) :
    (system.spawn (.ofDuty (.call call))).begun executor = system.begun executor := by
  simp [begun, spawn, Thread.ofDuty, Thread.begun?]

theorem working_spawn_call (call : Call) :
    (system.spawn (.ofDuty (.call call))).working executor = system.working executor := by
  simp [working, spawn, Thread.ofDuty, Thread.working?_call]

theorem begun_spawn_job (place : Nat) (handle : Handle) :
    (system.spawn (.ofDuty (.job place handle))).begun executor =
      system.begun executor ++ if place = executor then [handle] else [] := by
  simp only [begun, spawn, List.filterMap_append]
  split <;> simp [Thread.ofDuty, Thread.begun?, *]

theorem working_spawn_job (place : Nat) (handle : Handle) :
    (system.spawn (.ofDuty (.job place handle))).working executor =
      system.working executor ++ if place = executor then [handle] else [] := by
  have begun : Thread.working? executor (.ofDuty (.job place handle) : Thread V) =
      Thread.begun? executor (.ofDuty (.job place handle) : Thread V) := rfl
  simp only [working, spawn, List.filterMap_append, List.filterMap_cons, begun]
  split <;> simp_all [Thread.ofDuty, Thread.begun?]

variable (index : Nat) (state : State V) (program : Program V (Result V))

theorem begun_goOn : (system.goOn index state program).begun executor =
    system.begun executor :=
  filterMap_modify fun _ _ => rfl

end Threads

end System

/-! The end of a job -/

def Instruction.Retires : Instruction V → Prop
  | .retire .. => True
  | _ => False

def retireRule : Rule V := fun past _ => ∀ exchange ∈ past, ¬ exchange.instruction.Retires

theorem job_retires (executor : Nat) (handle : Handle) :
    ((Duty.job executor handle).program : Program V (Result V)).Keeps retireRule
      (fun past _ => ∃ exchange ∈ past, exchange.instruction.Retires) [] := by
  have stays {program : Program V Unit}
      (uses : program.Uses fun instruction => ¬ instruction.Retires) {past : List (Exchange V)}
      (start : ∀ exchange ∈ past, ¬ exchange.instruction.Retires) :
      program.Keeps retireRule (fun later _ => ∀ exchange ∈ later,
        ¬ exchange.instruction.Retires) past := by
    refine uses.keeps (fun _ _ _ before => before) (fun later instruction reply other before => ?_)
      start
    intro exchange member
    rcases List.mem_append.mp member with old | new
    · exact before exchange old
    · rw [List.mem_singleton.mp new]
      exact other
  have works : (work executor handle : Program V Unit).Uses
      fun instruction => ¬ instruction.Retires := by
    refine (work_uses executor handle).mono fun instruction compiles => ?_
    cases instruction with
    | retire => exact compiles.elim
    | _ => exact id
  simp only [Duty.program, job, keeps_bind]
  refine (stays works fun _ member => absurd member List.not_mem_nil).mono ?_
  refine fun past _ unretired => ⟨unretired, fun reply _ => ?_⟩
  exact ⟨⟨.retire executor handle, reply⟩, List.mem_append_right _ (List.mem_singleton_self _),
    trivial⟩

/-! What one move does to the pool -/

def Instruction.Serves : Instruction V → Prop
  | .submit .. => True
  | .openPool => True
  | .closePool => True
  | .abandon _ => True
  | .retire .. => True
  | _ => False

theorem Pool.getElem?_updateExecutor (pool : Pool) (index place : Nat)
    (change : Executor → Executor) :
    (pool.updateExecutor index change).executors[place]? =
      (pool.executors[place]?).map fun found => if index = place then change found else found := by
  simp only [updateExecutor, List.getElem?_modify]
  split <;> rfl

@[simp] theorem Pool.length_updateExecutor (pool : Pool) (index : Nat)
    (change : Executor → Executor) :
    (pool.updateExecutor index change).executors.length = pool.executors.length := by
  simp [updateExecutor]

namespace System

structure SameJobs (system next : System V) : Prop where
  begun : ∀ executor, next.begun executor = system.begun executor
  working : ∀ executor, next.working executor = system.working executor

inductive Serving (events : List (Event V)) (system next : System V) :
    Move V → Option (Event V) → Prop
  | nothing {move : Move V} {event : Option (Event V)} (quota : Option Nat) :
      (∀ executor, move ≠ .take executor) →
      (∀ happened, event = some happened → happened.exchange.submitted? = none ∧
        happened.exchange.instruction ≠ .closePool) →
      next.state.pool = { system.state.pool with quota } →
      SameJobs system next → Serving events system next move event
  | submit {move : Move V} {thread : Nat} {source : RuleSource}
      {generation : Int} {handle : Handle} {executor : Nat} (quota : Option Nat) :
      system.state.pool.current = some executor →
      handle.id = system.state.compilations.length →
      next.state.pool = { system.state.pool.updateExecutor executor fun found =>
          { found with queue := found.queue ++ [handle] } with
        submitted := system.state.pool.submitted ++ [handle]
        quota } →
      SameJobs system next → (∀ executor, move ≠ .take executor) →
      Serving events system next move (some ⟨thread, .submit source generation, .ok handle⟩)
  | openPool {move : Move V} {thread : Nat} :
      system.state.pool.current = none →
      next.state.pool = { system.state.pool with
        executors := system.state.pool.executors ++ [⟨[], [], []⟩]
        current := some system.state.pool.executors.length } →
      SameJobs system next → (∀ executor, move ≠ .take executor) →
      Serving events system next move (some ⟨thread, .openPool, ()⟩)
  | closePool {move : Move V} {thread : Nat} :
      next.state.pool = { system.state.pool with current := none } → SameJobs system next →
      (∀ executor, move ≠ .take executor) →
      Serving events system next move (some ⟨thread, .closePool, system.state.closePool.1⟩)
  | abandon {move : Move V} {thread executor : Nat} {outstanding : List Handle} :
      ⟨thread, .closePool, (some executor, outstanding)⟩ ∈ events →
      next.state.pool = system.state.pool.updateExecutor executor
        (fun found => { found with queue := [] }) →
      SameJobs system next → (∀ executor, move ≠ .take executor) →
      Serving events system next move (some ⟨thread, .abandon executor, ()⟩)
  | retire {move : Move V} {thread executor : Nat} {handle : Handle} :
      next.state.pool = system.state.pool.updateExecutor executor
        (fun found => { found with active := found.active.erase handle }) →
      (∀ place, next.begun place = system.begun place) →
      (∀ place, (system.working place).Perm
        ((if executor = place then [handle] else []) ++ next.working place)) →
      (∀ executor, move ≠ .take executor) →
      Serving events system next move (some ⟨thread, .retire executor handle, ()⟩)
  | take {executor : Nat} {found : Executor} {handle : Handle} {rest : List Handle} :
      system.state.pool.executors[executor]? = some found → found.queue = handle :: rest →
      found.taken.length + found.active.length < system.state.pool.workers →
      next.state.pool = system.state.pool.updateExecutor executor
        (fun found => ⟨found.queue.tail, found.taken ++ [handle], found.active⟩) →
      SameJobs system next → Serving events system next (.take executor) none
  | drop {executor : Nat} {found : Executor} {handle : Handle} :
      system.state.pool.executors[executor]? = some found → handle ∈ found.taken →
      system.state.condition handle ≠ .pending →
      next.state.pool = system.state.pool.updateExecutor executor
        (fun found => { found with taken := found.taken.erase handle }) →
      SameJobs system next → Serving events system next (.begin executor handle) none
  | begin {executor : Nat} {found : Executor} {handle : Handle} :
      system.state.pool.executors[executor]? = some found → handle ∈ found.taken →
      (system.state.Knows handle → next.state.condition handle = .running) →
      next.state.pool = system.state.pool.updateExecutor executor
        (fun found => ⟨found.queue, found.taken.erase handle, found.active ++ [handle]⟩) →
      (∀ place, next.begun place =
        system.begun place ++ if executor = place then [handle] else []) →
      (∀ place, next.working place =
        system.working place ++ if executor = place then [handle] else []) →
      Serving events system next (.begin executor handle) none

theorem Answer.unserved {thread : Nat} {state next : State V} {instruction : Instruction V}
    {reply : instruction.Reply} (answer : Answer thread state instruction reply next)
    (other : ¬ instruction.Serves) : next.pool = state.pool := by
  cases answer with
  | submit | openPool | closePool | abandon | retire => exact absurd trivial other
  | register target callback =>
      simp only [State.register]
      split <;> rfl
  | _ => rfl

theorem Serving.submit_of_answer {events : List (Event V)} {system next : System V}
    {move : Move V} (other : ∀ executor, move ≠ .take executor) {thread : Nat}
    {source : RuleSource} {generation : Int} {reply : Except Failure Handle}
    (answer : Answer thread system.state (.submit source generation) reply next.state)
    (same : SameJobs system next) :
    Serving events system next move (some ⟨thread, .submit source generation, reply⟩) := by
  generalize after : next.state = state at answer
  cases answer
  by_cases refused : system.state.pool.quota = some 0
  · simp only [State.submit, if_pos refused] at after ⊢
    exact .nothing _ other (by simp [Exchange.submitted?]) (by rw [after]) same
  · cases current : system.state.pool.current with
    | none =>
        simp only [State.submit, if_neg refused, current] at after ⊢
        exact .nothing (system.state.pool.quota.map (· - 1)) other (by simp [Exchange.submitted?])
          (by simp [after, current]) same
    | some executor =>
        simp only [State.submit, if_neg refused, current] at after ⊢
        exact .submit (system.state.pool.quota.map (· - 1)) current rfl
          (by simp [after, current, Pool.updateExecutor]) same other

section Runs

variable {workers : Int} {pool : Pool} {evaluation : Evaluation} {moves : List (Move V)}
  {middle next last : System V} {move : Move V}

/-- A job that goes on without retiring keeps its worker. -/
theorem sameJobs_of_goOn (reached : (initial pool evaluation).run moves = some middle) {index : Nat}
    {duty : Duty} {instruction : Instruction V}
    {rest : instruction.Reply → Program V (Result V)}
    (held : middle.threads[index]? = some ⟨duty, .step instruction rest⟩)
    (other : ¬ instruction.Retires) {reply : instruction.Reply}
    (possible : Exchange.IsPossible ⟨instruction, reply⟩) (state : State V) :
    SameJobs middle (middle.goOn index state (rest reply)) where
  begun executor := middle.begun_goOn executor index state (rest reply)
  working executor := by
    refine filterMap_modify fun thread found => ?_
    rw [held, Option.some.injEq] at found
    subst thread
    cases duty with
    | call call => rw [Thread.working?_call, Thread.working?_call]
    | job place handle =>
        have keeps := thread_keeps reached held (job_retires place handle)
        have after := keeps.2 reply possible
        cases program : rest reply with
        | step => rfl
        | done result =>
            rw [program] at after
            obtain ⟨exchange, member, retires⟩ := after
            rcases List.mem_append.mp member with old | new
            · exact absurd retires (keeps.1 exchange old)
            · rw [List.mem_singleton.mp new] at retires
              exact absurd retires other

theorem serving_of_retire (reached : (initial pool evaluation).run moves = some middle)
    {index : Nat} {duty : Duty} {executor : Nat} {handle : Handle}
    {rest : Unit → Program V (Result V)}
    (held : middle.threads[index]? = some ⟨duty, .step (.retire executor handle) rest⟩)
    (other : ∀ executor, move ≠ .take executor) :
    Serving ((initial pool evaluation).trace moves) middle
      (middle.goOn index (middle.state.retire executor handle) (rest ())) move
      (some ⟨index, .retire executor handle, ()⟩) := by
  have rule := (thread_keeps reached held (duty_keeps duty)).1
  cases duty with
  | call call => exact rule.elim
  | job place target =>
      obtain ⟨rfl, rfl⟩ := rule
      have after := (thread_keeps reached held (job_retires executor handle)).2 () trivial
      obtain ⟨result, program⟩ : ∃ result, rest () = .done result := by
        cases program : rest () with
        | done result => exact ⟨result, rfl⟩
        | step =>
            rw [program] at after
            exact absurd trivial (after.1 ⟨.retire executor handle, ()⟩ (by simp))
      refine .retire rfl (fun place => begun_goOn _ _ _ _ _) (fun place => ?_) other
      rw [program]
      by_cases same : executor = place
      · rw [if_pos same]
        refine filterMap_modify_perm held ?_ rfl
        simp [Thread.working?, Thread.begun?, same]
      · rw [if_neg same]
        refine .of_eq (filterMap_modify fun thread found => ?_).symm
        rw [held, Option.some.injEq] at found
        subst thread
        simp [Thread.working?, Thread.begun?, same]

theorem serving_of_step (reached : (initial pool evaluation).run moves = some middle)
    (stepped : middle.step move = some next) :
    Serving ((initial pool evaluation).trace moves) middle next move (middle.event? move) := by
  have transition := step_transition stepped
  have other (happened : (middle.event? move).isSome = true) (executor : Nat) :
      move ≠ .take executor := by
    rintro rfl
    cases happened
  generalize middle.event? move = event at transition other ⊢
  cases transition with
  | call call =>
      exact .nothing _ (by simp) (by simp) rfl ⟨fun executor => middle.begun_spawn_call executor call,
        fun executor => middle.working_spawn_call executor call⟩
  | adjust evaluation => exact .nothing _ (by simp) (by simp) rfl ⟨fun _ => rfl, fun _ => rfl⟩
  | limit submissions => exact .nothing _ (by simp) (by simp) rfl ⟨fun _ => rfl, fun _ => rfl⟩
  | take taken =>
      obtain ⟨handle, front, rfl⟩ := State.take?_eq_some taken
      obtain ⟨found, rest, held, free, queue⟩ := Pool.next?_eq_some front
      exact .take held queue free rfl ⟨fun _ => rfl, fun _ => rfl⟩
  | drop dropped =>
      obtain ⟨holds, ⟨-, settled, rfl⟩ | ⟨starts, -⟩⟩ := State.begin?_eq_some dropped
      · obtain ⟨found, held, taken⟩ := Pool.holds_iff.mp holds
        exact .drop held taken settled rfl ⟨fun _ => rfl, fun _ => rfl⟩
      · cases starts
  | @begin executor target state started =>
      obtain ⟨holds, ⟨drops, -⟩ | ⟨-, -, rfl⟩⟩ := State.begin?_eq_some started
      · cases drops
      · obtain ⟨found, held, taken⟩ := Pool.holds_iff.mp holds
        refine .begin held taken (fun known => ?_) rfl
          (fun place => begun_spawn_job _ place executor target)
          (fun place => working_spawn_job _ place executor target)
        exact (State.condition_update _ _ _ _).trans (if_pos ⟨rfl, known⟩)
  | @answer _ index thread instruction rest reply state held program answer =>
      obtain ⟨duty, _⟩ := thread
      simp only at program
      subst program
      have same (other : ¬ instruction.Retires) :=
        sameJobs_of_goOn reached held other answer.isPossible state
      cases instruction with
      | retire executor handle =>
          cases answer
          exact serving_of_retire reached held (other rfl)
      | submit source generation => exact Serving.submit_of_answer (other rfl) answer (same id)
      | openPool =>
          generalize after : middle.goOn index state (rest reply) = next at same ⊢
          have pool : next.state = state := by rw [← after]; rfl
          cases answer
          cases current : middle.state.pool.current with
          | some executor =>
              refine .nothing middle.state.pool.quota (other rfl) (by simp [Exchange.submitted?]) ?_ (same id)
              rw [pool, State.openPool, current]
          | none =>
              refine .openPool current ?_ (same id) (other rfl)
              rw [pool, State.openPool, current]
      | closePool =>
          cases answer
          exact .closePool rfl (same id) (other rfl)
      | abandon executor =>
          cases answer
          obtain ⟨outstanding, closed⟩ := (thread_keeps reached held (duty_tidies duty)).1
          exact .abandon (mem_exchangesOf.mp closed) rfl (same id) (other rfl)
      | _ =>
          refine .nothing middle.state.pool.quota (other rfl) (by simp [Exchange.submitted?]) ?_ (same id)
          exact answer.unserved id

end Runs

/-! What one move does to an executor -/

/-- How an executor is left by a move, and the jobs of its workers. -/
inductive Turn (events : List (Event V)) (system next : System V) (move : Move V) (place : Nat) :
    Executor → Executor → Prop
  | stays {found : Executor} :
      move ≠ .take place → next.begun place = system.begun place →
      (system.working place).Perm (next.working place) →
      Turn events system next move place found found
  | queues {found : Executor} {handle : Handle} :
      move ≠ .take place → system.state.pool.current = some place →
      handle.id = system.state.compilations.length →
      next.state.pool.submitted = system.state.pool.submitted ++ [handle] →
      SameJobs system next →
      Turn events system next move place found { found with queue := found.queue ++ [handle] }
  | empties {found : Executor} {thread : Nat} {outstanding : List Handle} :
      move ≠ .take place → ⟨thread, .closePool, (some place, outstanding)⟩ ∈ events →
      SameJobs system next →
      Turn events system next move place found { found with queue := [] }
  | takes {found : Executor} {handle : Handle} {rest : List Handle} :
      move = .take place → found.queue = handle :: rest →
      found.taken.length + found.active.length < system.state.pool.workers →
      SameJobs system next →
      Turn events system next move place found ⟨rest, found.taken ++ [handle], found.active⟩
  | drops {found : Executor} {handle : Handle} :
      move ≠ .take place → handle ∈ found.taken → system.state.condition handle ≠ .pending →
      SameJobs system next →
      Turn events system next move place found { found with taken := found.taken.erase handle }
  | begins {found : Executor} {handle : Handle} :
      move ≠ .take place → handle ∈ found.taken →
      (system.state.Knows handle → next.state.condition handle = .running) →
      next.begun place = system.begun place ++ [handle] →
      next.working place = system.working place ++ [handle] →
      Turn events system next move place found
        ⟨found.queue, found.taken.erase handle, found.active ++ [handle]⟩
  | retires {found : Executor} {handle : Handle} :
      move ≠ .take place → next.begun place = system.begun place →
      (system.working place).Perm (handle :: next.working place) →
      Turn events system next move place found
        { found with active := found.active.erase handle }

section Moves

variable {events : List (Event V)} {system next : System V} {move : Move V}
  {event : Option (Event V)}

theorem Serving.grows (serving : Serving events system next move event) :
    system.state.pool.executors.length ≤ next.state.pool.executors.length := by
  cases serving with
  | nothing quota other silent pool | submit quota current number pool | openPool current pool
  | closePool pool | abandon closed pool | retire pool | take held queue free pool
  | drop held taken settled pool | begin held taken running pool => simp [pool]

theorem SameJobs.turn (same : SameJobs system next) {place : Nat} (other : move ≠ .take place)
    (found : Executor) : Turn events system next move place found found :=
  .stays other (same.begun place) (.of_eq (same.working place).symm)

/-- An executor that is there after a move has just been opened, or was there before. -/
theorem Serving.turn (serving : Serving events system next move event) {place : Nat}
    {found : Executor} (held : next.state.pool.executors[place]? = some found) :
    (system.state.pool.executors.length ≤ place ∧ found = ⟨[], [], []⟩ ∧ SameJobs system next) ∨
      ∃ before, system.state.pool.executors[place]? = some before ∧
        Turn events system next move place before found := by
  have updated {executor : Nat} {change : Executor → Executor}
      (pool : next.state.pool.executors =
        (system.state.pool.updateExecutor executor change).executors)
      (here : ∀ before, executor = place → system.state.pool.executors[place]? = some before →
        Turn events system next move place before (change before))
      (elsewhere : ∀ before, executor ≠ place → Turn events system next move place before before) :
      ∃ before, system.state.pool.executors[place]? = some before ∧
        Turn events system next move place before found := by
    simp only [pool, Pool.getElem?_updateExecutor, Option.map_eq_some_iff] at held
    obtain ⟨before, held, rfl⟩ := held
    refine ⟨before, held, ?_⟩
    split
    next same => exact here before same held
    next different => exact elsewhere before different
  cases serving with
  | nothing quota other silent pool same =>
      rw [pool] at held
      exact .inr ⟨found, held, same.turn (other place) found⟩
  | closePool pool same other =>
      rw [pool] at held
      exact .inr ⟨found, held, same.turn (other place) found⟩
  | openPool current pool same other =>
      simp only [pool, List.getElem?_append] at held
      split at held
      · exact .inr ⟨found, held, same.turn (other place) found⟩
      next beyond =>
        obtain ⟨-, rfl⟩ := List.getElem?_eq_some_iff.mp held
        exact .inl ⟨Nat.le_of_not_lt beyond, by simp, same⟩
  | submit quota current number pool same other =>
      refine .inr (updated (by rw [pool]) ?_ fun before _ => same.turn (other place) before)
      rintro before rfl -
      exact .queues (other _) current number (by rw [pool]) same
  | abandon closed pool same other =>
      refine .inr (updated (by rw [pool]) ?_ fun before _ => same.turn (other place) before)
      rintro before rfl -
      exact .empties (other _) closed same
  | @take executor front handle rest here queue free pool same =>
      refine .inr (updated (by rw [pool]) ?_ fun before different => same.turn ?_ before)
      · rintro before rfl held
        cases here.symm.trans held
        have turn : Turn events system next (.take executor) executor front
            ⟨rest, front.taken ++ [handle], front.active⟩ := .takes rfl queue free same
        simpa [queue] using turn
      · simpa using different
  | drop here taken settled pool same =>
      refine .inr (updated (by rw [pool]) ?_ fun before _ => same.turn (by simp) before)
      rintro before rfl held
      cases here.symm.trans held
      exact .drops (by simp) taken settled same
  | @begin executor front handle here taken running pool begun working =>
      refine .inr (updated (by rw [pool]) ?_ fun before different => ?_)
      · rintro before rfl held
        cases here.symm.trans held
        refine .begins (by simp) taken running ?_ ?_
        · rw [begun, if_pos rfl]
        · rw [working, if_pos rfl]
      · refine .stays (by simp) ?_ (.of_eq ?_)
        · rw [begun, if_neg different, List.append_nil]
        · rw [working, if_neg different, List.append_nil]
  | @retire _ thread executor handle pool begun working other =>
      refine .inr (updated (by rw [pool]) ?_ fun before different => ?_)
      · rintro before rfl -
        refine .retires (other _) (begun _) ?_
        have left := working executor
        rwa [if_pos rfl] at left
      · refine .stays (other place) (begun place) ?_
        have left := working place
        rwa [if_neg different] at left

end Moves

end System

end Schematron.Engine

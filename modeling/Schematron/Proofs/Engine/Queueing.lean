import Mathlib.Data.List.Infix
import Mathlib.Data.List.Sort
import Schematron.Proofs.Engine.Scheduling

/-!
Queueing: in what order the jobs of an executor come to be compiled. Jobs leave the queue in order of
submission. On the way from there into its compilation a job may be overtaken, but only by jobs that
are in the hands of other workers. Main statement: every run of a pool keeps to its schedule; where an
executor is served as a queue all the way, compilations are entered in order of submission.
-/

namespace Schematron.Engine

variable {V : Type}

def Thread.entering? (executor : Nat) (thread : Thread V) : Option Handle :=
  match thread.head? with
  | some (.enter ..) => thread.begun? executor
  | _ => none

namespace Exchange

def entered? (executor : Nat) : Exchange V → Option Handle
  | ⟨.enter place handle, _⟩ => if place = executor then some handle else none
  | _ => none

def enters (handle : Handle) : Exchange V → Bool
  | ⟨.enter _ target, _⟩ => target.id == handle.id
  | _ => false

theorem enters_iff {handle : Handle} {exchange : Exchange V} :
    exchange.enters handle = true ↔
      ∃ executor target, exchange = ⟨.enter executor target, ()⟩ ∧ target.id = handle.id := by
  constructor
  · intro enters
    obtain ⟨instruction, reply⟩ := exchange
    cases instruction with
    | enter executor target => exact ⟨executor, target, rfl, beq_iff_eq.mp enters⟩
    | _ => cases enters
  · rintro ⟨executor, target, rfl, same⟩
    exact beq_iff_eq.mpr same

end Exchange

def enteredIn (executor : Nat) (past : List (Exchange V)) : List Handle :=
  past.filterMap (Exchange.entered? executor)

@[simp] theorem enteredIn_append (executor : Nat) (first second : List (Exchange V)) :
    enteredIn executor (first ++ second) = enteredIn executor first ++ enteredIn executor second :=
  List.filterMap_append

theorem mem_enteredIn {executor : Nat} {handle : Handle} {past : List (Exchange V)} :
    handle ∈ enteredIn executor past ↔ ⟨.enter executor handle, ()⟩ ∈ past := by
  simp only [enteredIn, List.mem_filterMap]
  constructor
  · rintro ⟨⟨instruction, reply⟩, done, entered⟩
    cases instruction with
    | enter place target =>
        simp only [Exchange.entered?, Option.ite_none_right_eq_some, Option.some.injEq] at entered
        obtain ⟨rfl, rfl⟩ := entered
        exact done
    | _ => cases entered
  · exact fun done => ⟨_, done, if_pos rfl⟩

theorem enteredIn_enters (thread executor : Nat) (handle : Handle) (events : List (Event V)) :
    enteredIn executor (exchanges (⟨thread, .enter executor handle, ()⟩ :: events)) =
      handle :: enteredIn executor (exchanges events) := by
  simp [enteredIn, exchanges, Exchange.entered?]

/-! Handles in order of their making -/

def Handle.Precedes (first second : Handle) : Prop := first.id < second.id

instance : Std.Antisymm Handle.Precedes where
  antisymm _ _ first second := absurd (Nat.lt_trans first second) (Nat.lt_irrefl _)

theorem sublist_of_sorted {narrow wide : List Handle} (sorted : narrow.Pairwise Handle.Precedes)
    (also : wide.Pairwise Handle.Precedes) (within : narrow ⊆ wide) : narrow.Sublist wide := by
  have distinct : narrow.Nodup := sorted.imp fun {first second} (less : first.id < second.id) same =>
    Nat.lt_irrefl _ (same ▸ less)
  exact List.sublist_of_subperm_of_pairwise (List.subperm_of_subset distinct within) sorted also

namespace System

theorem Sound.sorted {events : List (Event V)} {system : System V} (sound : Sound events system)
    {handles : List Handle} (made : handles.Sublist (madeIn (exchanges events))) :
    handles.Pairwise Handle.Precedes := by
  have numbers := made.map (·.id)
  rw [sound.numbered] at numbers
  have increasing : (handles.map (·.id)).Pairwise (· < ·) := List.pairwise_lt_range.sublist numbers
  rw [List.pairwise_map] at increasing
  exact increasing

/-! What leaves the queue -/

def picked? (system : System V) (executor : Nat) : Move V → Option Handle
  | .take place => if place = executor then system.state.pool.next? executor else none
  | _ => none

def takenIn (system : System V) (executor : Nat) : List (Move V) → List Handle
  | [] => []
  | move :: rest =>
      match system.step move with
      | some next => (system.picked? executor move).toList ++ next.takenIn executor rest
      | none => []

theorem takenIn_append {start middle : System V} {moves : List (Move V)}
    (reached : start.run moves = some middle) (executor : Nat) (later : List (Move V)) :
    start.takenIn executor (moves ++ later) =
      start.takenIn executor moves ++ middle.takenIn executor later := by
  induction moves generalizing start with
  | nil =>
      cases reached
      rfl
  | cons first rest ih =>
      simp only [run, Option.bind_eq_bind, Option.bind_eq_some_iff] at reached
      obtain ⟨second, began, reached⟩ := reached
      simp [takenIn, began, ih reached]

theorem takenIn_concat {start middle next : System V} {moves : List (Move V)} {move : Move V}
    (reached : start.run moves = some middle) (stepped : middle.step move = some next)
    (executor : Nat) : start.takenIn executor (moves ++ [move]) =
      start.takenIn executor moves ++ (middle.picked? executor move).toList := by
  simp [takenIn_append reached, takenIn, stepped]

section Moves

variable {workers : Nat} {events : List (Event V)} {system next : System V} {move : Move V}
  {event : Option (Event V)}

theorem picked?_of_ne {executor : Nat} (other : move ≠ .take executor) :
    system.picked? executor move = none := by
  cases move with
  | take place => exact if_neg fun same => other (congrArg Move.take same)
  | _ => rfl

/-- How the jobs that wait at an executor change: the first is taken from the queue, another one
comes to its end, or some are given up. -/
theorem Serving.waiting (serving : Serving events system next move event) {place : Nat}
    {found : Executor} (held : next.state.pool.executors[place]? = some found) :
    (system.state.pool.executors.length ≤ place ∧ found = ⟨[], [], []⟩) ∨
    ∃ before, system.state.pool.executors[place]? = some before ∧
      found.taken ⊆ before.taken ++ (system.picked? place move).toList ∧
      (((system.picked? place move).toList ++ found.queue).Sublist before.queue ∨
      system.picked? place move = none ∧ ∃ handle, found.queue = before.queue ++ [handle] ∧
        next.state.pool.submitted = system.state.pool.submitted ++ [handle]) := by
  rcases serving.turn held with ⟨beyond, empty, -⟩ | ⟨before, was, turn⟩
  · exact .inl ⟨beyond, empty⟩
  refine .inr ⟨before, was, ?_⟩
  cases turn with
  | @takes handle rest taken queue free =>
      subst taken
      have first : system.picked? place (.take place) = some handle := by
        simp [picked?, Pool.next?, was, free, queue]
      simp [first, queue]
  | queues other current number submitted => simp [picked?_of_ne other, submitted]
  | stays other | empties other | retires other => simp [picked?_of_ne other]
  | drops other | begins other => simp [picked?_of_ne other, List.erase_subset]

end Moves

/-! On the way into a compilation -/

def approaching (system : System V) (executor : Nat) : List Handle :=
  (system.state.pool.executors[executor]?.elim [] (·.taken)) ++
    system.threads.filterMap (Thread.entering? executor)

theorem mem_approaching {system : System V} {executor : Nat} {handle : Handle} :
    handle ∈ system.approaching executor ↔
      system.state.pool.holds executor handle = true ∨
        ∃ thread ∈ system.threads, thread.entering? executor = some handle := by
  rw [approaching, List.mem_append, List.mem_filterMap, Pool.holds_iff]
  refine or_congr_left ?_
  cases system.state.pool.executors[executor]? <;> simp

theorem entering_sublist_working (system : System V) (executor : Nat) :
    (system.threads.filterMap (Thread.entering? executor)).Sublist (system.working executor) := by
  refine filterMap_sublist_filterMap (fun thread handle entering => ?_) _
  obtain ⟨duty, program⟩ := thread
  cases program with
  | done result => cases entering
  | step instruction rest =>
      cases instruction with
      | enter => exact entering
      | _ => cases entering

namespace Served

variable {size : Nat} {events : List (Event V)} {system : System V}

/-- Each job that was taken or begun keeps a worker of its own. -/
theorem busy_le (served : Served size events system) (executor : Nat) :
    (system.state.pool.executors[executor]?.elim [] (·.taken)).length +
      (system.working executor).length ≤ size := by
  by_cases opened : executor < system.state.pool.executors.length
  · obtain ⟨staff, bound⟩ := served.staffed executor _ (List.getElem?_eq_getElem opened)
    rw [List.getElem?_eq_getElem opened, Option.elim_some, ← staff.length_eq]
    exact bound
  · have unopened := Nat.le_of_not_lt opened
    have nobody := system.working_sublist_begun executor
    rw [served.unopened executor unopened, List.sublist_nil] at nobody
    simp [nobody, unopened]

theorem approaching_le (served : Served size events system) (executor : Nat) :
    (system.approaching executor).length ≤ size := by
  have inner := (system.entering_sublist_working executor).length_le
  rw [approaching, List.length_append]
  exact Nat.le_trans (Nat.add_le_add_left inner _) (served.busy_le executor)

theorem compiling_le (served : Served size events system) (executor : Nat) :
    (system.compiling executor).length ≤ size := by
  have inner := (system.compiling_sublist_working executor).length_le
  exact Nat.le_trans inner (Nat.le_trans (Nat.le_add_left _ _) (served.busy_le executor))

end Served

section Runs

variable {workers : Int} {pool : Pool} {evaluation : Evaluation} {moves : List (Move V)}
  {first middle next last : System V} {move : Move V} {executor index : Nat} {handle : Handle}

theorem entering_iff (reached : (initial pool evaluation).run moves = some last)
    {thread : Thread V} (found : last.threads[index]? = some thread) :
    thread.entering? executor = some handle ↔
      ∃ rest, thread = ⟨.job executor handle, .step (.enter executor handle) rest⟩ := by
  obtain ⟨duty, program⟩ := thread
  constructor
  · intro entering
    cases program with
    | done result => cases entering
    | step instruction rest =>
        cases instruction with
        | enter place target =>
            have rule := (thread_keeps reached found (duty_keeps duty)).1
            cases duty with
            | call call => exact rule.elim
            | job other begun =>
                obtain ⟨rfl, rfl, -⟩ := rule
                simp only [Thread.entering?, Thread.head?, Thread.begun?,
                  Option.ite_none_right_eq_some, Option.some.injEq] at entering
                obtain ⟨rfl, rfl⟩ := entering
                exact ⟨rest, rfl⟩
        | _ => cases entering
  · rintro ⟨rest, same⟩
    cases same
    simp [Thread.entering?, Thread.head?, Thread.begun?]

/-- Whoever is about to enter a compilation has done nothing before. -/
theorem entering_of_event? (reached : (initial pool evaluation).run moves = some middle)
    (stepped : middle.step move = some next)
    (happens : middle.event? move = some ⟨index, .enter executor handle, ()⟩) :
    middle.Works index handle ∧ handle ∈ middle.approaching executor ∧
      exchangesOf index ((initial pool evaluation).trace moves) = [] := by
  obtain ⟨duty, rest, found, rule⟩ := event_rule reached stepped happens
  cases duty with
  | call call => exact rule.elim
  | job place target =>
      obtain ⟨rfl, rfl, fresh⟩ := rule
      have entering := (entering_iff reached found).mpr ⟨rest, rfl⟩
      exact ⟨⟨executor, _, found⟩,
        mem_approaching.mpr (.inr ⟨_, List.mem_of_getElem? found, entering⟩), fresh⟩

/-- Whoever approaches a compilation has done so before, or has just been taken. -/
theorem approaching_before (reached : (initial pool evaluation).run moves = some middle)
    (stepped : middle.step move = some next) (approaches : handle ∈ next.approaching executor) :
    handle ∈ middle.approaching executor ∨ middle.picked? executor move = some handle := by
  have transition := step_transition stepped
  rcases mem_approaching.mp approaches with holds | ⟨thread, member, entering⟩
  · obtain ⟨found, held, taken⟩ := Pool.holds_iff.mp holds
    rcases (serving_of_step reached stepped).waiting held with ⟨-, rfl⟩ |
      ⟨before, held, within, -⟩
    · cases taken
    · rcases List.mem_append.mp (within taken) with old | new
      · exact .inl (mem_approaching.mpr (.inl (Pool.holds_iff.mpr ⟨before, held, old⟩)))
      · exact .inr (Option.mem_toList.mp new)
  · obtain ⟨index, found⟩ := List.mem_iff_getElem?.mp member
    have further := (run_join reached ((run_single _ _).trans stepped)).1
    obtain ⟨rest, rfl⟩ := (entering_iff further found).mp entering
    rcases transition.thread found with ⟨old, -⟩ | ⟨new, silent, -⟩ |
      ⟨instruction, rest, reply, old, happened, program⟩
    · exact .inl (mem_approaching.mpr (.inr ⟨_, List.mem_of_getElem? old, entering⟩))
    · generalize middle.event? move = event at transition silent
      subst silent
      cases transition with
      | call call => simp [spawn, new, Thread.ofDuty] at found
      | @begin place target state begun =>
          simp only [spawn, new, List.getElem?_concat_length, Option.some.injEq, Thread.ofDuty,
            Thread.mk.injEq, Duty.job.injEq] at found
          obtain ⟨⟨rfl, rfl⟩, -⟩ := found
          exact .inl (mem_approaching.mpr (.inl (State.begin?_eq_some begun).1))
      | _ =>
          have present : index < middle.threads.length := (List.getElem?_eq_some_iff.mp found).1
          omega
    · -- It has done something, so that it cannot be about to enter.
      obtain ⟨-, -, fresh⟩ := (thread_keeps further found (duty_keeps _)).1
      rw [trace_concat reached stepped, happened, exchangesOf_append, Option.toList_some,
        exchangesOf_single_self] at fresh
      simp at fresh

/-- Whoever comes to a compilation is on the way to it already, or will be taken. -/
theorem approached_of_run (reached : (initial pool evaluation).run moves = some first)
    {later : List (Move V)} (continued : first.run later = some last) (executor : Nat) :
    last.approaching executor ⊆ first.approaching executor ++ first.takenIn executor later ∧
      enteredIn executor (exchanges (first.trace later)) ⊆
        first.approaching executor ++ first.takenIn executor later := by
  refine run_induction (motive := fun later system =>
    system.approaching executor ⊆ first.approaching executor ++ first.takenIn executor later ∧
      enteredIn executor (exchanges (first.trace later)) ⊆
        first.approaching executor ++ first.takenIn executor later) ?_ ?_ continued
  · simp [takenIn, enteredIn]
  · intro later middle move next went before stepped
    have reached := (run_join reached went).1
    rw [takenIn_concat went stepped, ← List.append_assoc]
    constructor
    · intro handle approaches
      rcases approaching_before reached stepped approaches with old | new
      · exact List.mem_append_left _ (before.1 old)
      · exact List.mem_append_right _ (by simp [new])
    · intro handle entered
      rw [trace_concat went stepped, exchanges_append, enteredIn_append, List.mem_append] at entered
      refine List.mem_append_left _ ?_
      rcases entered with old | new
      · exact before.2 old
      · obtain ⟨⟨index, exchange⟩, happened, same⟩ := List.mem_map.mp (mem_enteredIn.mp new)
        cases same
        exact before.1 (entering_of_event? reached stepped (Option.mem_toList.mp happened)).2.1

structure Handed (start : System V) (moves : List (Move V)) (last : System V) : Prop where
  unopened : ∀ executor, last.state.pool.executors.length ≤ executor →
    start.takenIn executor moves = []
  queued : ∀ (executor : Nat) (found : Executor),
    last.state.pool.executors[executor]? = some found →
    (start.takenIn executor moves ++ found.queue).Sublist last.state.pool.submitted

theorem Handed.step (handed : Handed (initial pool evaluation) moves middle)
    (created : Pool.create? workers = .ok pool)
    (reached : (initial pool evaluation).run moves = some middle)
    (stepped : middle.step move = some next) :
    Handed (initial pool evaluation) (moves ++ [move]) next := by
  have serving := serving_of_step reached stepped
  have nobody {executor : Nat} (beyond : middle.state.pool.executors.length ≤ executor) :
      middle.picked? executor move = none := by
    cases move <;> simp [picked?, Pool.next?, beyond]
  constructor
  case unopened =>
    intro executor beyond
    have before := Nat.le_trans serving.grows beyond
    rw [takenIn_concat reached stepped, handed.unopened executor before, nobody before]
    rfl
  case queued =>
    intro executor found held
    have grows := (served_of_run created reached).submitted_grows serving
    rw [takenIn_concat reached stepped, List.append_assoc]
    rcases serving.waiting held with ⟨beyond, rfl⟩ |
      ⟨before, held, -, shorter | ⟨nothing, handle, longer, submitted⟩⟩
    · rw [handed.unopened executor beyond, nobody beyond]
      exact List.nil_sublist _
    · exact ((shorter.append_left _).trans (handed.queued executor before held)).trans grows
    · rw [nothing, longer, submitted, Option.toList_none, List.nil_append, ← List.append_assoc]
      exact (handed.queued executor before held).append (.refl [handle])

theorem handed_of_run (created : Pool.create? workers = .ok pool)
    (reached : (initial pool evaluation).run moves = some last) :
    Handed (initial pool evaluation) moves last := by
  refine run_induction (motive := fun moves system =>
    Handed (initial pool evaluation) moves system) ?_ ?_ reached
  · simp only [Pool.create?] at created
    split at created <;> cases created
    constructor <;> simp [takenIn, initial, State.initial]
  · exact fun _ _ _ _ reached handed stepped => handed.step created reached stepped

/-- Jobs leave the queue of an executor in order of submission. -/
theorem taken_sublist (created : Pool.create? workers = .ok pool)
    (reached : (initial pool evaluation : System V).run moves = some last) (executor : Nat) :
    ((initial pool evaluation).takenIn executor moves).Sublist
      (submittedIn (exchanges ((initial pool evaluation).trace moves))) := by
  have handed := handed_of_run created reached
  by_cases opened : executor < last.state.pool.executors.length
  · rw [← (served_of_run created reached).submitted]
    exact (List.sublist_append_left _ _).trans
      (handed.queued executor _ (List.getElem?_eq_getElem opened))
  · rw [handed.unopened executor (Nat.le_of_not_lt opened)]
    exact List.nil_sublist _

theorem taken_sorted (created : Pool.create? workers = .ok pool)
    (reached : (initial pool evaluation : System V).run moves = some last) (executor : Nat) :
    ((initial pool evaluation).takenIn executor moves).Pairwise Handle.Precedes :=
  (sound_of_run created reached).sorted
    ((taken_sublist created reached executor).trans (submittedIn_sublist_madeIn _))

theorem approaching_initial (created : Pool.create? workers = .ok pool) (executor : Nat) :
    (initial pool evaluation : System V).approaching executor = [] := by
  simp only [Pool.create?] at created
  split at created <;> cases created
  simp [approaching, initial, State.initial]

theorem entered_subset_taken (created : Pool.create? workers = .ok pool)
    (reached : (initial pool evaluation : System V).run moves = some last) (executor : Nat) :
    enteredIn executor (exchanges ((initial pool evaluation).trace moves)) ⊆
      (initial pool evaluation).takenIn executor moves := by
  have approached := (approached_of_run (run_nil _) reached executor).2
  rwa [approaching_initial created, List.nil_append] at approached

/-! Nobody enters twice -/

theorem worker_of_entered (reached : (initial pool evaluation : System V).run moves = some last)
    (entered : ⟨.enter executor handle, ()⟩ ∈ exchanges ((initial pool evaluation).trace moves)) :
    ∃ index, last.Works index handle ∧
      exchangesOf index ((initial pool evaluation).trace moves) ≠ [] := by
  obtain ⟨⟨index, exchange⟩, happened, same⟩ := List.mem_map.mp entered
  cases same
  obtain ⟨cut⟩ := cut_of_mem reached happened
  obtain ⟨duty, program, found, rule⟩ := performer_of_cut cut
  cases duty with
  | call call => exact rule.elim
  | job place target =>
      obtain ⟨rfl, rfl, -⟩ := rule
      exact ⟨index, ⟨executor, program, found⟩,
        List.ne_nil_of_mem (mem_exchangesOf.mpr happened)⟩

theorem entered_once (created : Pool.create? workers = .ok pool)
    (reached : (initial pool evaluation : System V).run moves = some last) (handle : Handle) :
    (exchanges ((initial pool evaluation).trace moves)).countP (·.enters handle) ≤ 1 := by
  refine run_induction (motive := fun moves _ =>
    (exchanges ((initial pool evaluation).trace moves)).countP (·.enters handle) ≤ 1)
    (by simp) ?_ reached
  intro moves middle move next reached before stepped
  rw [trace_concat reached stepped, exchanges_append, List.countP_append]
  cases event : middle.event? move with
  | none => simpa using before
  | some happened =>
      rw [Option.toList_some, exchanges_single, List.countP_singleton]
      split
      next enters =>
        obtain ⟨thread, exchange⟩ := happened
        obtain ⟨executor, target, rfl, same⟩ := Exchange.enters_iff.mp enters
        obtain ⟨works, -, fresh⟩ := entering_of_event? reached stepped event
        have nobody : (exchanges ((initial pool evaluation).trace moves)).countP
            (·.enters handle) = 0 := by
          refine List.countP_eq_zero.mpr fun exchange member again => ?_
          obtain ⟨place, other, rfl, also⟩ := Exchange.enters_iff.mp again
          obtain ⟨index, worked, active⟩ := worker_of_entered reached member
          obtain rfl := (sound_of_run created reached).alone thread index target other works worked
            (same.trans also.symm)
          exact active fresh
        omega
      next => exact before

theorem enteredIn_nodup (created : Pool.create? workers = .ok pool)
    (reached : (initial pool evaluation : System V).run moves = some last) (executor : Nat) :
    (enteredIn executor (exchanges ((initial pool evaluation).trace moves))).Nodup := by
  refine List.nodup_iff_count_le_one.mpr fun handle => ?_
  refine Nat.le_trans ?_ (entered_once created reached handle)
  rw [enteredIn, List.count, List.countP_filterMap]
  refine List.countP_mono_left fun exchange _ same => ?_
  obtain ⟨instruction, reply⟩ := exchange
  cases instruction with
  | enter place target =>
      simp only [Exchange.entered?] at same
      split at same
      · exact beq_iff_eq.mpr (congrArg Handle.id (beq_iff_eq.mp same))
      · cases same
  | _ => cases same

/-- Nobody comes to a handle that has resolved while it was in line. -/
theorem unentered_of_resolved (created : Pool.create? workers = .ok pool) {later : List (Move V)}
    (earlier : (initial pool evaluation).run moves = some first)
    (reached : (initial pool evaluation).run (moves ++ later) = some last)
    (queues : first.state.pool.Queues handle)
    (resolved : (first.state.condition handle).isResolved = true) :
    (∀ index, ¬ last.Works index handle) ∧
      (exchanges ((initial pool evaluation).trace (moves ++ later))).countP
        (·.enters handle) = 0 := by
  have continued : first.run later = some last := by
    rwa [run_append, earlier, Option.bind_some] at reached
  have soundThen := sound_of_run created earlier
  have made := soundThen.queued handle queues
  have begun : first.state.condition handle ≠ .pending := by
    intro pending
    rw [pending] at resolved
    cases resolved
  have nobody (index : Nat) : ¬ last.Works index handle := fun works =>
    (served_of_run created earlier).nobody_works soundThen queues index
      (works_of_run continued (soundThen.knows made) begun works)
  refine ⟨nobody, List.countP_eq_zero.mpr fun exchange member enters => ?_⟩
  obtain ⟨executor, target, rfl, same⟩ := Exchange.enters_iff.mp enters
  obtain ⟨index, works, -⟩ := worker_of_entered reached member
  have sound := sound_of_run created reached
  have grown : handle ∈ madeIn (exchanges ((initial pool evaluation).trace (moves ++ later))) := by
    rw [trace_append earlier, exchanges_append, madeIn_append]
    exact List.mem_append_left _ made
  obtain rfl := sound.eq_of_id_eq (sound.begun index target works).1 grown same
  exact nobody index works

/-! Overtaking -/

/-- Whoever enters after another one is submitted after him, or was on the way together with him. -/
theorem follows_of_cut (created : Pool.create? workers = .ok pool)
    (cut : Cut (initial pool evaluation : System V) moves last
      ⟨index, .enter executor handle, ()⟩) {other : Handle}
    (entered : other ∈ enteredIn executor (exchanges (cut.next.trace cut.late))) :
    handle.Precedes other ∨ other ∈ (cut.moment.approaching executor).erase handle := by
  have whole := taken_sorted created cut.ends executor
  have distinct := enteredIn_nodup created cut.ends executor
  rw [cut.whole, takenIn_append cut.reached] at whole
  rw [cut.trace, exchanges_append, enteredIn_append, enteredIn_enters] at distinct
  have comes := (approached_of_run cut.reached cut.rest executor).2
  rw [cut.rest_trace, enteredIn_enters] at comes
  rcases List.mem_append.mp (comes (List.mem_cons_of_mem _ entered)) with approaches | taken
  · have different : other ≠ handle := by
      rintro rfl
      exact (List.nodup_cons.mp (List.nodup_append.mp distinct).2.1).1 entered
    exact .inr ((List.mem_erase_of_ne different).mpr approaches)
  · have approaches := (entering_of_event? cut.reached cut.stepped cut.happens).2.1
    have before := (approached_of_run (run_nil _) cut.reached executor).1 approaches
    rw [approaching_initial created, List.nil_append] at before
    exact .inl ((List.pairwise_append.mp whole).2.2 handle before other taken)

/-- An executor is served as a queue all the way when each job is inside its compilation, or given
up, before the next one leaves the queue: never more than one is on the way. -/
def Prompt (start : System V) (executor : Nat) (moves : List (Move V)) : Prop :=
  ∀ early ∈ moves.inits, ∀ moment ∈ start.run early, (moment.approaching executor).length ≤ 1

instance (start : System V) (executor : Nat) (moves : List (Move V)) :
    Decidable (start.Prompt executor moves) :=
  inferInstanceAs (Decidable (∀ early ∈ moves.inits, ∀ moment ∈ start.run early, _))

theorem Prompt.erase_eq_nil (prompt : (initial pool evaluation : System V).Prompt executor moves)
    (cut : Cut (initial pool evaluation) moves last ⟨index, .enter executor handle, ()⟩) :
    (cut.moment.approaching executor).erase handle = [] := by
  have bound := prompt cut.early (List.mem_inits _ _ |>.mpr ⟨_, cut.whole.symm⟩) _ cut.reached
  have approaches := (entering_of_event? cut.reached cut.stepped cut.happens).2.1
  refine List.eq_nil_of_length_eq_zero ?_
  rw [List.length_erase_of_mem approaches]
  omega

theorem Prompt.sorted (prompt : (initial pool evaluation : System V).Prompt executor moves)
    (created : Pool.create? workers = .ok pool) {past later : List (Move V)}
    (whole : moves = past ++ later)
    (reached : (initial pool evaluation).run past = some first)
    (continued : first.run later = some last) :
    (enteredIn executor (exchanges (first.trace later))).Pairwise Handle.Precedes := by
  induction later generalizing past first with
  | nil => exact List.Pairwise.nil
  | cons move rest ih =>
      simp only [run, Option.bind_eq_bind, Option.bind_eq_some_iff] at continued
      obtain ⟨second, stepped, continued⟩ := continued
      have further := (run_join reached ((run_single _ _).trans stepped)).1
      have sorted := ih (by simp [whole]) further continued
      simp only [trace, stepped, exchanges_append, enteredIn_append]
      refine List.pairwise_append.mpr ⟨?_, sorted, ?_⟩
      · cases first.event? move with
        | none => exact List.Pairwise.nil
        | some happened =>
            simp only [Option.toList_some, exchanges_single, enteredIn, List.filterMap_cons,
              List.filterMap_nil]
            split <;> simp
      · intro handle entered other later
        obtain ⟨⟨index, exchange⟩, happened, same⟩ := List.mem_map.mp (mem_enteredIn.mp entered)
        cases same
        let cut : Cut (initial pool evaluation) moves last ⟨index, .enter executor handle, ()⟩ :=
          ⟨past, move, rest, first, second, whole, reached, stepped, Option.mem_toList.mp happened,
            continued⟩
        rcases follows_of_cut created cut later with follows | overtaken
        · exact follows
        · rw [prompt.erase_eq_nil cut] at overtaken
          cases overtaken

/-- How the jobs of a pool with so many workers fare in a run. -/
structure Schedules (workers : Nat) (start : System V) (moves : List (Move V)) (last : System V) :
    Prop where
  alone : ∀ index other handle target, last.Works index handle → last.Works other target →
    handle.id = target.id → index = other
  once : ∀ handle, (exchanges (start.trace moves)).countP (·.enters handle) ≤ 1
  inside : ∀ index duty handle rest,
    last.threads[index]? = some ⟨duty, .step (.compile handle) rest⟩ →
    last.Works index handle ∧ compiledIn handle (exchanges (start.trace moves)) = []
  compiled : ∀ handle, (compiledIn handle (exchanges (start.trace moves))).length ≤ 1
  -- Nobody works for a handle that has resolved before a worker comes to it, in the queue or in
  -- the hands of the worker that took it from there.
  late : ∀ early rest moment handle, moves = early ++ rest → start.run early = some moment →
    moment.state.pool.Queues handle → (moment.state.condition handle).isResolved = true →
    (∀ index, ¬ last.Works index handle) ∧
      (exchanges (start.trace moves)).countP (·.enters handle) = 0
  taken : ∀ executor, (start.takenIn executor moves).Sublist
    (submittedIn (exchanges (start.trace moves)))
  entered : ∀ executor,
    enteredIn executor (exchanges (start.trace moves)) ⊆ start.takenIn executor moves
  -- Compilations are entered in that order too, where the queue is served promptly.
  ordered : ∀ executor, start.Prompt executor moves →
    (enteredIn executor (exchanges (start.trace moves))).Sublist
      (submittedIn (exchanges (start.trace moves)))
  single : workers = 1 → ∀ executor, start.Prompt executor moves
  -- In any case nobody is overtaken but by the jobs of the other workers.
  overtaken : ∀ index executor handle,
    ∀ cut : Cut start moves last ⟨index, .enter executor handle, ()⟩,
    ((cut.moment.approaching executor).erase handle).length < workers ∧
      ∀ other ∈ enteredIn executor (exchanges (cut.next.trace cut.late)),
        [handle, other].Sublist (submittedIn (exchanges (start.trace moves))) ∨
        other ∈ (cut.moment.approaching executor).erase handle
  bounded : ∀ executor, (last.compiling executor).length ≤ workers
  -- No job is left behind while a worker has nothing to do.
  busy : last.Settled → ∀ handle ∈ submittedIn (exchanges (start.trace moves)),
    last.state.condition handle = .pending →
    ∃ executor, last.state.pool.current = some executor ∧
      (last.compiling executor).length = workers

def occupying : List (Move Unit) :=
  -- Of four rule sets one is withdrawn inside its compilation and one in the hands of the worker
  -- that has taken it; one is compiled, and one waits behind them.
  [.call .start, .advance 0, .call (.submit default 1), .advance 1, .take 0,
    .begin 0 ⟨0, default, 1⟩, .advance 2,
    .call (.submit default 2), .advance 3, .take 0, .call (.cancel ⟨1, default, 2⟩ false),
    .advance 4, .begin 0 ⟨1, default, 2⟩,
    .call (.submit default 3), .advance 5, .take 0, .begin 0 ⟨2, default, 3⟩, .advance 6,
    .call (.submit default 4), .advance 7, .call (.cancel ⟨0, default, 1⟩ true), .advance 8]

-- Two workers that are on the way at once may cross.
example : (Pool.create? 2).map (fun pool => (enteredIn 0 (exchanges
    ((initial pool ⟨none, .unlimited⟩ : System Unit).trace [.call .start, .advance 0,
      .call (.submit default 1), .advance 1, .call (.submit default 2), .advance 2, .take 0, .take 0,
      .begin 0 ⟨0, default, 1⟩, .begin 0 ⟨1, default, 2⟩, .advance 4, .advance 3]))).map (·.id)) =
    .ok [1, 0] := rfl

end Runs

end System

end Schematron.Engine

import Mathlib.Data.List.Perm.Subperm
import Schematron.Proofs.Engine.Serving

/-!
Scheduling: what the pool does with the handles that are submitted to it. Main statement: each is in
one place, is in line until it is begun, and keeps one worker at most; in a settled system whatever
is still pending waits for workers that are all inside a compilation.
-/

namespace Schematron.Engine

variable {V : Type}

namespace System

def Placed (system : System V) (handle : Handle) (executor : Nat) : Prop :=
  ∃ found, system.state.pool.executors[executor]? = some found ∧
    handle ∈ system.begun executor ++ found.line

def Kept (events : List (Event V)) (system : System V) (handle : Handle) : Prop :=
  (∃ thread closed, ⟨thread, .closePool, closed⟩ ∈ events ∧ handle ∈ closed.2) ∨
  ∃ executor found, system.state.pool.current = some executor ∧
    system.state.pool.executors[executor]? = some found ∧
    (system.state.condition handle = .pending → handle ∈ found.line)

/-- What holds between the pool of a system and what its threads have done so far. -/
structure Served (workers : Nat) (events : List (Event V)) (system : System V) : Prop where
  sized : system.state.pool.workers = workers
  submitted : system.state.pool.submitted = submittedIn (exchanges events)
  opened : ∀ executor, system.state.pool.current = some executor →
    executor < system.state.pool.executors.length
  -- An executor that was taken out of service never comes back.
  closed : ∀ thread executor outstanding,
    ⟨thread, .closePool, (some executor, outstanding)⟩ ∈ events →
    executor < system.state.pool.executors.length ∧ system.state.pool.current ≠ some executor
  kept : ∀ handle ∈ system.state.pool.submitted,
    (system.state.condition handle).isResolved = false → Kept events system handle
  unopened : ∀ executor, system.state.pool.executors.length ≤ executor →
    system.begun executor = []
  lined : ∀ (executor : Nat) (found : Executor),
    system.state.pool.executors[executor]? = some found →
    found.line.Sublist system.state.pool.submitted
  -- Nobody is in line twice, or still in line when he has been begun.
  counted : ∀ (executor : Nat) (found : Executor),
    system.state.pool.executors[executor]? = some found →
    (system.begun executor ++ found.line).Subperm system.state.pool.submitted
  placed : ∀ handle executor other, system.Placed handle executor → system.Placed handle other →
    executor = other
  staffed : ∀ (executor : Nat) (found : Executor),
    system.state.pool.executors[executor]? = some found →
    found.active.Perm (system.working executor) ∧
      found.taken.length + found.active.length ≤ workers

theorem Transition.unresolved {system next : System V} {move : Move V} {event : Option (Event V)}
    (transition : Transition system move event next) {handle : Handle}
    (known : system.state.Knows handle)
    (unresolved : (next.state.condition handle).isResolved = false) :
    (system.state.condition handle).isResolved = false := by
  have same := transition.outcome known
  simp only [Condition.isResolved, Option.isSome_eq_false_iff, Option.isNone_iff_eq_none]
    at unresolved ⊢
  rw [unresolved, Option.toList_none, List.append_eq_nil_iff] at same
  simpa using same.1

theorem Answer.closed {thread : Nat} {state next : State V} {closed : Option Nat × List Handle}
    (answer : Answer thread state .closePool closed next) : closed = state.closePool.1 := by
  cases answer
  rfl

/-- Whoever is in line at the executor in charge stays there while he is pending. -/
theorem Turn.waits {events : List (Event V)} {system next : System V} {move : Move V} {place : Nat}
    {before found : Executor} (turn : Turn events system next move place before found)
    {handle : Handle} (waits : handle ∈ before.line)
    (pending : system.state.condition handle = .pending)
    (later : next.state.condition handle = .pending) (known : system.state.Knows handle)
    (unclosed : ∀ thread outstanding, ⟨thread, .closePool, (some place, outstanding)⟩ ∉ events) :
    handle ∈ found.line := by
  cases turn with
  | stays | retires => exact waits
  | queues =>
      simp only [Executor.line, ← List.append_assoc]
      exact List.mem_append_left _ waits
  | empties other closed => exact absurd closed (unclosed _ _)
  | takes taken queue => simpa [Executor.line, queue] using waits
  | drops other taken settled =>
      refine Executor.mem_line_erase waits ?_
      rintro rfl
      exact settled pending
  | begins other taken running =>
      refine Executor.mem_line_erase waits ?_
      rintro rfl
      rw [running known] at later
      cases later

theorem Kept.mono {events more : List (Event V)} {system next : System V} {handle : Handle}
    (kept : Kept events system handle)
    (current : next.state.pool.current = system.state.pool.current)
    (queued : ∀ executor found, system.state.pool.current = some executor →
      system.state.pool.executors[executor]? = some found →
      (system.state.condition handle = .pending → handle ∈ found.line) →
      ∃ after, next.state.pool.executors[executor]? = some after ∧
        (next.state.condition handle = .pending → handle ∈ after.line)) :
    Kept (events ++ more) next handle := by
  rcases kept with ⟨thread, closed, happened, member⟩ | ⟨executor, found, serves, held, waits⟩
  · exact .inl ⟨thread, closed, List.mem_append_left _ happened, member⟩
  · obtain ⟨after, held, waits⟩ := queued executor found serves held waits
    exact .inr ⟨executor, after, current.trans serves, held, waits⟩

namespace Served

variable {workers : Nat} {events : List (Event V)} {system next : System V} {move : Move V}
  {event : Option (Event V)}

theorem submitted_next (served : Served workers events system)
    (serving : Serving events system next move event) :
    next.state.pool.submitted = submittedIn (exchanges (events ++ event.toList)) := by
  rw [exchanges_append, submittedIn_append, ← served.submitted]
  cases serving with
  | nothing quota other silent pool =>
      rw [pool]
      cases event with
      | none => simp
      | some happened => simp [submittedIn, (silent happened rfl).1]
  | submit quota current number pool => rw [pool]; rfl
  | openPool current pool | closePool pool | abandon closed pool | retire pool
  | take held queue free pool | drop held taken settled pool | begin held taken running pool =>
      rw [pool]
      exact (List.append_nil _).symm

theorem sized_next (served : Served workers events system)
    (serving : Serving events system next move event) : next.state.pool.workers = workers := by
  rw [← served.sized]
  cases serving with
  | nothing quota other silent pool | submit quota current number pool | openPool current pool
  | closePool pool | abandon closed pool | retire pool | take held queue free pool
  | drop held taken settled pool | begin held taken running pool =>
      simp [pool, Pool.updateExecutor]

/-- A move brings nobody to an executor, but for one that is submitted. -/
theorem line_next (served : Served workers events system)
    (serving : Serving events system next move event) {place : Nat} {found : Executor}
    (held : next.state.pool.executors[place]? = some found) :
    (next.begun place = [] ∧ found.line = []) ∨
    ∃ before, system.state.pool.executors[place]? = some before ∧
      (((next.begun place ++ found.line).Subperm (system.begun place ++ before.line) ∧
        found.line.Sublist before.line) ∨
      ∃ handle, handle.id = system.state.compilations.length ∧
        system.state.pool.current = some place ∧
        next.state.pool.submitted = system.state.pool.submitted ++ [handle] ∧
        next.begun place = system.begun place ∧ found.line = before.line ++ [handle]) := by
  rcases serving.turn held with ⟨beyond, rfl, same⟩ | ⟨before, held, turn⟩
  · exact .inl ⟨(same.begun place).trans (served.unopened place beyond), rfl⟩
  refine .inr ⟨before, held, ?_⟩
  cases turn with
  | stays other begun | retires other begun =>
      rw [begun]
      exact .inl ⟨.refl _, .refl _⟩
  | @queues handle other current number submitted same =>
      exact .inr ⟨handle, number, current, submitted, same.begun place,
        (List.append_assoc _ _ _).symm⟩
  | empties other closed same =>
      have fewer : (before.taken ++ []).Sublist before.line :=
        (List.nil_sublist before.queue).append_left _
      rw [same.begun]
      exact .inl ⟨(fewer.append_left _).subperm, fewer⟩
  | @takes handle rest taken queue free same =>
      have line : Executor.line ⟨rest, before.taken ++ [handle], before.active⟩ = before.line := by
        simp [Executor.line, queue]
      rw [line, same.begun]
      exact .inl ⟨.refl _, .refl _⟩
  | @drops handle other taken settled same =>
      have fewer : (before.taken.erase handle ++ before.queue).Sublist before.line :=
        List.erase_sublist.append_right _
      rw [same.begun]
      exact .inl ⟨(fewer.append_left _).subperm, fewer⟩
  | begins other taken running begun =>
      refine .inl ⟨List.Perm.subperm ?_, List.erase_sublist.append_right _⟩
      rw [begun, List.append_assoc]
      exact ((List.perm_cons_erase taken).symm.append_right before.queue).append_left _

theorem submitted_grows (served : Served workers events system)
    (serving : Serving events system next move event) :
    system.state.pool.submitted.Sublist next.state.pool.submitted := by
  rw [served.submitted, served.submitted_next serving, exchanges_append, submittedIn_append]
  exact List.sublist_append_left _ _

theorem lined_next (served : Served workers events system)
    (serving : Serving events system next move event) {place : Nat} {found : Executor}
    (held : next.state.pool.executors[place]? = some found) :
    found.line.Sublist next.state.pool.submitted := by
  rcases served.line_next serving held with ⟨-, empty⟩ |
    ⟨before, held, ⟨-, shorter⟩ | ⟨handle, -, -, submitted, -, longer⟩⟩
  · rw [empty]
    exact List.nil_sublist _
  · exact (shorter.trans (served.lined place before held)).trans (served.submitted_grows serving)
  · rw [longer, submitted]
    exact (served.lined place before held).append (.refl [handle])

theorem counted_next (served : Served workers events system)
    (serving : Serving events system next move event) {place : Nat} {found : Executor}
    (held : next.state.pool.executors[place]? = some found) :
    (next.begun place ++ found.line).Subperm next.state.pool.submitted := by
  rcases served.line_next serving held with ⟨nobody, empty⟩ |
    ⟨before, held, ⟨fewer, -⟩ | ⟨handle, -, -, submitted, same, longer⟩⟩
  · rw [nobody, empty]
    exact List.nil_subperm
  · exact (fewer.trans (served.counted place before held)).trans
      (served.submitted_grows serving).subperm
  · rw [same, longer, submitted, ← List.append_assoc]
    exact (served.counted place before held).append (.refl [handle])

theorem opened_next (served : Served workers events system)
    (serving : Serving events system next move event) {executor : Nat}
    (current : next.state.pool.current = some executor) :
    executor < next.state.pool.executors.length := by
  cases serving with
  | nothing quota other silent pool =>
      rw [pool] at current ⊢
      exact served.opened executor current
  | openPool free pool =>
      simp only [pool, Option.some.injEq] at current ⊢
      simp [current]
  | closePool pool => simp [pool] at current
  | submit quota serves number pool | abandon closed pool | retire pool | take held queue free pool
  | drop held taken settled pool | begin held taken running pool =>
      rw [pool] at current ⊢
      simpa using served.opened executor current

theorem closed_next (served : Served workers events system)
    (serving : Serving events system next move event) {thread executor : Nat}
    {outstanding : List Handle}
    (happened : ⟨thread, .closePool, (some executor, outstanding)⟩ ∈ events ++ event.toList) :
    executor < next.state.pool.executors.length ∧ next.state.pool.current ≠ some executor := by
  have old (member : ⟨thread, .closePool, (some executor, outstanding)⟩ ∈ events)
      (current : next.state.pool.current = system.state.pool.current) :
      executor < next.state.pool.executors.length ∧
        next.state.pool.current ≠ some executor := by
    obtain ⟨bound, different⟩ := served.closed thread executor outstanding member
    exact ⟨Nat.lt_of_lt_of_le bound serving.grows, current ▸ different⟩
  rw [List.mem_append] at happened
  cases serving with
  | nothing quota other silent pool =>
      rcases happened with before | now
      · exact old before (by rw [pool])
      · exact absurd rfl (silent _ (Option.mem_toList.mp now)).2
  | openPool free pool =>
      have before := happened.resolve_right (by simp)
      obtain ⟨bound, -⟩ := served.closed thread executor outstanding before
      rw [pool]
      refine ⟨by simp; omega, fun same => ?_⟩
      simp only [Option.some.injEq] at same
      omega
  | closePool pool =>
      rcases happened with before | now
      · obtain ⟨bound, -⟩ := served.closed thread executor outstanding before
        rw [pool]
        exact ⟨bound, by simp⟩
      · simp only [Option.toList_some, List.mem_singleton, Event.mk.injEq, Exchange.mk.injEq,
          heq_eq_eq, true_and, State.closePool, Prod.mk.injEq] at now
        rw [pool]
        exact ⟨served.opened executor now.2.1.symm, by simp⟩
  | submit quota serves number pool | abandon closed pool | retire pool | take held queue free pool
  | drop held taken settled pool | begin held taken running pool =>
      have before := happened.resolve_right (by simp)
      exact old before (by rw [pool]; rfl)

theorem kept_next (served : Served workers events system) (sound : Sound events system)
    (transition : Transition system move event next) (serving : Serving events system next move event)
    {handle : Handle} (member : handle ∈ next.state.pool.submitted)
    (unresolved : (next.state.condition handle).isResolved = false) :
    Kept (events ++ event.toList) next handle := by
  have known (member : handle ∈ system.state.pool.submitted) : system.state.Knows handle := by
    rw [served.submitted] at member
    exact sound.knows ((submittedIn_sublist_madeIn _).subset member)
  have kept (member : handle ∈ system.state.pool.submitted) : Kept events system handle :=
    served.kept handle member (transition.unresolved (known member) unresolved)
  have pending (member : handle ∈ system.state.pool.submitted)
      (later : next.state.condition handle = .pending) :
      system.state.condition handle = .pending := by
    by_contra begun
    exact transition.begun (known member) begun later
  -- The executor in charge is no other than before.
  have stays (member : handle ∈ system.state.pool.submitted)
      (current : next.state.pool.current = system.state.pool.current) :
      Kept (events ++ event.toList) next handle := by
    refine (kept member).mono current fun executor found serves held waits => ?_
    have bound := Nat.lt_of_lt_of_le (served.opened executor serves) serving.grows
    refine ⟨_, List.getElem?_eq_getElem bound, fun later => ?_⟩
    rcases serving.turn (List.getElem?_eq_getElem bound) with ⟨beyond, -⟩ | ⟨before, also, turn⟩
    · exact absurd (served.opened executor serves) (Nat.not_lt_of_le beyond)
    · cases held.symm.trans also
      refine turn.waits (waits (pending member later)) (pending member later) later (known member) ?_
      exact fun thread outstanding closed =>
        (served.closed thread executor outstanding closed).2 serves
  cases serving with
  | openPool free pool =>
      rw [pool] at member
      rcases kept member with ⟨thread, closed, happened, included⟩ | ⟨executor, found, serves, -⟩
      · exact .inl ⟨thread, closed, List.mem_append_left _ happened, included⟩
      · simp [free] at serves
  | closePool pool =>
      rw [pool] at member
      refine .inl ⟨_, _, List.mem_append_right _ (List.mem_singleton_self _), ?_⟩
      simp [State.closePool, member, transition.unresolved (known member) unresolved]
  | @submit _ thread source generation target executor quota serves number pool =>
      rw [pool] at member
      rcases List.mem_append.mp member with old | new
      · exact stays old (by rw [pool]; rfl)
      · rw [List.mem_singleton] at new
        subst target
        obtain ⟨found, held⟩ : ∃ found, system.state.pool.executors[executor]? = some found :=
          ⟨_, List.getElem?_eq_getElem (served.opened executor serves)⟩
        refine .inr ⟨executor, { found with queue := found.queue ++ [handle] }, ?_, ?_, ?_⟩
        · rw [pool]
          exact serves
        · simp [pool, Pool.getElem?_updateExecutor, held]
        · exact fun _ => by simp [Executor.line]
  | nothing quota other silent pool | abandon closed pool | retire pool | take held queue free pool
  | drop held taken settled pool | begin held taken running pool =>
      rw [pool] at member
      exact stays member (by simp [pool, Pool.updateExecutor])

theorem unopened_next (served : Served workers events system)
    (serving : Serving events system next move event) {place : Nat}
    (beyond : next.state.pool.executors.length ≤ place) : next.begun place = [] := by
  have before := served.unopened place (Nat.le_trans serving.grows beyond)
  cases serving with
  | nothing quota other silent pool same | submit quota serves number pool same
  | openPool free pool same | closePool pool same | abandon closed pool same
  | take held queue free pool same | drop held taken settled pool same =>
      rw [same.begun, before]
  | retire pool begun => rw [begun, before]
  | @begin executor found target held taken running pool begun =>
      have present := (List.getElem?_eq_some_iff.mp held).1
      have elsewhere : executor ≠ place := by
        rintro rfl
        simp only [pool, Pool.length_updateExecutor] at beyond
        omega
      rw [begun, before, if_neg elsewhere]
      rfl

theorem staffed_next (served : Served workers events system)
    (serving : Serving events system next move event) {place : Nat} {found : Executor}
    (held : next.state.pool.executors[place]? = some found) :
    found.active.Perm (next.working place) ∧
      found.taken.length + found.active.length ≤ workers := by
  rcases serving.turn held with ⟨beyond, rfl, same⟩ | ⟨before, held, turn⟩
  · have nobody := system.working_sublist_begun place
    rw [served.unopened place beyond, List.sublist_nil] at nobody
    simp [same.working, nobody]
  obtain ⟨staff, bound⟩ := served.staffed place before held
  cases turn with
  | stays other begun working => exact ⟨staff.trans working, bound⟩
  | queues other current number submitted same | empties other closed same =>
      rw [same.working]
      exact ⟨staff, bound⟩
  | takes taken queue free same =>
      rw [served.sized] at free
      rw [same.working]
      refine ⟨staff, ?_⟩
      simp only [List.length_append, List.length_singleton]
      omega
  | drops other taken settled same =>
      rw [same.working]
      exact ⟨staff, Nat.le_trans (Nat.add_le_add_right List.length_erase_le _) bound⟩
  | @begins handle other taken running begun working =>
      rw [working]
      refine ⟨staff.append_right [handle], ?_⟩
      have some := List.length_pos_of_mem taken
      rw [List.length_append, List.length_singleton, List.length_erase_of_mem taken]
      omega
  | @retires handle other begun working =>
      refine ⟨?_, Nat.le_trans (Nat.add_le_add_left List.length_erase_le _) bound⟩
      simpa using (staff.trans working).erase handle

/-- A handle comes to an executor only as it is submitted. -/
theorem placed_before (served : Served workers events system)
    (serving : Serving events system next move event) {handle : Handle} {place : Nat}
    (placed : next.Placed handle place) :
    system.Placed handle place ∨ handle.id = system.state.compilations.length ∧
      system.state.pool.current = some place := by
  obtain ⟨found, held, member⟩ := placed
  rcases served.line_next serving held with ⟨nobody, empty⟩ |
    ⟨before, held, ⟨fewer, -⟩ | ⟨target, number, serves, -, same, longer⟩⟩
  · rw [nobody, empty] at member
    cases member
  · exact .inl ⟨before, held, fewer.subset member⟩
  · rw [same, longer, ← List.append_assoc] at member
    rcases List.mem_append.mp member with old | new
    · exact .inl ⟨before, held, old⟩
    · rw [List.mem_singleton] at new
      exact .inr ⟨new ▸ number, serves⟩

theorem known_of_placed (served : Served workers events system) (sound : Sound events system)
    {handle : Handle} {place : Nat} (placed : system.Placed handle place) :
    system.state.Knows handle := by
  obtain ⟨found, held, member⟩ := placed
  have submitted := (served.counted place found held).subset member
  rw [served.submitted] at submitted
  exact sound.knows ((submittedIn_sublist_madeIn _).subset submitted)

theorem placed_next (served : Served workers events system) (sound : Sound events system)
    (serving : Serving events system next move event) {handle : Handle} {place other : Nat}
    (placed : next.Placed handle place) (also : next.Placed handle other) : place = other := by
  rcases served.placed_before serving placed with old | ⟨new, current⟩ <;>
    rcases served.placed_before serving also with older | ⟨newer, serves⟩
  · exact served.placed handle place other old older
  · have known := served.known_of_placed sound old
    exact absurd known (by simp [State.Knows, newer])
  · have known := served.known_of_placed sound older
    exact absurd known (by simp [State.Knows, new])
  · exact Option.some.inj (current.symm.trans serves)

theorem step (served : Served workers events system) (sound : Sound events system)
    (transition : Transition system move event next) (serving : Serving events system next move event) :
    Served workers (events ++ event.toList) next where
  sized := served.sized_next serving
  submitted := served.submitted_next serving
  opened _ current := served.opened_next serving current
  closed _ _ _ happened := served.closed_next serving happened
  kept _ member unresolved := served.kept_next sound transition serving member unresolved
  unopened _ beyond := served.unopened_next serving beyond
  lined _ _ held := served.lined_next serving held
  counted _ _ held := served.counted_next serving held
  placed _ _ _ placed also := served.placed_next sound serving placed also
  staffed _ _ held := served.staffed_next serving held

end Served

section Runs

variable {workers : Int} {pool : Pool} {evaluation : Evaluation} {moves : List (Move V)}
  {last : System V}

theorem served_of_run (created : Pool.create? workers = .ok pool)
    (reached : (initial pool evaluation).run moves = some last) :
    Served pool.workers ((initial pool evaluation).trace moves) last := by
  refine run_induction (motive := fun moves system =>
    Served pool.workers ((initial pool evaluation).trace moves) system) ?_ ?_ reached
  · simp only [Pool.create?] at created
    split at created
    · simp at created
    · cases created
      constructor <;> simp [initial, State.initial, begun, Placed]
  · intro moves middle move next reached before stepped
    rw [trace_concat reached stepped]
    exact before.step (sound_of_run created reached) (step_transition stepped)
      (serving_of_step reached stepped)

theorem knows_of_submitted (created : Pool.create? workers = .ok pool)
    (reached : (initial pool evaluation).run moves = some last) {handle : Handle}
    (submitted : handle ∈ last.state.pool.submitted) : last.state.Knows handle := by
  rw [(served_of_run created reached).submitted] at submitted
  exact (sound_of_run created reached).knows ((submittedIn_sublist_madeIn _).subset submitted)

theorem compiled_once (created : Pool.create? workers = .ok pool)
    (reached : (initial pool evaluation).run moves = some last) (handle : Handle) :
    (compiledIn handle (exchanges ((initial pool evaluation).trace moves))).length ≤ 1 := by
  refine run_induction (motive := fun moves _ =>
    (compiledIn handle (exchanges ((initial pool evaluation).trace moves))).length ≤ 1)
    (by simp) ?_ reached
  intro moves middle move next reached before stepped
  rw [trace_concat reached stepped, exchanges_append, compiledIn_append]
  cases event : middle.event? move with
  | none => simpa using before
  | some happened =>
      rw [Option.toList_some, exchanges_single]
      cases compiled : happened.exchange.compiled? handle with
      | none =>
          rw [compiledIn_single_none compiled, List.append_nil]
          exact before
      | some result =>
          have lawful := lawful_of_event? reached stepped happened event
          obtain ⟨target, same, works, fresh⟩ := lawful.compiled compiled
          have unworked := (sound_of_run created reached).own _ target works
          rw [compiledIn_of_id_eq same, compiledIn_of_id_eq same, fresh] at unworked
          rw [unworked]
          simp [compiledIn, compiled]

/-- Whoever is inside a compilation is the worker of its handle, and has not been there before. -/
theorem inside_of_run (created : Pool.create? workers = .ok pool)
    (reached : (initial pool evaluation).run moves = some last) {index : Nat} {duty : Duty}
    {handle : Handle} {rest : Except Failure V × List LogRecord → Program V (Result V)}
    (found : last.threads[index]? = some ⟨duty, .step (.compile handle) rest⟩) :
    last.Works index handle ∧
      compiledIn handle (exchanges ((initial pool evaluation).trace moves)) = [] := by
  have rule := (thread_keeps reached found (duty_keeps duty)).1
  cases duty with
  | call call => exact rule.elim
  | job executor target =>
      obtain ⟨rfl, fresh⟩ := rule
      have works : last.Works index handle := ⟨executor, _, found⟩
      exact ⟨works, ((sound_of_run created reached).own index handle works).trans fresh⟩

/-- A worker that a handle has not found while it was pending never comes. -/
theorem works_of_run {first : System V} {later : List (Move V)}
    (continued : first.run later = some last) {handle : Handle} (known : first.state.Knows handle)
    (begun : first.state.condition handle ≠ .pending) {index : Nat}
    (works : last.Works index handle) : first.Works index handle := by
  have both : (last.Works index handle → first.Works index handle) ∧
      last.state.condition handle ≠ .pending := by
    refine run_induction (motive := fun _ system =>
      (system.Works index handle → first.Works index handle) ∧
        system.state.condition handle ≠ .pending) ⟨id, begun⟩ ?_ continued
    intro later middle move next reached before stepped
    have transition := step_transition stepped
    refine ⟨fun works => ?_, transition.begun (knows_of_run known reached) before.2⟩
    rcases transition.works works with old | ⟨-, -, -, pending, -⟩
    · exact before.1 old
    · exact absurd pending before.2
  exact both.1 works

theorem Served.nobody_works {events : List (Event V)} {size : Nat}
    (served : Served size events last) (sound : Sound events last) {handle : Handle}
    (waits : last.state.pool.Queues handle) (index : Nat) : ¬ last.Works index handle := by
  rintro ⟨place, program, working⟩
  obtain ⟨found, member, queued⟩ := waits
  obtain ⟨executor, held⟩ := List.mem_iff_getElem?.mp member
  have begun : handle ∈ last.begun place := mem_begun.mpr ⟨index, program, working⟩
  have opened : place < last.state.pool.executors.length := by
    by_contra beyond
    rw [served.unopened place (Nat.le_of_not_lt beyond)] at begun
    cases begun
  have here : last.Placed handle executor := ⟨found, held, List.mem_append_right _ queued⟩
  have there : last.Placed handle place :=
    ⟨_, List.getElem?_eq_getElem opened, List.mem_append_left _ begun⟩
  -- It would have to be in line and in the hands of a worker of the same executor.
  obtain rfl := served.placed handle executor place here there
  obtain ⟨counted, same, fewer⟩ := served.counted executor found held
  have distinct : last.state.pool.submitted.Nodup := by
    rw [served.submitted]
    exact List.Nodup.of_map _ (sound.nodup (submittedIn_sublist_madeIn _))
  have apart := List.nodup_append.mp (same.nodup_iff.mp (distinct.sublist fewer))
  exact apart.2.2 handle begun handle queued rfl

/-- What a pool had to withdraw as it was stopped, and has been dealt with, has resolved. -/
theorem resolved_of_stopped (created : Pool.create? workers = .ok pool)
    (reached : (initial pool evaluation).run moves = some last) {thread : Nat} {closes : Bool}
    (discharged : Discharged closes (exchangesOf thread ((initial pool evaluation).trace moves)))
    {closed : Option Nat × List Handle}
    (happened : ⟨thread, .closePool, closed⟩ ∈ (initial pool evaluation).trace moves)
    {handle : Handle} (included : handle ∈ closed.2) :
    (last.state.condition handle).isResolved = true := by
  refine resolved_of_discharged reached discharged happened included fun cut => ?_
  rw [cut.answer.closed] at included
  have submitted := (List.mem_filter.mp included).1
  exact knows_of_submitted created cut.reached submitted

theorem Settled.resolved_of_closed (settled : last.Settled)
    (created : Pool.create? workers = .ok pool)
    (reached : (initial pool evaluation).run moves = some last) {thread : Nat}
    {closed : Option Nat × List Handle}
    (happened : ⟨thread, .closePool, closed⟩ ∈ (initial pool evaluation).trace moves)
    {handle : Handle} (included : handle ∈ closed.2) :
    (last.state.condition handle).isResolved = true := by
  have present := thread_lt_of_mem_trace reached _ happened
  have unburdened := settled.unburdened reached (List.getElem?_eq_getElem present)
  exact resolved_of_stopped created reached unburdened.discharged happened included

/-- In a settled system every job that was taken has been begun. -/
theorem Settled.taken_eq_nil (settled : last.Settled) {executor : Nat} {found : Executor}
    (held : last.state.pool.executors[executor]? = some found) : found.taken = [] := by
  cases taken : found.taken with
  | nil => rfl
  | cons front rest =>
      have holds : last.state.pool.holds executor front = true :=
        Pool.holds_iff.mpr ⟨found, held, by simp [taken]⟩
      have unbegun := settled.unbegun executor front
      cases condition : last.state.condition front <;>
        simp [System.step, State.begin?, holds, condition] at unbegun

/-- In a settled system every job that keeps a worker is inside its compilation. -/
theorem Settled.compiling_eq_working (settled : last.Settled)
    (reached : (initial pool evaluation).run moves = some last) (executor : Nat) :
    last.compiling executor = last.working executor := by
  refine List.filterMap_congr fun thread member => ?_
  obtain ⟨index, found⟩ := List.mem_iff_getElem?.mp member
  obtain ⟨duty, program⟩ := thread
  cases program with
  | done result => rfl
  | step instruction rest =>
      have waits := settled.waits found
      have rule := (thread_keeps reached found (duty_keeps duty)).1
      cases duty with
      | call call => cases instruction <;> rfl
      | job place handle =>
          cases waits with
          | compiler => rfl
          | _ => exact rule.elim

/-- Whatever is pending in a settled system waits for workers that are all inside a compilation. -/
theorem Settled.workers_busy (settled : last.Settled)
    (created : Pool.create? workers = .ok pool)
    (reached : (initial pool evaluation).run moves = some last) {handle : Handle}
    (submitted : handle ∈ submittedIn (exchanges ((initial pool evaluation).trace moves)))
    (pending : last.state.condition handle = .pending) :
    ∃ executor, last.state.pool.current = some executor ∧
      (last.compiling executor).length = pool.workers := by
  have served := served_of_run created reached
  have unresolved : (last.state.condition handle).isResolved = false := by rw [pending]; rfl
  rcases served.kept handle (served.submitted ▸ submitted) unresolved with
    ⟨thread, closed, happened, included⟩ | ⟨executor, found, current, held, waits⟩
  · rw [settled.resolved_of_closed created reached happened included] at unresolved
    cases unresolved
  · refine ⟨executor, current, ?_⟩
    obtain ⟨staff, bound⟩ := served.staffed executor found held
    have taken := settled.taken_eq_nil held
    have queued : handle ∈ found.queue := by simpa [Executor.line, taken] using waits pending
    have full : ¬ found.taken.length + found.active.length < last.state.pool.workers := by
      intro free
      obtain ⟨front, rest, queue⟩ := List.exists_cons_of_ne_nil (List.ne_nil_of_mem queued)
      have next : last.state.pool.next? executor = some front := by
        simp [Pool.next?, held, free, queue]
      have untaken := settled.untaken executor
      simp [System.step, State.take?, next] at untaken
    rw [served.sized] at full
    rw [settled.compiling_eq_working reached, ← staff.length_eq]
    simp only [taken, List.length_nil] at full bound
    omega

end Runs

end System

end Schematron.Engine

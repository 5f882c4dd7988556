import Mathlib.Data.List.Nodup
import Schematron.Proofs.Engine.States

/-!
Workers: what holds between the handles of a system, the workers that compile them and what all
threads have done. Main statement: in every run each handle has one worker at most, and what it has
resolved to is what its worker's only compilation came to, unless it was withdrawn.
-/

namespace Schematron.Engine

open Program

variable {V : Type}

def resolutionsIn (handle : Handle) (past : List (Exchange V)) : List (Outcome V) :=
  past.filterMap (Exchange.resolution? handle)

@[simp] theorem resolutionsIn_nil (handle : Handle) :
    resolutionsIn handle ([] : List (Exchange V)) = [] := rfl

@[simp] theorem resolutionsIn_append (handle : Handle) (first second : List (Exchange V)) :
    resolutionsIn handle (first ++ second) =
      resolutionsIn handle first ++ resolutionsIn handle second := by
  simp [resolutionsIn]

theorem resolutionsIn_single (handle : Handle) (exchange : Exchange V) :
    resolutionsIn handle [exchange] = (exchange.resolution? handle).toList := by
  cases found : exchange.resolution? handle <;> simp [resolutionsIn, found]

def madeIn (past : List (Exchange V)) : List Handle := past.filterMap Exchange.made?

@[simp] theorem madeIn_nil : madeIn ([] : List (Exchange V)) = [] := rfl

@[simp] theorem madeIn_append (first second : List (Exchange V)) :
    madeIn (first ++ second) = madeIn first ++ madeIn second := by
  simp [madeIn]

theorem madeIn_single (exchange : Exchange V) : madeIn [exchange] = exchange.made?.toList := by
  cases found : exchange.made? <;> simp [madeIn, found]

theorem Exchange.resolution?_of_made {exchange : Exchange V} {target : Handle}
    (made : exchange.made? = some target) (handle : Handle) :
    exchange.resolution? handle = none := by
  obtain ⟨instruction, reply⟩ := exchange
  cases instruction with
  | create | submit => rfl
  | _ => simp [made?] at made

namespace System

def Works (system : System V) (index : Nat) (handle : Handle) : Prop :=
  ∃ executor program, system.threads[index]? = some ⟨.job executor handle, program⟩

theorem Transition.works {system next : System V} {move : Move V} {event : Option (Event V)}
    (transition : Transition system move event next) {index : Nat} {handle : Handle}
    (works : next.Works index handle) :
    system.Works index handle ∨
      (index = system.threads.length ∧ event = none ∧ system.state.pool.Queues handle ∧
        system.state.condition handle = .pending ∧
        (system.state.Knows handle → next.state.condition handle = .running)) := by
  obtain ⟨executor, program, found⟩ := works
  rcases transition.thread found with ⟨old, -⟩ | ⟨new, silent, -⟩ | ⟨_, _, _, old, -, -⟩
  · exact .inl ⟨executor, program, old⟩
  · cases transition with
    | call call => simp [spawn, new, Thread.ofDuty] at found
    | begin begun =>
        simp only [spawn, new, List.getElem?_concat_length, Option.some.injEq, Thread.ofDuty,
          Thread.mk.injEq, Duty.job.injEq] at found
        obtain ⟨⟨-, rfl⟩, -⟩ := found
        obtain ⟨queued, pending, pool, rfl, -⟩ := State.begin?_starts begun
        refine .inr ⟨new, silent, queued, pending, fun known => ?_⟩
        exact (State.condition_update _ _ _ _).trans (if_pos ⟨rfl, known⟩)
    | answer => simp at silent
    | _ => exact .inl ⟨executor, program, found⟩
  · exact .inl ⟨executor, _, old⟩

theorem Works.later {system next : System V} {move : Move V} {event : Option (Event V)}
    {index : Nat} {handle : Handle} (works : system.Works index handle)
    (transition : Transition system move event next) : next.Works index handle := by
  obtain ⟨executor, program, found⟩ := works
  obtain ⟨⟨duty, later⟩, held, same⟩ := transition.duty found
  simp only at same
  subst same
  exact ⟨executor, later, held⟩

/-! What one move does to the handles -/

section Moves

variable {system next : System V} {move : Move V} {event : Option (Event V)}

theorem Transition.condition (transition : Transition system move event next) (handle : Handle) :
    (resolutionsIn handle (exchanges event.toList) = [] ∧
      (next.state.condition handle = system.state.condition handle ∨
        system.state.condition handle = .pending ∧ next.state.condition handle = .running)) ∨
    ∃ outcome, resolutionsIn handle (exchanges event.toList) = [outcome] ∧
      (system.state.condition handle).isResolved = false ∧
      (system.state.Knows handle → next.state.condition handle = .resolved outcome) := by
  cases transition with
  | @answer _ index thread instruction rest reply state found program answer =>
      have changes := answer.condition handle
      simp only [Option.toList_some, exchanges_single, resolutionsIn_single]
      cases resolution : Exchange.resolution? handle ⟨instruction, reply⟩ with
      | none =>
          rw [resolution] at changes
          exact .inl ⟨rfl, .inl changes⟩
      | some outcome =>
          rw [resolution] at changes
          exact .inr ⟨outcome, rfl, changes⟩
  | take taken =>
      obtain ⟨pool, rfl, -⟩ := State.take?_queues taken
      exact .inl ⟨rfl, .inl rfl⟩
  | drop begun =>
      obtain ⟨pool, rfl, -⟩ := State.begin?_drops begun
      exact .inl ⟨rfl, .inl rfl⟩
  | @begin executor target state begun =>
      obtain ⟨-, pending, pool, rfl, -⟩ := State.begin?_starts begun
      refine .inl ⟨rfl, ?_⟩
      have changed := system.state.condition_update target handle
        ⟨.running, (system.state.compilation target).callbacks⟩
      split at changed
      next matched =>
        rw [system.state.condition_of_id_eq matched.1] at pending
        exact .inr ⟨pending, changed⟩
      next => exact .inl changed
  | _ => exact .inl ⟨rfl, .inl rfl⟩

theorem Transition.made (transition : Transition system move event next) :
    (madeIn (exchanges event.toList) = [] ∧
      next.state.compilations.length = system.state.compilations.length) ∨
    ∃ handle, madeIn (exchanges event.toList) = [handle] ∧
      handle.id = system.state.compilations.length ∧
      next.state.compilations.length = system.state.compilations.length + 1 := by
  cases transition with
  | @answer _ index thread instruction rest reply state found program answer =>
      have numbered := answer.made
      simp only [Option.toList_some, exchanges_single, madeIn_single]
      cases made : Exchange.made? ⟨instruction, reply⟩ with
      | none =>
          rw [made] at numbered
          exact .inl ⟨rfl, numbered⟩
      | some handle =>
          rw [made] at numbered
          exact .inr ⟨handle, rfl, numbered⟩
  | take taken =>
      obtain ⟨pool, rfl, -⟩ := State.take?_queues taken
      exact .inl ⟨rfl, rfl⟩
  | drop begun =>
      obtain ⟨pool, rfl, -⟩ := State.begin?_drops begun
      exact .inl ⟨rfl, rfl⟩
  | begin begun =>
      obtain ⟨-, -, pool, rfl, -⟩ := State.begin?_starts begun
      exact .inl ⟨rfl, by simp [spawn, State.update]⟩
  | _ => exact .inl ⟨rfl, rfl⟩

theorem Transition.queues (transition : Transition system move event next) {handle : Handle}
    (queues : next.state.pool.Queues handle) :
    system.state.pool.Queues handle ∨ handle ∈ madeIn (exchanges event.toList) := by
  cases transition with
  | @answer _ index thread instruction rest reply state found program answer =>
      refine (answer.queues queues).imp_right fun made => ?_
      simp [madeIn_single, made]
  | take taken =>
      obtain ⟨pool, rfl, fewer⟩ := State.take?_queues taken
      exact .inl (fewer handle queues)
  | drop begun =>
      obtain ⟨pool, rfl, fewer⟩ := State.begin?_drops begun
      exact .inl (fewer handle queues)
  | begin begun =>
      obtain ⟨-, -, pool, rfl, fewer⟩ := State.begin?_starts begun
      exact .inl (fewer handle queues)
  | _ => exact .inl queues

theorem Transition.knows (transition : Transition system move event next) {handle : Handle}
    (known : system.state.Knows handle) : next.state.Knows handle := by
  simp only [State.Knows] at known ⊢
  rcases transition.made with ⟨-, same⟩ | ⟨_, -, -, longer⟩ <;> omega

theorem Transition.begun (transition : Transition system move event next) {handle : Handle}
    (known : system.state.Knows handle) (begun : system.state.condition handle ≠ .pending) :
    next.state.condition handle ≠ .pending := by
  rcases transition.condition handle with ⟨-, same | ⟨pending, -⟩⟩ | ⟨outcome, -, -, resolved⟩
  · rwa [same]
  · exact absurd pending begun
  · rw [resolved known]
    simp

end Moves

/-! What holds between handles and workers in every run -/

theorem compiledIn_of_id_eq {handle other : Handle} (same : handle.id = other.id)
    (past : List (Exchange V)) : compiledIn handle past = compiledIn other past := by
  have alike : Exchange.compiled? (V := V) handle = Exchange.compiled? other := by
    funext exchange
    simp only [Exchange.compiled?, same]
  rw [compiledIn, alike, compiledIn]

def Lawful (events : List (Event V)) (system : System V) (event : Event V) : Prop :=
  ∃ duty rest, system.threads[event.thread]? = some ⟨duty, .step event.exchange.instruction rest⟩ ∧
    duty.rule (exchangesOf event.thread events) event.exchange.instruction

theorem Lawful.compiled {events : List (Event V)} {system : System V} {event : Event V}
    (lawful : Lawful events system event) {handle : Handle} {result : Except Failure V}
    (compiled : event.exchange.compiled? handle = some result) :
    ∃ target, target.id = handle.id ∧ system.Works event.thread target ∧
      compiledIn handle (exchangesOf event.thread events) = [] := by
  obtain ⟨thread, instruction, reply⟩ := event
  obtain ⟨duty, rest, found, rule⟩ := lawful
  cases instruction with
  | compile target =>
      simp only [Exchange.compiled?, Option.ite_none_right_eq_some] at compiled
      cases duty with
      | call call => exact rule.elim
      | job executor worked =>
          obtain ⟨rfl, fresh⟩ := rule
          rw [compiledIn_of_id_eq compiled.1] at fresh
          exact ⟨target, compiled.1, ⟨executor, _, found⟩, fresh⟩
  | _ => simp [Exchange.compiled?] at compiled

/-- A handle is withdrawn, or its worker resolves it as its compilation came out. -/
theorem Lawful.resolution {events : List (Event V)} {system : System V} {event : Event V}
    (lawful : Lawful events system event) {handle : Handle} {outcome : Outcome V}
    (resolution : event.exchange.resolution? handle = some outcome) :
    (∃ isSuperseded, outcome = .withdrawn isSuperseded) ∨
    ∃ target result, target.id = handle.id ∧ system.Works event.thread target ∧
      compiledIn target (exchangesOf event.thread events) = [result] ∧
      Outcome.ofCompiled target result = some outcome := by
  obtain ⟨thread, instruction, reply⟩ := event
  obtain ⟨duty, rest, found, rule⟩ := lawful
  cases instruction with
  | resolve target given =>
      cases reply with
      | none => simp [Exchange.resolution?] at resolution
      | some callbacks =>
          simp only [Exchange.resolution?, Option.ite_none_right_eq_some,
            Option.some.injEq] at resolution
          obtain ⟨same, rfl⟩ := resolution
          cases duty with
          | call call => exact .inl rule
          | job executor worked =>
              obtain ⟨rfl, result, compiled, ended⟩ := rule
              exact .inr ⟨target, result, same, ⟨executor, _, found⟩, compiled, ended⟩
  | _ => simp [Exchange.resolution?] at resolution

/-- What holds between the handles of a system and what its threads have done so far. -/
structure Sound (events : List (Event V)) (system : System V) : Prop where
  numbered : (madeIn (exchanges events)).map (·.id) = List.range system.state.compilations.length
  queued : ∀ handle, system.state.pool.Queues handle → handle ∈ madeIn (exchanges events)
  begun : ∀ index handle, system.Works index handle →
    handle ∈ madeIn (exchanges events) ∧ system.state.condition handle ≠ .pending
  alone : ∀ index other handle target, system.Works index handle → system.Works other target →
    handle.id = target.id → index = other
  -- Nobody but its worker has compiled a handle.
  own : ∀ index handle, system.Works index handle →
    compiledIn handle (exchanges events) = compiledIn handle (exchangesOf index events)
  worked : ∀ handle, compiledIn handle (exchanges events) ≠ [] →
    ∃ index target, target.id = handle.id ∧ system.Works index target
  ended : ∀ handle ∈ madeIn (exchanges events), ∀ outcome,
    system.state.condition handle = .resolved outcome →
    (∃ isSuperseded, outcome = .withdrawn isSuperseded) ∨
    ∃ result, compiledIn handle (exchanges events) = [result] ∧
      Outcome.ofCompiled handle result = some outcome

namespace Sound

variable {events : List (Event V)} {system next : System V} {move : Move V}
  {event : Option (Event V)}

theorem knows (sound : Sound events system) {handle : Handle}
    (made : handle ∈ madeIn (exchanges events)) : system.state.Knows handle := by
  have member : handle.id ∈ (madeIn (exchanges events)).map (·.id) :=
    List.mem_map.mpr ⟨handle, made, rfl⟩
  rw [sound.numbered] at member
  exact List.mem_range.mp member

theorem eq_of_id_eq (sound : Sound events system) {handle other : Handle}
    (made : handle ∈ madeIn (exchanges events)) (also : other ∈ madeIn (exchanges events))
    (same : handle.id = other.id) : handle = other := by
  have distinct : ((madeIn (exchanges events)).map (·.id)).Nodup := by
    rw [sound.numbered]
    exact List.nodup_range
  exact List.inj_on_of_nodup_map distinct made also same

theorem nodup (sound : Sound events system) {handles : List Handle}
    (made : handles.Sublist (madeIn (exchanges events))) : (handles.map (·.id)).Nodup := by
  refine (made.map (·.id)).nodup ?_
  rw [sound.numbered]
  exact List.nodup_range

theorem numbered_next (sound : Sound events system)
    (transition : Transition system move event next) :
    (madeIn (exchanges (events ++ event.toList))).map (·.id) =
      List.range next.state.compilations.length := by
  rw [exchanges_append, madeIn_append, List.map_append, sound.numbered]
  rcases transition.made with ⟨nothing, same⟩ | ⟨handle, made, number, longer⟩
  · simp [nothing, same]
  · simp [made, number, longer, List.range_succ]

theorem begun_next (sound : Sound events system)
    (transition : Transition system move event next) {index : Nat} {handle : Handle}
    (works : next.Works index handle) :
    handle ∈ madeIn (exchanges (events ++ event.toList)) ∧
      next.state.condition handle ≠ .pending := by
  rw [exchanges_append, madeIn_append]
  rcases transition.works works with old | ⟨-, -, queued, -, running⟩
  · obtain ⟨made, begun⟩ := sound.begun index handle old
    exact ⟨List.mem_append_left _ made, transition.begun (sound.knows made) begun⟩
  · have made := sound.queued handle queued
    refine ⟨List.mem_append_left _ made, ?_⟩
    rw [running (sound.knows made)]
    simp

theorem alone_next (sound : Sound events system)
    (transition : Transition system move event next) {index other : Nat} {handle target : Handle}
    (works : next.Works index handle) (also : next.Works other target)
    (same : handle.id = target.id) : index = other := by
  rcases transition.works works with old | ⟨new, -, -, pending, -⟩ <;>
    rcases transition.works also with older | ⟨newer, -, -, pendingToo, -⟩
  · exact sound.alone index other handle target old older same
  · rw [← system.state.condition_of_id_eq same] at pendingToo
    exact absurd pendingToo (sound.begun index handle old).2
  · rw [system.state.condition_of_id_eq same] at pending
    exact absurd pending (sound.begun other target older).2
  · exact new.trans newer.symm

theorem own_next (sound : Sound events system)
    (transition : Transition system move event next)
    (lawful : ∀ happened, event = some happened → Lawful events system happened)
    (beyond : ∀ index, system.threads.length ≤ index → exchangesOf index events = [])
    {index : Nat} {handle : Handle} (works : next.Works index handle) :
    compiledIn handle (exchanges (events ++ event.toList)) =
      compiledIn handle (exchangesOf index (events ++ event.toList)) := by
  rw [exchanges_append, exchangesOf_append, compiledIn_append, compiledIn_append]
  rcases transition.works works with old | ⟨new, silent, -, pending, -⟩
  · rw [sound.own index handle old]
    congr 1
    cases event with
    | none => rfl
    | some happened =>
        rw [Option.toList_some, exchanges_single]
        by_cases same : happened.thread = index
        · rw [← same, exchangesOf_single_self]
        · rw [exchangesOf_single_other same, compiledIn_nil]
          cases compiled : happened.exchange.compiled? handle with
          | none => exact compiledIn_single_none compiled
          | some result =>
              obtain ⟨target, alike, worksToo, -⟩ := (lawful happened rfl).compiled compiled
              exact absurd (sound.alone _ _ _ _ worksToo old alike) same
  · rw [silent, beyond index (Nat.le_of_eq new.symm)]
    have unworked : compiledIn handle (exchanges events) = [] := by
      by_contra compiled
      obtain ⟨other, target, same, works⟩ := sound.worked handle compiled
      have begun := (sound.begun other target works).2
      rw [system.state.condition_of_id_eq same] at begun
      exact begun pending
    simp [unworked]

theorem worked_next (sound : Sound events system)
    (transition : Transition system move event next)
    (lawful : ∀ happened, event = some happened → Lawful events system happened) {handle : Handle}
    (compiled : compiledIn handle (exchanges (events ++ event.toList)) ≠ []) :
    ∃ index target, target.id = handle.id ∧ next.Works index target := by
  rw [exchanges_append, compiledIn_append] at compiled
  by_cases before : compiledIn handle (exchanges events) = []
  · cases event with
    | none => simp [before] at compiled
    | some happened =>
        cases result : happened.exchange.compiled? handle with
        | none => simp [before, compiledIn_single_none result] at compiled
        | some outcome =>
            obtain ⟨target, same, works, -⟩ := (lawful happened rfl).compiled result
            exact ⟨_, target, same, works.later transition⟩
  · obtain ⟨index, target, same, works⟩ := sound.worked handle before
    exact ⟨index, target, same, works.later transition⟩

theorem compiled_next (sound : Sound events system)
    (lawful : ∀ happened, event = some happened → Lawful events system happened) {handle : Handle}
    {result : Except Failure V} (compiled : compiledIn handle (exchanges events) = [result]) :
    compiledIn handle (exchanges (events ++ event.toList)) = [result] := by
  rw [exchanges_append, compiledIn_append, compiled]
  cases event with
  | none => rfl
  | some happened =>
      cases again : happened.exchange.compiled? handle with
      | none => simp [compiledIn_single_none again]
      | some outcome =>
          obtain ⟨target, same, works, fresh⟩ := (lawful happened rfl).compiled again
          rw [← compiledIn_of_id_eq same, ← sound.own _ target works, compiledIn_of_id_eq same,
            compiled] at fresh
          simp at fresh

theorem ended_next (sound : Sound events system)
    (transition : Transition system move event next)
    (lawful : ∀ happened, event = some happened → Lawful events system happened) {handle : Handle}
    (made : handle ∈ madeIn (exchanges (events ++ event.toList))) {outcome : Outcome V}
    (resolved : next.state.condition handle = .resolved outcome) :
    (∃ isSuperseded, outcome = .withdrawn isSuperseded) ∨
    ∃ result, compiledIn handle (exchanges (events ++ event.toList)) = [result] ∧
      Outcome.ofCompiled handle result = some outcome := by
  rw [exchanges_append, madeIn_append, List.mem_append] at made
  rcases made with made | new
  · rcases transition.condition handle with ⟨-, same | ⟨-, running⟩⟩ | ⟨given, given', -, settles⟩
    · rw [same] at resolved
      refine (sound.ended handle made outcome resolved).imp_right ?_
      rintro ⟨result, compiled, ended⟩
      exact ⟨result, sound.compiled_next lawful compiled, ended⟩
    · simp [running] at resolved
    · rw [settles (sound.knows made), Condition.resolved.injEq] at resolved
      subst outcome
      cases event with
      | none => simp at given'
      | some happened =>
          rw [Option.toList_some, exchanges_single, resolutionsIn_single,
            Option.toList_eq_singleton_iff] at given'
          refine ((lawful happened rfl).resolution given').imp_right ?_
          rintro ⟨target, result, same, works, compiled, ended⟩
          have same := sound.eq_of_id_eq (sound.begun _ target works).1 made same
          subst same
          rw [← sound.own _ target works] at compiled
          exact ⟨result, sound.compiled_next lawful compiled, ended⟩
  · rcases transition.made with ⟨nothing, -⟩ | ⟨target, made, number, -⟩
    · simp [nothing] at new
    · rw [made, List.mem_singleton] at new
      subst target
      have unknown : ¬ system.state.Knows handle := by simp [State.Knows, number]
      have pending := State.condition_of_not_knows unknown
      -- Nobody can have resolved a handle at the very move that makes it.
      rcases transition.condition handle with ⟨-, same | ⟨-, running⟩⟩ | ⟨given, given', -, -⟩
      · simp [same, pending] at resolved
      · simp [running] at resolved
      · cases event with
        | none => simp at given'
        | some happened =>
            rw [Option.toList_some, exchanges_single, resolutionsIn_single,
              Option.toList_eq_singleton_iff] at given'
            rw [Option.toList_some, exchanges_single, madeIn_single,
              Option.toList_eq_singleton_iff] at made
            simp [Exchange.resolution?_of_made made handle] at given'

theorem step (sound : Sound events system) (transition : Transition system move event next)
    (lawful : ∀ happened, event = some happened → Lawful events system happened)
    (beyond : ∀ index, system.threads.length ≤ index → exchangesOf index events = []) :
    Sound (events ++ event.toList) next where
  numbered := sound.numbered_next transition
  queued handle queues := by
    rw [exchanges_append, madeIn_append, List.mem_append]
    exact (transition.queues queues).imp_left (sound.queued handle)
  begun index handle works := sound.begun_next transition works
  alone index other handle target works also same := sound.alone_next transition works also same
  own index handle works := sound.own_next transition lawful beyond works
  worked handle compiled := sound.worked_next transition lawful compiled
  ended handle made outcome resolved := sound.ended_next transition lawful made resolved

end Sound

section Runs

variable {workers : Int} {pool : Pool} {evaluation : Evaluation} {moves : List (Move V)}
  {last : System V}

theorem lawful_of_event? {middle next : System V} {move : Move V}
    (reached : (initial pool evaluation).run moves = some middle)
    (stepped : middle.step move = some next) (event : Event V)
    (happens : middle.event? move = some event) :
    Lawful ((initial pool evaluation).trace moves) middle event :=
  event_rule reached stepped happens

theorem sound_of_run (created : Pool.create? workers = .ok pool)
    (run : (initial pool evaluation).run moves = some last) :
    Sound ((initial pool evaluation).trace moves) last := by
  refine run_induction (motive := fun moves system =>
    Sound ((initial pool evaluation).trace moves) system) ?_ ?_ run
  · have unworked (index : Nat) (handle : Handle) :
        ¬ Works (initial pool evaluation : System V) index handle := by
      simp [Works, initial]
    refine ⟨rfl, fun handle queues => ?_, fun index handle works => ?_,
      fun index _ handle _ works => ?_, fun index handle works => ?_,
      fun handle compiled => ?_, fun handle made => ?_⟩
    · simp only [Pool.create?] at created
      split at created
      · simp at created
      · cases created
        simp [Pool.Queues, initial, State.initial] at queues
    · exact absurd works (unworked index handle)
    · exact absurd works (unworked index handle)
    · exact absurd works (unworked index handle)
    · simp at compiled
    · simp at made
  · intro moves middle move next reached before stepped
    rw [trace_concat reached stepped]
    exact before.step (step_transition stepped) (lawful_of_event? reached stepped)
      fun index => exchangesOf_trace_eq_nil reached

end Runs

end System

end Schematron.Engine

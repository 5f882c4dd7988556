import Schematron.Proofs.Engine.Workers

/-!
Provenance: where the outcome of a handle comes from. Main statement: whatever has resolved was
withdrawn by a caller, or resolved by its worker as its own compilation came out.
-/

namespace Schematron.Engine

variable {V : Type}

namespace System

/-- A condition changes as a worker begins with a handle, and as the handle is given an outcome. -/
theorem Transition.changes {system next : System V} {move : Move V} {event : Option (Event V)}
    (transition : Transition system move event next) (handle : Handle) :
    next.state.condition handle = system.state.condition handle ∨
    (∃ index target, target.id = handle.id ∧ next.Works index target ∧
      next.state.condition handle = .running) ∨
    ∃ happened outcome, event = some happened ∧
      happened.exchange.resolution? handle = some outcome ∧
      next.state.condition handle = .resolved outcome := by
  cases transition with
  | @answer _ index thread instruction rest reply state found program answer =>
      have changed := answer.condition handle
      cases resolution : Exchange.resolution? handle ⟨instruction, reply⟩ with
      | none =>
          rw [resolution] at changed
          exact .inl changed
      | some outcome =>
          rw [resolution] at changed
          by_cases known : system.state.Knows handle
          · exact .inr (.inr ⟨_, outcome, rfl, resolution, changed.2 known⟩)
          · -- Nothing is kept about a handle that was never made.
            cases answer with
            | resolve given unresolved =>
                refine .inl ((State.condition_update _ _ _ _).trans (if_neg ?_))
                exact fun both => known both.2
            | create | submit | tooLate | register => cases resolution
            | _ => cases resolution
  | take taken =>
      obtain ⟨pool, rfl, -⟩ := State.take?_queues taken
      exact .inl rfl
  | drop begun =>
      obtain ⟨pool, rfl, -⟩ := State.begin?_drops begun
      exact .inl rfl
  | @begin executor target state begun =>
      obtain ⟨-, -, pool, rfl, -⟩ := State.begin?_starts begun
      have changed := system.state.condition_update target handle
        ⟨.running, (system.state.compilation target).callbacks⟩
      split at changed
      next matched =>
        refine .inr (.inl ⟨system.threads.length, target, matched.1, ?_, changed⟩)
        refine ⟨executor, (Duty.job executor target).program, ?_⟩
        simp only [spawn, List.getElem?_concat_length, Thread.ofDuty]
      next => exact .inl changed
  | _ => exact .inl rfl

section Runs

variable {workers : Int} {pool : Pool} {evaluation : Evaluation} {moves : List (Move V)}
  {last : System V} {handle : Handle}

theorem works_of_running (reached : (initial pool evaluation).run moves = some last)
    (running : last.state.condition handle = .running) :
    ∃ index target, target.id = handle.id ∧ last.Works index target := by
  refine run_induction (motive := fun _ system => system.state.condition handle = .running →
    ∃ index target, target.id = handle.id ∧ system.Works index target) ?_ ?_ reached running
  · intro running
    rw [State.condition_of_not_knows (Nat.not_lt_zero _)] at running
    cases running
  · intro moves middle move next reached before stepped running
    have transition := step_transition stepped
    rcases transition.changes handle with same | ⟨index, target, alike, works, -⟩ |
      ⟨_, outcome, -, -, resolved⟩
    · rw [same] at running
      obtain ⟨index, target, alike, works⟩ := before running
      exact ⟨index, target, alike, works.later transition⟩
    · exact ⟨index, target, alike, works⟩
    · rw [running] at resolved
      cases resolved

theorem given_of_resolved (reached : (initial pool evaluation).run moves = some last)
    {outcome : Outcome V} (resolved : last.state.condition handle = .resolved outcome) :
    ∃ event ∈ (initial pool evaluation).trace moves,
      event.exchange.resolution? handle = some outcome := by
  refine run_induction (motive := fun moves system =>
    system.state.condition handle = .resolved outcome →
      ∃ event ∈ (initial pool evaluation).trace moves,
        event.exchange.resolution? handle = some outcome) ?_ ?_ reached resolved
  · intro resolved
    rw [State.condition_of_not_knows (Nat.not_lt_zero _)] at resolved
    cases resolved
  · intro moves middle move next reached before stepped resolved
    rw [trace_concat reached stepped]
    rcases (step_transition stepped).changes handle with same | ⟨_, _, -, -, running⟩ |
      ⟨happened, given, event, gives, latest⟩
    · rw [same] at resolved
      obtain ⟨event, happened, gives⟩ := before resolved
      exact ⟨event, List.mem_append_left _ happened, gives⟩
    · rw [resolved] at running
      cases running
    · rw [resolved, Condition.resolved.injEq] at latest
      rw [event, latest]
      exact ⟨happened, by simp, gives⟩

/-- Only the worker of a handle compiles it. -/
theorem works_of_compiled (reached : (initial pool evaluation).run moves = some last) {index : Nat}
    {reply : Except Failure V × List LogRecord}
    (compiled : ⟨index, .compile handle, reply⟩ ∈ (initial pool evaluation).trace moves) :
    last.Works index handle := by
  obtain ⟨cut⟩ := cut_of_mem reached compiled
  obtain ⟨duty, program, held, rule⟩ := performer_of_cut cut
  cases duty with
  | call call => exact rule.elim
  | job executor target =>
      obtain ⟨rfl, -⟩ := rule
      exact ⟨executor, program, held⟩

theorem Works.unique {system : System V} {index : Nat} {target : Handle}
    (works : system.Works index handle) (also : system.Works index target) : handle = target := by
  obtain ⟨executor, program, found⟩ := works
  obtain ⟨place, other, held⟩ := also
  rw [found] at held
  cases held
  rfl

theorem compiled_of_worker (reached : (initial pool evaluation).run moves = some last) {index : Nat}
    (works : last.Works index handle) {result : Except Failure V}
    (compiled : result ∈
      compiledIn handle (exchangesOf index ((initial pool evaluation).trace moves))) :
    ∃ reply, ⟨index, .compile handle, reply⟩ ∈ (initial pool evaluation).trace moves ∧
      reply.1 = result := by
  obtain ⟨⟨instruction, reply⟩, done, came⟩ := List.mem_filterMap.mp compiled
  cases instruction with
  | compile target =>
      simp only [Exchange.compiled?, Option.ite_none_right_eq_some, Option.some.injEq] at came
      have happened := mem_exchangesOf.mp done
      have same := (works_of_compiled reached happened).unique works
      subst same
      exact ⟨reply, happened, came.2⟩
  | _ => cases came

inductive Origin (events : List (Event V)) (system : System V) (handle : Handle) :
    Outcome V → Prop
  | withdrawn {index : Nat} {call : Call} {program : Program V (Result V)} {target : Handle}
      (isSuperseded : Bool) (callbacks : List Callback) :
      system.threads[index]? = some ⟨.call call, program⟩ → target.id = handle.id →
      ⟨index, .resolve target (.withdrawn isSuperseded), some callbacks⟩ ∈ events →
      Origin events system handle (.withdrawn isSuperseded)
  | compiled {index : Nat} {outcome : Outcome V} (reply : Except Failure V × List LogRecord) :
      system.Works index handle → ⟨index, .compile handle, reply⟩ ∈ events →
      Outcome.ofCompiled handle reply.1 = some outcome → Origin events system handle outcome

theorem origin_of_resolved (created : Pool.create? workers = .ok pool)
    (reached : (initial pool evaluation).run moves = some last)
    (made : handle ∈ madeIn (exchanges ((initial pool evaluation).trace moves)))
    {outcome : Outcome V} (resolved : last.state.condition handle = .resolved outcome) :
    Origin ((initial pool evaluation).trace moves) last handle outcome := by
  have sound := sound_of_run created reached
  obtain ⟨⟨index, instruction, reply⟩, happened, gives⟩ := given_of_resolved reached resolved
  cases instruction with
  | resolve target given =>
      cases reply with
      | none => cases gives
      | some callbacks =>
          simp only [Exchange.resolution?, Option.ite_none_right_eq_some,
            Option.some.injEq] at gives
          obtain ⟨same, rfl⟩ := gives
          obtain ⟨before, after, own⟩ := List.append_of_mem (mem_exchangesOf.mpr happened)
          obtain ⟨cut, earlier, -⟩ := exists_cut reached own
          obtain ⟨duty, program, held, rule⟩ := performer_of_cut cut
          cases duty with
          | call call =>
              obtain ⟨isSuperseded, rfl⟩ := rule
              exact .withdrawn isSuperseded callbacks held same happened
          | job executor worked =>
              obtain ⟨rfl, result, compiled, ended⟩ := rule
              have works : last.Works index target := ⟨executor, program, held⟩
              have same := sound.eq_of_id_eq (sound.begun index target works).1 made same
              subst same
              have member : result ∈ compiledIn target
                  (exchangesOf index ((initial pool evaluation).trace moves)) := by
                rw [own, compiledIn_append, ← earlier, compiled]
                exact List.mem_append_left _ (List.mem_singleton_self result)
              obtain ⟨reply, done, rfl⟩ := compiled_of_worker reached works member
              exact .compiled reply works done ended
  | _ => cases gives

end Runs

end System

end Schematron.Engine

import Mathlib.Algebra.BigOperators.Group.Finset.Piecewise
import Mathlib.Algebra.Order.BigOperators.Group.Finset
import Schematron.Proofs.Engine.Calling
import Schematron.Proofs.Engine.Settling

/-!
Callbacks: what becomes of those that are registered for a handle. Main statement: each registration
leads to one call at most, and to exactly one when the handle has resolved and those who have to
call have come to their end, whatever is raised there.
-/

namespace Schematron.Engine

open Program

variable {V : Type}

/-! Counting -/

theorem count_hosts (callbacks : List Callback) (id : Nat) :
    (callbacks.filterMap Callback.host?).count id = callbacks.count (.host id) := by
  induction callbacks with
  | nil => rfl
  | cons callback rest ih =>
      cases callback with
      | noteFailure => simp [List.filterMap_cons, Callback.host?, ih]
      | host other => simp [Callback.host?, List.count_cons, ih]

def Exchange.registered (handle : Handle) (exchange : Exchange V) : List Callback :=
  exchange.kept handle ++ exchange.late handle

theorem count_due (handle : Handle) (past : List (Exchange V)) (id : Nat) :
    (past.flatMap (Exchange.due handle)).count id =
      (past.flatMap (Exchange.taken handle)).count (.host id) +
        (past.flatMap (Exchange.late handle)).count (.host id) := by
  induction past with
  | nil => rfl
  | cons exchange rest ih =>
      simp only [List.flatMap_cons, List.count_append, Exchange.due, List.filterMap_append,
        count_hosts, ih]
      omega

theorem count_registered (handle : Handle) (past : List (Exchange V)) (id : Nat) :
    (past.flatMap (Exchange.registered handle)).count (.host id) =
      (past.flatMap (Exchange.kept handle)).count (.host id) +
        (past.flatMap (Exchange.late handle)).count (.host id) := by
  induction past with
  | nil => rfl
  | cons exchange rest ih =>
      simp only [List.flatMap_cons, List.count_append, Exchange.registered, ih]
      omega

/-- What all threads do together is what each of them does. -/
theorem count_exchangesOf {found : Exchange V → List Nat} (id : Nat) {events : List (Event V)}
    {count : Nat} (bound : ∀ event ∈ events, event.thread < count) :
    ∑ index ∈ Finset.range count, ((exchangesOf index events).flatMap found).count id =
      ((exchanges events).flatMap found).count id := by
  induction events with
  | nil => simp
  | cons event rest ih =>
      have present := bound event List.mem_cons_self
      have others := ih fun other member => bound other (List.mem_cons_of_mem _ member)
      have split (index : Nat) : ((exchangesOf index (event :: rest)).flatMap found).count id =
          (if event.thread = index then (found event.exchange).count id else 0) +
            ((exchangesOf index rest).flatMap found).count id := by
        by_cases same : event.thread = index <;> simp [exchangesOf, same]
      simp only [split, Finset.sum_add_distrib, others]
      rw [Finset.sum_ite_eq, if_pos (Finset.mem_range.mpr present)]
      simp [exchanges]

namespace System

/-! What one move does to the callbacks of a handle -/

section Moves

variable {handle : Handle} {thread : Nat} {state after : State V} {instruction : Instruction V}
  {reply : instruction.Reply} {system next : System V} {move : Move V} {event : Option (Event V)}

/-- What is registered in time is kept until it is taken over. -/
theorem Answer.callbacks (answer : Answer thread state instruction reply after)
    (known : state.Knows handle) :
    (state.compilation handle).callbacks ++ Exchange.kept handle ⟨instruction, reply⟩ =
      Exchange.taken handle ⟨instruction, reply⟩ ++ (after.compilation handle).callbacks := by
  cases answer with
  | create source generation =>
      rw [state.compilation_create]
      exact List.append_nil _
  | submit source generation =>
      rw [state.compilation_submit]
      exact List.append_nil _
  | openPool =>
      rw [state.compilation_openPool]
      exact List.append_nil _
  | @resolve target outcome unresolved =>
      rw [state.compilation_update]
      by_cases same : target.id = handle.id
      · simp [Exchange.kept, Exchange.taken, same, known, state.compilation_of_id_eq same]
      · simp [Exchange.kept, Exchange.taken, same]
  | register target callback =>
      cases condition : (state.compilation target).condition with
      | resolved outcome => simp [State.register, condition, Exchange.kept, Exchange.taken]
      | _ =>
          simp only [State.register, condition, state.compilation_update]
          by_cases same : target.id = handle.id
          · simp [Exchange.kept, Exchange.taken, same, known, state.compilation_of_id_eq same]
          · simp [Exchange.kept, Exchange.taken, same]
  | _ => exact List.append_nil _

theorem Answer.emptied (answer : Answer thread state instruction reply after)
    (before : (state.condition handle).isResolved = true →
      (state.compilation handle).callbacks = [])
    (resolved : (after.condition handle).isResolved = true) :
    (after.compilation handle).callbacks = [] := by
  simp only [State.condition] at before resolved
  cases answer with
  | create source generation =>
      rw [state.compilation_create] at resolved ⊢
      exact before resolved
  | submit source generation =>
      rw [state.compilation_submit] at resolved ⊢
      exact before resolved
  | openPool =>
      rw [state.compilation_openPool] at resolved ⊢
      exact before resolved
  | resolve outcome unresolved =>
      rw [state.compilation_update] at resolved ⊢
      split at resolved
      next matched => rw [if_pos matched]
      next other =>
        rw [if_neg other]
        exact before resolved
  | register target callback =>
      cases condition : (state.compilation target).condition with
      | resolved outcome =>
          simp only [State.register, condition] at resolved ⊢
          exact before resolved
      | _ =>
          simp only [State.register, condition, state.compilation_update] at resolved ⊢
          split at resolved
          next matched =>
            simp only at resolved
            cases resolved
          next other =>
            rw [if_neg other]
            exact before resolved
  | _ => exact before resolved

theorem Answer.due_of_not_knows (answer : Answer thread state instruction reply after)
    (unknown : ¬ state.Knows handle) : Exchange.due handle ⟨instruction, reply⟩ = [] := by
  cases answer with
  | @resolve target outcome unresolved =>
      by_cases same : target.id = handle.id
      · have fresh := State.compilation_of_not_knows unknown
        rw [← state.compilation_of_id_eq same] at fresh
        simp [Exchange.due, Exchange.taken, Exchange.late, same, fresh, Compilation.fresh]
      · simp [Exchange.due, Exchange.taken, Exchange.late, same]
  | register target callback =>
      by_cases same : target.id = handle.id
      · have fresh := State.compilation_of_not_knows unknown
        rw [← state.compilation_of_id_eq same] at fresh
        simp [Exchange.due, Exchange.taken, Exchange.late, State.register, fresh,
          Compilation.fresh]
      · cases found : (state.register target callback).1 <;>
          simp [Exchange.due, Exchange.taken, Exchange.late, same]
  | _ => rfl

theorem Answer.resolved_of_due (answer : Answer thread state instruction reply after)
    (due : Exchange.due handle ⟨instruction, reply⟩ ≠ []) :
    (after.condition handle).isResolved = true := by
  have known : state.Knows handle := by
    by_contra unknown
    exact due (answer.due_of_not_knows unknown)
  cases answer with
  | @resolve target outcome unresolved =>
      by_cases same : target.id = handle.id
      · rw [state.condition_update, if_pos ⟨same, known⟩]
        rfl
      · simp [Exchange.due, Exchange.taken, Exchange.late, same] at due
  | register target callback =>
      by_cases same : target.id = handle.id
      · cases condition : (state.compilation target).condition with
        | resolved outcome =>
            rw [state.condition_register, State.condition, ← state.compilation_of_id_eq same,
              condition]
            rfl
        | _ => simp [Exchange.due, Exchange.taken, Exchange.late, State.register, condition] at due
      · cases found : (state.register target callback).1 <;>
          simp [found, Exchange.due, Exchange.taken, Exchange.late, same] at due
  | _ => exact absurd rfl due

theorem Answer.fresh (answer : Answer thread state instruction reply after)
    (made : Exchange.made? ⟨instruction, reply⟩ = some handle) :
    after.Knows handle ∧ after.compilation handle = .fresh := by
  have numbered := answer.made
  rw [made] at numbered
  obtain ⟨number, longer⟩ := numbered
  have unknown : ¬ state.Knows handle := by simp [State.Knows, number]
  have fresh := State.compilation_of_not_knows unknown
  refine ⟨by simp [State.Knows, number, longer], ?_⟩
  cases answer with
  | create source generation => rw [state.compilation_create, fresh]
  | submit source generation => rw [state.compilation_submit, fresh]
  | _ => cases made

/-- What is no event of a thread lets a worker begin with a handle at most. -/
theorem Transition.unasked (transition : Transition system move none next) (handle : Handle) :
    next.state.compilation handle = system.state.compilation handle ∨
      next.state.compilation handle = ⟨.running, (system.state.compilation handle).callbacks⟩ := by
  cases transition with
  | take taken =>
      obtain ⟨pool, rfl, -⟩ := State.take?_queues taken
      exact .inl rfl
  | drop begun =>
      obtain ⟨pool, rfl, -⟩ := State.begin?_drops begun
      exact .inl rfl
  | @begin executor target state begun =>
      obtain ⟨-, -, pool, rfl, -⟩ := State.begin?_starts begun
      have changed := system.state.compilation_update target handle
        ⟨.running, (system.state.compilation target).callbacks⟩
      split at changed
      next matched =>
        refine .inr (changed.trans ?_)
        rw [system.state.compilation_of_id_eq matched.1]
      next => exact .inl changed
  | _ => exact .inl rfl

theorem Transition.callbacks (transition : Transition system move event next)
    (known : system.state.Knows handle) :
    (system.state.compilation handle).callbacks ++
        (exchanges event.toList).flatMap (Exchange.kept handle) =
      (exchanges event.toList).flatMap (Exchange.taken handle) ++
        (next.state.compilation handle).callbacks := by
  cases event with
  | some happened =>
      rw [Option.toList_some, exchanges_single, List.flatMap_singleton, List.flatMap_singleton]
      exact transition.event.1.callbacks known
  | none =>
      refine (List.append_nil _).trans ?_
      rcases transition.unasked handle with same | begun
      · rw [same]
        rfl
      · rw [begun]
        rfl

theorem Transition.emptied (transition : Transition system move event next)
    (before : (system.state.condition handle).isResolved = true →
      (system.state.compilation handle).callbacks = [])
    (resolved : (next.state.condition handle).isResolved = true) :
    (next.state.compilation handle).callbacks = [] := by
  cases event with
  | some happened => exact transition.event.1.emptied before resolved
  | none =>
      rw [State.condition] at before resolved
      rcases transition.unasked handle with same | begun
      · rw [same] at resolved ⊢
        exact before resolved
      · rw [begun] at resolved
        cases resolved

end Moves

/-! What whole runs do to the callbacks of a handle -/

section Runs

variable {workers : Int} {pool : Pool} {evaluation : Evaluation} {moves later : List (Move V)}
  {first last : System V} {handle : Handle}

theorem callbacks_of_run (known : first.state.Knows handle)
    (continued : first.run later = some last) :
    (first.state.compilation handle).callbacks ++
        (exchanges (first.trace later)).flatMap (Exchange.kept handle) =
      (exchanges (first.trace later)).flatMap (Exchange.taken handle) ++
        (last.state.compilation handle).callbacks := by
  refine run_induction (motive := fun moves system =>
    (first.state.compilation handle).callbacks ++
        (exchanges (first.trace moves)).flatMap (Exchange.kept handle) =
      (exchanges (first.trace moves)).flatMap (Exchange.taken handle) ++
        (system.state.compilation handle).callbacks) (by simp) ?_ continued
  intro moves middle move next reached same stepped
  -- What was kept before the move and has been kept in it is taken over, or still there.
  have goes := (step_transition stepped).callbacks (knows_of_run known reached)
  rw [trace_concat reached stepped, exchanges_append, List.flatMap_append, List.flatMap_append,
    ← List.append_assoc, same, List.append_assoc, goes, List.append_assoc]

theorem emptied_of_run (reached : (initial pool evaluation).run moves = some last)
    (resolved : (last.state.condition handle).isResolved = true) :
    (last.state.compilation handle).callbacks = [] := by
  refine run_induction (motive := fun _ system =>
    (system.state.condition handle).isResolved = true →
      (system.state.compilation handle).callbacks = []) (fun _ => rfl) ?_ reached resolved
  exact fun _ _ _ _ _ before stepped => (step_transition stepped).emptied before

theorem due_of_not_knows (reached : (initial pool evaluation).run moves = some last)
    (unknown : ¬ last.state.Knows handle) :
    (exchanges ((initial pool evaluation).trace moves)).flatMap (Exchange.due handle) = [] := by
  refine run_induction (motive := fun moves system => ¬ system.state.Knows handle →
    (exchanges ((initial pool evaluation).trace moves)).flatMap (Exchange.due handle) = [])
    (fun _ => rfl) ?_ reached unknown
  intro moves middle move next reached before stepped unknown
  have transition := step_transition stepped
  have earlier : ¬ middle.state.Knows handle := fun known => unknown (transition.knows known)
  rw [trace_concat reached stepped, exchanges_append, List.flatMap_append, before earlier]
  cases event : middle.event? move with
  | none => rfl
  | some happened =>
      rw [event] at transition
      have nothing := transition.event.1.due_of_not_knows earlier
      rw [Option.toList_some, exchanges_single, List.flatMap_singleton]
      exact nothing

/-- A thread of a run has called nothing but what was due, and in order. -/
theorem called_ahead (handle : Handle) (reached : (initial pool evaluation).run moves = some last)
    (index : Nat) :
    (exchangesOf index ((initial pool evaluation).trace moves)).flatMap (Exchange.called handle) <+:
      (exchangesOf index ((initial pool evaluation).trace moves)).flatMap
        (Exchange.due handle) := by
  by_cases present : index < last.threads.length
  · have found := List.getElem?_eq_getElem present
    have keeps := thread_keeps reached found (duty_calls handle _)
    generalize last.threads[index].program = program at keeps
    cases program with
    | done result => exact keeps.2.ahead
    | step instruction rest => exact keeps.1.1
  · rw [exchangesOf_trace_eq_nil reached (Nat.le_of_not_lt present)]
    exact List.prefix_refl _

theorem resolved_of_due (reached : (initial pool evaluation).run moves = some last) (index : Nat)
    (due : (exchangesOf index ((initial pool evaluation).trace moves)).flatMap
      (Exchange.due handle) ≠ []) :
    (last.state.condition handle).isResolved = true := by
  obtain ⟨id, member⟩ := List.exists_mem_of_ne_nil _ due
  obtain ⟨exchange, done, here⟩ := List.mem_flatMap.mp member
  obtain ⟨cut⟩ := cut_of_mem reached (mem_exchangesOf.mp done)
  have settled := cut.transition.event.1.resolved_of_due (List.ne_nil_of_mem here)
  obtain ⟨outcome, resolved⟩ := Condition.isResolved_iff.mp settled
  rw [(resolved_of_run cut.continued resolved).1]
  rfl

/-- A withdrawal asks once, and says whether it was first. -/
theorem cancel_tells (isSuperseded : Bool) :
    ((Call.cancel handle isSuperseded).program : Program V (Result V)).Keeps anything
      (fun past result => ∃ reply after,
        past = ⟨.resolve handle (.withdrawn isSuperseded), reply⟩ :: after ∧
        (∀ exchange ∈ after, exchange.instruction.CallsBack handle) ∧
        result = .ok (.flag reply.isSome)) [] := by
  simp only [Call.program, cancel, resolve, keeps_bind]
  refine ⟨trivial, fun found _ => ?_⟩
  cases found with
  | none => exact ⟨none, [], rfl, by simp, rfl⟩
  | some callbacks =>
      simp only [Keeps, keeps_bind]
      refine ((notify_uses _ _ callbacks).adds _).mono ?_
      rintro _ _ ⟨after, rfl, calls⟩
      exact ⟨some callbacks, after, rfl, calls, rfl⟩

/-! A handle, since it was made -/

theorem taken_of_unresolved {past : List (Exchange V)}
    (unresolved : resolutionsIn handle past = []) :
    past.flatMap (Exchange.taken handle) = [] := by
  refine List.flatMap_eq_nil_iff.mpr fun exchange member => ?_
  have silent := List.filterMap_eq_nil_iff.mp unresolved exchange member
  obtain ⟨instruction, reply⟩ := exchange
  cases instruction with
  | resolve target outcome =>
      cases reply with
      | none => rfl
      | some callbacks =>
          by_cases same : target.id = handle.id
          · simp [Exchange.resolution?, same] at silent
          · exact if_neg same
  | _ => rfl

theorem taken_of_winner {events : List (Event V)} {index : Nat} {target : Handle}
    {outcome : Outcome V} {callbacks : List Callback}
    (happened : ⟨index, .resolve target outcome, some callbacks⟩ ∈ events)
    (same : target.id = handle.id) (once : (resolutionsIn handle (exchanges events)).length ≤ 1) :
    (exchanges events).flatMap (Exchange.taken handle) = callbacks := by
  obtain ⟨before, after, rfl⟩ := List.append_of_mem happened
  have gives : Exchange.resolution? handle
      (⟨.resolve target outcome, some callbacks⟩ : Exchange V) = some outcome := if_pos same
  have takes : Exchange.taken handle
      (⟨.resolve target outcome, some callbacks⟩ : Exchange V) = callbacks := if_pos same
  have split (middle : Event V) : exchanges (before ++ middle :: after) =
      exchanges before ++ middle.exchange :: exchanges after := by simp [exchanges]
  rw [split] at once ⊢
  -- The one resolution leaves none for the events before and after it.
  rw [resolutionsIn, List.filterMap_append, List.filterMap_cons_some gives, List.length_append,
    List.length_cons] at once
  have nothing (part : List (Exchange V))
      (none : (part.filterMap (Exchange.resolution? handle)).length = 0) :
      part.flatMap (Exchange.taken handle) = [] :=
    taken_of_unresolved (List.length_eq_zero_iff.mp none)
  rw [List.flatMap_append, List.flatMap_cons, takes, nothing _ (by omega), nothing _ (by omega),
    List.append_nil, List.nil_append]

/-- How the callbacks of a handle fare, after the events since it was made. -/
structure CallsBack (handle : Handle) (events : List (Event V)) (last : System V) : Prop where
  waiting : (last.state.condition handle).isResolved = false →
    (last.state.compilation handle).callbacks =
        (exchanges events).flatMap (Exchange.kept handle) ∧
      (exchanges events).flatMap (Exchange.called handle) = []
  taken : (last.state.condition handle).isResolved = true →
    ∃ index target outcome callbacks, target.id = handle.id ∧
      ⟨index, .resolve target outcome, some callbacks⟩ ∈ events ∧
      callbacks = (exchanges events).flatMap (Exchange.kept handle) ∧
      last.state.condition handle = .resolved outcome ∧
      ∀ event ∈ events, (event.exchange.resolution? handle).isSome →
        event = ⟨index, .resolve target outcome, some callbacks⟩
  ordered : ∀ index, (exchangesOf index events).flatMap (Exchange.called handle) <+:
    (exchangesOf index events).flatMap (Exchange.due handle)
  finished : ∀ (index : Nat) (duty : Duty) (result : Result V),
    last.threads[index]? = some ⟨duty, .done result⟩ →
    (exchangesOf index events).flatMap (Exchange.called handle) =
        (exchangesOf index events).flatMap (Exchange.due handle) ∧
      Answered (exchangesOf index events)
  bounded : ∀ id, ((exchanges events).flatMap (Exchange.called handle)).count id ≤
    ((exchanges events).flatMap (Exchange.registered handle)).count (.host id)
  exact : (last.state.condition handle).isResolved = true →
    (∀ event ∈ events, event.exchange.due handle ≠ [] →
      ∃ duty result, last.threads[event.thread]? = some ⟨duty, .done result⟩) →
    ∀ id, ((exchanges events).flatMap (Exchange.called handle)).count id =
      ((exchanges events).flatMap (Exchange.registered handle)).count (.host id)
  terminal : ∀ (index : Nat) duty id target rest,
    last.threads[index]? = some ⟨duty, .step (.call id target) rest⟩ → target.id = handle.id →
    (last.state.condition handle).isResolved = true
  -- What a callback raises is noted, and changes nothing that comes after it.
  absorbed : ∀ (index : Nat) duty id target rest,
    last.threads[index]? = some ⟨duty, .step (.call id target) rest⟩ →
    (∀ other callback, duty ≠ .call (.onDone other callback)) →
    ∀ failure, rest (some failure) = .step (.note (raisedRecord target)) fun _ => rest none
  returned : ∀ (index : Nat) isSuperseded result reply,
    last.threads[index]? = some ⟨.call (.cancel handle isSuperseded), .done result⟩ →
    ⟨index, .resolve handle (.withdrawn isSuperseded), reply⟩ ∈ events →
    result = .ok (.flag reply.isSome)
  -- Whoever turns to the handle from a callback is told at once that it has resolved.
  reentered : ∀ outcome, last.state.condition handle = .resolved outcome →
    (∀ isSuperseded, last.run [.call (.cancel handle isSuperseded), .advance last.threads.length] =
      some ⟨last.state, last.threads ++
        [⟨.call (.cancel handle isSuperseded), .done (.ok (.flag false))⟩]⟩) ∧
    (∀ limit, last.run [.call (.await handle limit), .advance last.threads.length] =
      some ⟨last.state, last.threads ++
        [⟨.call (.await handle limit), .done ((outcome.result handle).map .validator)⟩]⟩) ∧
    ∀ id, ∃ rest, last.run [.call (.onDone handle (.host id)), .advance last.threads.length] =
      some ⟨last.state, last.threads ++
        [⟨.call (.onDone handle (.host id)), .step (.call id handle) rest⟩]⟩

theorem Cut.thread_lt {event : Event V} (cut : Cut (initial pool evaluation) moves last event) :
    ∀ other ∈ cut.next.trace cut.late, other.thread < last.threads.length := by
  intro other happened
  refine thread_lt_of_mem_trace cut.ends other ?_
  rw [cut.trace]
  exact List.mem_append_right _ (List.mem_cons_of_mem _ happened)

section Made

variable {maker : Nat} {exchange : Exchange V}
  (cut : Cut (initial pool evaluation : System V) moves last ⟨maker, exchange⟩)
  (made : exchange.made? = some handle)
include made

/-- Before a handle is made nothing is due about it, so that nobody is called. -/
theorem since_made (index : Nat) :
    (exchangesOf index ((initial pool evaluation).trace moves)).flatMap (Exchange.due handle) =
        (exchangesOf index (cut.next.trace cut.late)).flatMap (Exchange.due handle) ∧
      (exchangesOf index ((initial pool evaluation).trace moves)).flatMap
          (Exchange.called handle) =
        (exchangesOf index (cut.next.trace cut.late)).flatMap (Exchange.called handle) := by
  have unknown : ¬ cut.moment.state.Knows handle := by
    have numbered := cut.transition.event.1.made
    simp only at numbered
    rw [made] at numbered
    simp [State.Knows, numbered.1]
  have undue : (exchangesOf index ((initial pool evaluation).trace cut.early)).flatMap
      (Exchange.due handle) = [] := by
    have all := List.flatMap_eq_nil_iff.mp (due_of_not_knows cut.reached unknown)
    exact List.flatMap_eq_nil_iff.mpr fun other member =>
      all other ((exchangesOf_sublist index _).subset member)
  have uncalled := called_ahead handle cut.reached index
  rw [undue, List.prefix_nil] at uncalled
  have silent : exchange.due handle = [] ∧ exchange.called handle = [] := by
    obtain ⟨instruction, reply⟩ := exchange
    cases instruction with
    | create | submit => exact ⟨rfl, rfl⟩
    | _ => cases made
  have own : ∀ found : Exchange V → List Nat, found exchange = [] →
      (exchangesOf index [(⟨maker, exchange⟩ : Event V)]).flatMap found = [] := by
    intro found nothing
    by_cases same : maker = index
    · simp [exchangesOf, same, nothing]
    · simp [exchangesOf, same]
  rw [cut.trace, ← List.singleton_append, exchangesOf_append, exchangesOf_append]
  simp only [List.flatMap_append]
  rw [undue, uncalled, own _ silent.1, own _ silent.2]
  exact ⟨rfl, rfl⟩

theorem made_fresh : cut.next.state.Knows handle ∧ cut.next.state.compilation handle = .fresh :=
  cut.transition.event.1.fresh made

theorem resolutions_of_made :
    resolutionsIn handle (exchanges (cut.next.trace cut.late)) =
      (last.state.condition handle).outcome?.toList := by
  obtain ⟨known, fresh⟩ := made_fresh cut made
  have given := outcome_of_run known cut.continued
  rw [State.condition, fresh] at given
  exact given

theorem kept_of_made :
    (exchanges (cut.next.trace cut.late)).flatMap (Exchange.kept handle) =
      (exchanges (cut.next.trace cut.late)).flatMap (Exchange.taken handle) ++
        (last.state.compilation handle).callbacks := by
  obtain ⟨known, fresh⟩ := made_fresh cut made
  have kept := callbacks_of_run known cut.continued
  rw [fresh] at kept
  exact kept

theorem called_of_made (index : Nat) :
    (exchangesOf index (cut.next.trace cut.late)).flatMap (Exchange.called handle) <+:
      (exchangesOf index (cut.next.trace cut.late)).flatMap (Exchange.due handle) := by
  obtain ⟨due, called⟩ := since_made cut made index
  rw [← due, ← called]
  exact called_ahead handle cut.ends index

theorem resolved_of_called (index : Nat)
    (called : (exchangesOf index (cut.next.trace cut.late)).flatMap (Exchange.called handle) ≠ []) :
    (last.state.condition handle).isResolved = true := by
  refine resolved_of_due cut.ends index fun undue => called ?_
  rw [(since_made cut made index).1] at undue
  have ahead := called_of_made cut made index
  rwa [undue, List.prefix_nil] at ahead

theorem waiting_of_made (unresolved : (last.state.condition handle).isResolved = false) :
    (last.state.compilation handle).callbacks =
        (exchanges (cut.next.trace cut.late)).flatMap (Exchange.kept handle) ∧
      (exchanges (cut.next.trace cut.late)).flatMap (Exchange.called handle) = [] := by
  have untaken : (exchanges (cut.next.trace cut.late)).flatMap (Exchange.taken handle) = [] := by
    refine taken_of_unresolved ?_
    rw [resolutions_of_made cut made]
    simpa [Condition.isResolved] using unresolved
  refine ⟨?_, List.flatMap_eq_nil_iff.mpr fun exchange member => ?_⟩
  · rw [kept_of_made cut made, untaken, List.nil_append]
  · by_contra called
    obtain ⟨event, happened, rfl⟩ := List.mem_map.mp member
    have own := mem_exchangesOf.mpr happened
    have resolved := resolved_of_called cut made event.thread fun nothing =>
      called (List.flatMap_eq_nil_iff.mp nothing _ own)
    rw [resolved] at unresolved
    cases unresolved

theorem taken_of_made (resolved : (last.state.condition handle).isResolved = true) :
    ∃ index target outcome callbacks, target.id = handle.id ∧
      ⟨index, .resolve target outcome, some callbacks⟩ ∈ cut.next.trace cut.late ∧
      callbacks = (exchanges (cut.next.trace cut.late)).flatMap (Exchange.kept handle) ∧
      last.state.condition handle = .resolved outcome ∧
      ∀ event ∈ cut.next.trace cut.late, (event.exchange.resolution? handle).isSome →
        event = ⟨index, .resolve target outcome, some callbacks⟩ := by
  obtain ⟨known, fresh⟩ := made_fresh cut made
  have pending : (cut.next.state.condition handle).isResolved = false := by
    rw [State.condition, fresh]
    rfl
  obtain ⟨outcome, settled⟩ := Condition.isResolved_iff.mp resolved
  obtain ⟨⟨index, instruction, reply⟩, happened, gives⟩ :=
    given_of_run known cut.continued pending settled
  have winner (event : Event V) (member : event ∈ cut.next.trace cut.late)
      (wins : (event.exchange.resolution? handle).isSome) : event = ⟨index, instruction, reply⟩ :=
    winner_of_run known cut.continued member happened wins (Option.isSome_of_eq_some gives)
  cases instruction with
  | resolve target given =>
      cases reply with
      | none => cases gives
      | some callbacks =>
          simp only [Exchange.resolution?, Option.ite_none_right_eq_some,
            Option.some.injEq] at gives
          obtain ⟨same, rfl⟩ := gives
          refine ⟨index, target, given, callbacks, same, happened, ?_, settled, winner⟩
          have once : (resolutionsIn handle (exchanges (cut.next.trace cut.late))).length ≤ 1 := by
            rw [resolutions_of_made cut made, settled]
            exact Nat.le_refl 1
          rw [kept_of_made cut made, emptied_of_run cut.ends resolved, List.append_nil,
            taken_of_winner happened same once]
  | _ => cases gives

/-- Registrations that nobody has been told of are still kept. -/
theorem registered_of_made (id : Nat) :
    ((exchanges (cut.next.trace cut.late)).flatMap (Exchange.registered handle)).count (.host id) =
      ((exchanges (cut.next.trace cut.late)).flatMap (Exchange.due handle)).count id +
        (last.state.compilation handle).callbacks.count (.host id) := by
  rw [count_registered, count_due, kept_of_made cut made, List.count_append]
  omega

theorem bounded_of_made (id : Nat) :
    ((exchanges (cut.next.trace cut.late)).flatMap (Exchange.called handle)).count id ≤
      ((exchanges (cut.next.trace cut.late)).flatMap (Exchange.registered handle)).count
        (.host id) := by
  have bound := cut.thread_lt
  rw [registered_of_made cut made, ← count_exchangesOf id bound, ← count_exchangesOf id bound]
  refine Nat.le_trans (Finset.sum_le_sum fun index _ => ?_) (Nat.le_add_right _ _)
  exact (called_of_made cut made index).sublist.count_le id

theorem finished_of_made {index : Nat} {duty : Duty} {result : Result V}
    (found : last.threads[index]? = some ⟨duty, .done result⟩) :
    (exchangesOf index (cut.next.trace cut.late)).flatMap (Exchange.called handle) =
        (exchangesOf index (cut.next.trace cut.late)).flatMap (Exchange.due handle) ∧
      Answered (exchangesOf index (cut.next.trace cut.late)) := by
  obtain ⟨answered, even⟩ := thread_keeps cut.ends found (duty_calls handle duty)
  obtain ⟨due, called⟩ := since_made cut made index
  rw [Owes, List.append_nil, due, called] at even
  rw [cut.trace, ← List.singleton_append, exchangesOf_append, exchangesOf_append] at answered
  exact ⟨even.symm, answered.of_append.of_append⟩

theorem exact_of_made (resolved : (last.state.condition handle).isResolved = true)
    (ended : ∀ event ∈ cut.next.trace cut.late, event.exchange.due handle ≠ [] →
      ∃ duty result, last.threads[event.thread]? = some ⟨duty, .done result⟩) (id : Nat) :
    ((exchanges (cut.next.trace cut.late)).flatMap (Exchange.called handle)).count id =
      ((exchanges (cut.next.trace cut.late)).flatMap (Exchange.registered handle)).count
        (.host id) := by
  have bound := cut.thread_lt
  rw [registered_of_made cut made, emptied_of_run cut.ends resolved, List.count_nil, Nat.add_zero,
    ← count_exchangesOf id bound, ← count_exchangesOf id bound]
  refine Finset.sum_congr rfl fun index _ => ?_
  by_cases due : (exchangesOf index (cut.next.trace cut.late)).flatMap (Exchange.due handle) = []
  · have ahead := called_of_made cut made index
    rw [due, List.prefix_nil] at ahead
    rw [due, ahead]
  · -- Whoever has something due has come to its end, and has called it all by then.
    obtain ⟨id, member⟩ := List.exists_mem_of_ne_nil _ due
    obtain ⟨exchange, done, here⟩ := List.mem_flatMap.mp member
    obtain ⟨duty, result, found⟩ := ended _ (mem_exchangesOf.mp done) (List.ne_nil_of_mem here)
    rw [(finished_of_made cut made found).1]

/-- Callbacks of a handle are called once for each registration, whatever the others do. -/
theorem callbacks_fire_once : CallsBack handle (cut.next.trace cut.late) last := by
  constructor
  case waiting => exact waiting_of_made cut made
  case taken => exact taken_of_made cut made
  case ordered => exact called_of_made cut made
  case finished => exact fun index duty result found => finished_of_made cut made found
  case bounded => exact bounded_of_made cut made
  case exact => exact exact_of_made cut made
  case terminal =>
    intro index duty id target rest found same
    have rule := (thread_keeps cut.ends found (duty_calls handle duty)).1
    have ahead := rule.2 id target rfl same
    refine resolved_of_due cut.ends index fun undue => ?_
    rw [undue, List.prefix_nil] at ahead
    simp at ahead
  case absorbed =>
    intro index duty id target rest found other failure
    have absorbs := thread_inherits cut.ends
      (fun instruction rest reply absorbs => Program.Absorbs.next absorbs reply) found
      (duty_absorbs other)
    exact absorbs.1 failure
  case returned =>
    intro index isSuperseded result reply found happened
    obtain ⟨first, after, own, calls, told⟩ :=
      thread_keeps cut.ends found (cancel_tells isSuperseded)
    have member : ⟨.resolve handle (.withdrawn isSuperseded), reply⟩ ∈
        exchangesOf index ((initial pool evaluation : System V).trace moves) := by
      rw [cut.trace, ← List.singleton_append, exchangesOf_append, exchangesOf_append]
      exact List.mem_append_right _ (List.mem_append_right _ (mem_exchangesOf.mpr happened))
    rw [own] at member
    rcases List.mem_cons.mp member with same | later
    · cases same
      exact told
    · exact (calls _ later).elim
  case reentered =>
    intro outcome resolved
    have late (withdrawal : Outcome V) : (Instruction.resolve handle withdrawal).perform
        last.threads.length last.state = some (none, last.state) := by
      simp [Instruction.perform, State.resolve?, resolved]
    have told (limit : TimeLimit) : (Instruction.await handle limit).perform last.threads.length
        last.state = some (outcome.result handle, last.state) := by
      simp [Instruction.perform, resolved]
    have given (callback : Callback) : (Instruction.register handle callback).perform
        last.threads.length last.state = some (some outcome, last.state) := by
      rw [State.condition] at resolved
      simp [Instruction.perform, State.register, resolved]
    exact ⟨fun isSuperseded => run_call rfl (late _) rfl,
      fun limit => run_call rfl (told limit) rfl,
      fun id => ⟨_, run_call rfl (given (.host id)) rfl⟩⟩

end Made

def registering : List (Move Unit) :=
  -- Two callbacks are registered for a handle, and a third one while the first two are called;
  -- the first one raises.
  [.call (.onDone ⟨0, default, 1⟩ (.host 7)), .advance 2,
    .call (.onDone ⟨0, default, 1⟩ (.host 8)), .advance 3,
    .call (.cancel ⟨0, default, 1⟩ false), .advance 4, .called 4 (some (.poolNotRunning "")),
    .advance 4, .call (.onDone ⟨0, default, 1⟩ (.host 9)), .advance 5, .called 5 none,
    .called 4 none]

theorem registered_fire_once :
    ∃ pool moves last,
      ∃ cut : Cut (initial pool ⟨none, .unlimited⟩) moves last
        ⟨1, .submit default 1, .ok ⟨0, default, 1⟩⟩,
      cut.late = registering ∧ CallsBack ⟨0, default, 1⟩ (cut.next.trace cut.late) last ∧
      (exchanges (cut.next.trace cut.late)).flatMap (Exchange.called ⟨0, default, 1⟩) =
        [7, 9, 8] ∧
      last.threads[4]? =
        some ⟨.call (.cancel ⟨0, default, 1⟩ false), .done (.ok (.flag true))⟩ :=
  ⟨⟨1, [], none, [], none⟩,
    [.call .start, .advance 0, .call (.submit default 1)] ++ .advance 1 :: registering, _,
    ⟨[.call .start, .advance 0, .call (.submit default 1)], .advance 1, registering, _, _,
      rfl, rfl, rfl, rfl, rfl⟩,
    rfl, callbacks_fire_once _ rfl, rfl, rfl⟩

end Runs

end System

end Schematron.Engine

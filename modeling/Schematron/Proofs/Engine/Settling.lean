import Schematron.Proofs.Engine.Obligations
import Schematron.Proofs.Engine.Registry

/-!
Settled systems: what is left when everybody who can go on has gone on. Main statements: nobody
keeps others from the registry any more, and everything that a thread was given to withdraw has
resolved.
-/

namespace Schematron.Engine

open Program

variable {V : Type}

namespace System

/-- Workers have taken what they can, and no thread, validator or callback is under way. Only
compilations may still be held up, and nobody loses patience. -/
structure Settled (system : System V) : Prop where
  untaken : ∀ executor, system.step (.take executor) = none
  unbegun : ∀ executor handle, system.step (.begin executor handle) = none
  stopped : ∀ index, system.step (.advance index) = none
  ran : ∀ index result, system.step (.ran index result) = none
  called : ∀ index raised, system.step (.called index raised) = none

inductive Waits (state : State V) : Instruction V → Prop
  | handle {handle : Handle} (limit : TimeLimit) :
      (state.condition handle).isResolved = false → Waits state (.await handle limit)
  | workers {executor : Nat} : state.isIdle executor = false → Waits state (.drain executor)
  | compiler (handle : Handle) : Waits state (.compile handle)
  | reserving {keeper : Nat} : state.configuring = some keeper → Waits state .reserve
  | looking {keeper : Nat} : state.configuring = some keeper → Waits state .snapshot

theorem Waits.tidy {state : State V} {instruction : Instruction V}
    (waits : Waits state instruction) {closes : Bool} {past : List (Exchange V)}
    (rule : tidyRule closes past instruction) : Tidy closes past := by
  cases waits <;> exact rule

theorem Settled.waits {system : System V} (settled : system.Settled) {index : Nat} {duty : Duty}
    {instruction : Instruction V} {rest : instruction.Reply → Program V (Result V)}
    (found : system.threads[index]? = some ⟨duty, .step instruction rest⟩) :
    Waits system.state instruction := by
  have stuck : instruction.perform index system.state = none := by
    have stopped := settled.stopped index
    cases performed : instruction.perform index system.state with
    | none => rfl
    | some done => simp [step, goOn?, found, Move.answer?, performed] at stopped
  cases instruction with
  | await handle limit =>
      cases condition : system.state.condition handle with
      | resolved outcome => simp [Instruction.perform, condition] at stuck
      | _ => exact .handle limit (by rw [condition]; rfl)
  | drain executor =>
      simp only [Instruction.perform, ite_eq_right_iff, reduceCtorEq, imp_false,
        Bool.not_eq_true] at stuck
      exact .workers stuck
  | compile handle => exact .compiler handle
  | reserve =>
      cases configuring : system.state.configuring with
      | none => simp [Instruction.perform, configuring] at stuck
      | some keeper => exact .reserving configuring
  | snapshot =>
      cases configuring : system.state.configuring with
      | none => simp [Instruction.perform, configuring] at stuck
      | some keeper => exact .looking configuring
  | run validator document =>
      have ran := settled.ran index (.ok [])
      simp [step, goOn?, found, Move.answer?] at ran
  | call id handle =>
      have called := settled.called index none
      simp [step, goOn?, found, Move.answer?] at called
  | resolve handle outcome =>
      simp only [Instruction.perform] at stuck
      split at stuck <;> simp at stuck
  | _ => simp [Instruction.perform] at stuck

section Runs

variable {workers : Int} {pool : Pool} {evaluation : Evaluation} {moves later : List (Move V)}
  {first last : System V}

/-- Whoever keeps others from the registry is drafting a generation. -/
theorem drafting_of_configuring (reached : (initial pool evaluation).run moves = some last)
    {index : Nat} (configuring : last.state.configuring = some index) :
    ∃ replaced handles, replacing (exchangesOf index ((initial pool evaluation).trace moves)) =
      .drafting replaced handles := by
  refine run_induction (motive := fun moves system => ∀ index,
    system.state.configuring = some index → ∃ replaced handles,
      replacing (exchangesOf index ((initial pool evaluation).trace moves)) =
        .drafting replaced handles) (by simp [initial, State.initial]) ?_ reached index configuring
  intro moves middle move next reached before stepped index configuring
  have transition := step_transition stepped
  rw [trace_concat reached stepped]
  cases event : middle.event? move with
  | none =>
      rw [event] at transition
      rw [transition.unregistered.2] at configuring
      simpa using before index configuring
  | some happened =>
      obtain ⟨thread, instruction, reply⟩ := happened
      rw [event] at transition
      have answer := transition.event.1
      rw [Option.toList_some, replacing_next]
      simp only at answer ⊢
      generalize next.state = state at answer configuring
      by_cases registers : instruction.Registers
      · cases instruction with
        | reserve =>
            obtain ⟨-, rfl, -, reserved⟩ := answer.reserved
            rw [configuring, Option.some.injEq] at reserved
            rw [if_pos reserved.symm]
            exact ⟨_, [], rfl⟩
        | release | publish =>
            cases answer
            simp at configuring
        | _ => exact registers.elim
      · rw [(answer.unregistered registers).2] at configuring
        obtain ⟨replaced, handles, drafting⟩ := before index configuring
        split
        next own =>
          subst own
          have alike := Replacing.after_alike (replacing
            (exchangesOf thread ((initial pool evaluation).trace moves))) reply registers
          rw [drafting] at alike ⊢
          exact alike.drafting_eq
        next => exact ⟨replaced, handles, drafting⟩

/-- Nobody waits or comes to an end without having done what was left to do for others. -/
theorem Settled.unburdened (settled : last.Settled)
    (reached : (initial pool evaluation).run moves = some last) {index : Nat} {thread : Thread V}
    (found : last.threads[index]? = some thread) :
    Unburdened thread.duty.closes
      (exchangesOf index ((initial pool evaluation).trace moves)) := by
  obtain ⟨duty, program⟩ := thread
  have keeps := thread_keeps reached found (duty_tidies duty)
  cases program with
  | done result => exact keeps
  | step instruction rest => exact ((settled.waits found).tidy keeps.1).unburdened

theorem Settled.unreserved (settled : last.Settled)
    (reached : (initial pool evaluation).run moves = some last) :
    last.state.configuring = none := by
  cases configuring : last.state.configuring with
  | none => rfl
  | some keeper =>
      obtain ⟨replaced, handles, drafting⟩ := drafting_of_configuring reached configuring
      have present : keeper < last.threads.length := by
        by_contra absent
        rw [exchangesOf_trace_eq_nil reached (Nat.le_of_not_lt absent)] at drafting
        cases drafting
      have found := List.getElem?_eq_getElem present
      exact absurd drafting ((settled.unburdened reached found).undrafted replaced handles)

/-- What a thread was given to withdraw, and has dealt with, has resolved. -/
theorem resolved_of_discharged (reached : (initial pool evaluation).run moves = some last)
    {index : Nat} {closes : Bool}
    (discharged : Discharged closes (exchangesOf index ((initial pool evaluation).trace moves)))
    {exchange : Exchange V}
    (happened : ⟨index, exchange⟩ ∈ (initial pool evaluation).trace moves) {handle : Handle}
    (burdened : handle ∈ exchange.burden closes)
    (known : ∀ cut : Cut (initial pool evaluation) moves last ⟨index, exchange⟩,
      cut.moment.state.Knows handle) :
    (last.state.condition handle).isResolved = true := by
  obtain ⟨before, after, own⟩ := List.append_of_mem (mem_exchangesOf.mpr happened)
  obtain ⟨cut, -, following⟩ := exists_cut reached own
  rw [own] at discharged
  obtain ⟨outcome, reply, asked⟩ := discharged.resolvedIn burdened
  rw [← following] at asked
  exact resolved_of_asked (cut.transition.knows (known cut)) cut.continued
    (mem_exchangesOf.mp asked)

theorem Settled.resolved_of_burden (settled : last.Settled)
    (reached : (initial pool evaluation).run moves = some last) {index : Nat} {thread : Thread V}
    (found : last.threads[index]? = some thread) {exchange : Exchange V}
    (happened : ⟨index, exchange⟩ ∈ (initial pool evaluation).trace moves) {handle : Handle}
    (burdened : handle ∈ exchange.burden thread.duty.closes)
    (known : ∀ cut : Cut (initial pool evaluation) moves last ⟨index, exchange⟩,
      cut.moment.state.Knows handle) :
    (last.state.condition handle).isResolved = true :=
  resolved_of_discharged reached (settled.unburdened reached found).discharged happened burdened
    known

/-- Whatever was replaced has resolved. -/
theorem Settled.resolved_of_replaced (settled : last.Settled)
    (created : Pool.create? workers = .ok pool)
    (reached : (initial pool evaluation).run moves = some last) {generation : Generation}
    (member : generation ∈ .initial ::
      publishedIn (exchanges ((initial pool evaluation).trace moves)))
    (different : generation ≠ last.state.generation) {handle : Handle}
    (included : handle ∈ generation.handles) :
    (last.state.condition handle).isResolved = true := by
  refine System.resolved_of_replaced created reached member different ?_ included
  intro index call program next found configures stage
  have keeps := thread_keeps reached found (duty_tidies (.call call))
  cases program with
  | done result => exact ⟨result, rfl⟩
  | step instruction rest =>
      have free := ((settled.waits found).tidy keeps.1).free
      rw [stage] at free
      exact free.elim

end Runs

end System

end Schematron.Engine

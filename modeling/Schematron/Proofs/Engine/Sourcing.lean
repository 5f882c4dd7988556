import Schematron.Proofs.Engine.Independence
import Schematron.Proofs.Engine.Opening
import Schematron.Proofs.Engine.Supplies

/-!
Sourcing: where the rule sets of a service come from. Main statement: when nobody but the call that
opened it configures a service, just the sources of that call are configured and compiled.
-/

namespace Schematron.Engine

open Program

variable {V : Type} {sources : List RuleSource}

def Instruction.Sourced (sources : List RuleSource) : Instruction V → Prop
  | .create source _ => source ∈ sources
  | .submit source _ => source ∈ sources
  | .publish next => next.sources = sources
  | _ => True

theorem Instruction.Tends.sourced {permitted : Outcome V → Prop} (instruction : Instruction V)
    (tends : instruction.Tends permitted) : instruction.Sourced sources := by
  cases instruction with
  | create | submit | publish => exact tends.elim
  | _ => trivial

theorem Instruction.Evaluates.sourced (instruction : Instruction V)
    (evaluates : instruction.Evaluates) : instruction.Sourced sources := by
  cases instruction with
  | create | submit | publish => exact evaluates.elim
  | _ => trivial

theorem resolveAll_sourced (outcome : Outcome V) (handles : List Handle) :
    (resolveAll outcome handles : Program V Nat).Uses (Instruction.Sourced sources) :=
  (resolveAll_uses outcome handles).mono Instruction.Tends.sourced

theorem submitAll_sourced (number : Int) {part : List RuleSource} (within : part ⊆ sources) :
    (submitAll number part : Program V _).Uses (Instruction.Sourced sources) := by
  induction part with
  | nil => exact uses_pure _
  | cons source rest ih =>
      obtain ⟨here, later⟩ := List.cons_subset.mp within
      refine (uses_send (.submit source number) here).bind fun found => ?_
      cases found with
      | error failure => exact uses_pure _
      | ok handle => exact (ih later).bind fun _ => uses_pure _

theorem replaceGeneration_sourced (sources : List RuleSource) :
    (replaceGeneration sources : Program V _).Uses (Instruction.Sourced sources) := by
  refine (uses_send .reserve trivial).bind fun replaced => ?_
  refine (submitAll_sourced (replaced.number + 1) fun _ => id).bind fun submitted => ?_
  obtain ⟨handles, refusal⟩ := submitted
  cases refusal with
  | some failure =>
      refine (resolveAll_sourced .cancelled handles).bind fun _ => ?_
      exact (uses_send .release trivial).bind fun _ => uses_pure _
  | none =>
      have sourced (next : Generation) (same : next.sources = sources) :
          (send (.publish next) : Program V Unit).Uses (Instruction.Sourced sources) :=
        uses_send (.publish next) same
      refine (sourced _ rfl).bind fun _ => ?_
      refine ((watchAll_uses handles).mono Instruction.Tends.sourced).bind fun _ => ?_
      refine (resolveAll_sourced .superseded replaced.handles).bind fun _ => ?_
      exact (uses_send (.note _) trivial).bind fun _ => uses_pure _

theorem shutdown_sourced (waits : Bool) :
    (shutdown waits : Program V Unit).Uses (Instruction.Sourced sources) := by
  refine (uses_send .closePool trivial).bind fun closed => ?_
  refine (resolveAll_sourced .cancelled closed.2).bind fun _ => ?_
  cases closed.1 with
  | none => exact uses_pure ()
  | some executor =>
      refine (uses_send (.abandon executor) trivial).bind fun _ => ?_
      cases waits with
      | false => exact uses_pure ()
      | true => exact uses_send (.drain executor) trivial

theorem close_sourced : (close : Program V Unit).Uses (Instruction.Sourced sources) :=
  (uses_send .snapshot trivial).bind fun generation =>
    (resolveAll_sourced .cancelled generation.handles).bind fun _ => uses_pure ()

theorem openService_sourced (ownsPool : Bool) {surroundings : Surroundings} {base : Option String}
    {locations : List RuleLocation}
    (resolved : RuleLocation.resolveAll surroundings base locations = .ok sources) :
    ((Call.openService ownsPool surroundings base locations).program :
      Program V (Result V)).Uses (Instruction.Sourced sources) := by
  have configures : (configure surroundings base locations : Program V _).Uses
      (Instruction.Sourced sources) := by
    simp only [configure, resolved]
    exact replaceGeneration_sourced sources
  cases ownsPool with
  | false =>
      refine Uses.bind (configures.bind fun found => ?_) fun _ => uses_pure _
      cases found <;> exact uses_pure _
  | true =>
      have opens : (start : Program V Unit).Uses (Instruction.Sourced sources) :=
        uses_send .openPool trivial
      refine Uses.bind (opens.bind fun _ => configures.bind fun found => ?_) fun _ => uses_pure _
      cases found with
      | ok number => exact uses_pure _
      | error failure => exact (shutdown_sourced true).bind fun _ => uses_pure _

theorem call_sourced {ownsPool : Bool} {call : Call} (serves : call.serves ownsPool = true)
    (keeps : call.configures = false) :
    (call.program : Program V (Result V)).Uses (Instruction.Sourced sources) := by
  cases call with
  | configure | openService => cases keeps
  | evaluate document =>
      exact ((evaluate_uses document).mono Instruction.Evaluates.sourced).bind fun _ => uses_pure _
  | validate document suppresses =>
      exact ((validate_uses document suppresses).mono Instruction.Evaluates.sourced).bind
        fun _ => uses_pure _
  | reportOnly document =>
      exact ((reportOnly_uses document).mono Instruction.Evaluates.sourced).bind
        fun _ => uses_pure _
  | closeService owns =>
      refine (close_sourced.bind fun _ => ?_).bind fun _ => uses_pure _
      cases owns with
      | false => exact uses_pure ()
      | true => exact shutdown_sourced true
  | _ => cases serves

theorem job_sourced (executor : Nat) (handle : Handle) :
    ((Duty.job executor handle).program : Program V (Result V)).Uses
      (Instruction.Sourced sources) := by
  refine Uses.bind ?_ fun _ => uses_pure _
  refine ((work_uses executor handle).mono fun instruction compiles => ?_).bind fun _ =>
    uses_send (.retire executor handle) trivial
  cases instruction with
  | enter | compile | resolve | note | call => trivial
  | _ => exact compiles.elim

/-- A service that has opened has its sources in place. -/
theorem openService_publishes (ownsPool : Bool) {surroundings : Surroundings}
    {base : Option String} {locations : List RuleLocation}
    (resolved : RuleLocation.resolveAll surroundings base locations = .ok sources) :
    ((Call.openService ownsPool surroundings base locations).program :
      Program V (Result V)).Keeps anything (fun past result => ∀ answer, result = .ok answer →
        ∃ number handles, ⟨.publish ⟨number, sources, handles⟩, ()⟩ ∈ past) [] := by
  have configures (past : List (Exchange V)) :
      (configure surroundings base locations).Keeps anything (fun later found =>
        ∀ number, found = .ok number →
          ∃ handles, ⟨.publish ⟨number, sources, handles⟩, ()⟩ ∈ later) past := by
    simp only [configure, resolved]
    exact replaceGeneration_publishes sources past
  cases ownsPool with
  | false =>
      refine keeps_bind.mpr (keeps_bind.mpr ((configures []).mono fun later found published => ?_))
      cases found with
      | ok number => exact fun _ _ => ⟨number, published number rfl⟩
      | error failure =>
          intro answer same
          cases same
  | true =>
      refine keeps_bind.mpr ⟨trivial, fun _ _ => keeps_bind.mpr (keeps_bind.mpr ?_)⟩
      refine (configures _).mono fun later found published => ?_
      cases found with
      | ok number => exact fun _ _ => ⟨number, published number rfl⟩
      | error failure =>
          refine keeps_bind.mpr (((shutdown true).keeps_past later).mono fun _ _ _ => ?_)
          intro answer same
          cases same

namespace System

structure Sourcing (sources : List RuleSource) (start : System V) (moves : List (Move V))
    (last : System V) : Prop where
  current : last.state.generation = .initial ∨ last.state.generation.sources = sources
  published : ∀ next ∈ publishedIn (exchanges (start.trace moves)), next.sources = sources
  made : ∀ handle ∈ madeIn (exchanges (start.trace moves)), handle.source ∈ sources
  compiled : ∀ index handle reply,
    ⟨index, .compile handle, reply⟩ ∈ start.trace moves → handle.source ∈ sources

variable {workers : Int} {pool : Pool} {evaluation : Evaluation} {moves : List (Move V)}
  {last : System V}

theorem sourcing_of_run (created : Pool.create? workers = .ok pool)
    (reached : (initial pool evaluation).run moves = some last)
    (sourced : ∀ (index : Nat) (thread : Thread V), last.threads[index]? = some thread →
      (thread.duty.program : Program V (Result V)).Uses (Instruction.Sourced sources)) :
    Sourcing sources (initial pool evaluation) moves last := by
  have asks {event : Event V} (cut : Cut (initial pool evaluation) moves last event) :
      event.exchange.instruction.Sourced sources := by
    obtain ⟨duty, program, found⟩ := cut.exists_thread
    exact cut.uses found (sourced _ _ found)
  have published (next : Generation)
      (member : next ∈ publishedIn (exchanges ((initial pool evaluation : System V).trace moves))) :
      next.sources = sources := by
    obtain ⟨⟨index, exchange⟩, happened, same⟩ := List.mem_map.mp (mem_publishedIn.mp member)
    cases same
    obtain ⟨cut⟩ := cut_of_mem reached happened
    exact asks cut
  have made (handle : Handle)
      (member : handle ∈ madeIn (exchanges ((initial pool evaluation : System V).trace moves))) :
      handle.source ∈ sources := by
    obtain ⟨_, done, makes⟩ := List.mem_filterMap.mp member
    obtain ⟨⟨index, instruction, reply⟩, happened, rfl⟩ := List.mem_map.mp done
    obtain ⟨cut⟩ := cut_of_mem reached happened
    have asked := asks cut
    have possible := cut.answer.isPossible
    cases instruction with
    | create source generation =>
        cases makes
        exact possible.1 ▸ asked
    | submit source generation =>
        cases reply with
        | ok given =>
            cases makes
            exact possible.1 ▸ asked
        | error failure => cases makes
    | _ => cases makes
  refine ⟨?_, published, made, fun index handle reply happened => ?_⟩
  · rcases List.mem_cons.mp (mem_published_of_current reached) with initial | member
    · exact .inl initial
    · exact .inr (published _ member)
  · exact made handle ((sound_of_run created reached).begun _ _
      (works_of_compiled reached happened)).1

section Opened

variable {world : World V} {surroundings : Surroundings} {base : Option String}
  {locations : List RuleLocation}

theorem sources_of_opened (created : Pool.create? workers = .ok pool)
    (resolved : RuleLocation.resolveAll surroundings base locations = .ok sources)
    {answer : Engine.Answer V} (opened : ((initial pool evaluation).perform world
      (.openService true surroundings base locations)).1 = some (.ok answer)) :
    ((initial pool evaluation).perform world
      (.openService true surroundings base locations)).2.state.generation.sources = sources := by
  obtain ⟨count, -, ⟨moves, reached, -⟩, ⟨program, caller⟩, others, -⟩ :=
    perform_openService pool evaluation surroundings base locations world
  have ended : program = .done (.ok answer) := by
    have ended : ((initial pool evaluation).perform world
        (.openService true surroundings base locations)).2.result? 0 = some (.ok answer) := opened
    rw [result?, caller, Option.bind_some] at ended
    cases program with
    | done result =>
        cases ended
        rfl
    | step instruction rest => cases ended
  subst ended
  have sourced (index : Nat) (thread : Thread V)
      (found : ((initial pool evaluation).perform world
        (.openService true surroundings base locations)).2.threads[index]? = some thread) :
      (thread.duty.program : Program V (Result V)).Uses (Instruction.Sourced sources) := by
    by_cases own : index = 0
    · subst own
      rw [caller] at found
      cases found
      exact openService_sourced true resolved
    · obtain ⟨duty, program⟩ := thread
      cases duty with
      | job executor handle => exact job_sourced executor handle
      | call call => exact absurd (others index _ own found) Bool.false_ne_true
  have sourcing := sourcing_of_run created reached sourced
  obtain ⟨number, handles, published⟩ := thread_keeps reached caller
    (openService_publishes true resolved) answer rfl
  have some := List.ne_nil_of_mem (mem_publishedIn.mpr ((exchangesOf_sublist 0 _).subset published))
  have current := (registered_of_run reached).current
  rw [List.getLastD_eq_getLast?, List.getLast?_eq_some_getLast some, Option.getD_some] at current
  rw [current]
  exact sourcing.published _ (List.getLast_mem some)

end Opened

end System

end Schematron.Engine

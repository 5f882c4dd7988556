import Mathlib.Data.List.Perm.Subperm
import Mathlib.Data.List.ProdSigma
import Schematron.Proofs.Engine.Serial

/-!
Opening: a service of its own that is started on a new system. Main statement: once it has opened,
the system is at rest.
-/

namespace Schematron.Engine

open Program

variable {V : Type} {world : World V}

theorem watchAll_registers (handles : List Handle) (past : List (Exchange V)) :
    (watchAll handles : Program V Unit).Keeps anything (fun later _ =>
      ∀ handle ∈ handles, ∃ reply, ⟨.register handle .noteFailure, reply⟩ ∈ later) past := by
  induction handles generalizing past with
  | nil => exact fun _ member => nomatch member
  | cons handle rest ih =>
      simp only [watchAll, onDone, keeps_bind]
      refine ⟨trivial, fun found _ => ?_⟩
      have watched (program : Program V (Option Failure)) :
          program.Keeps anything (fun later _ => (watchAll rest : Program V Unit).Keeps anything
            (fun last _ => ∀ target ∈ handle :: rest,
              ∃ reply, ⟨.register target .noteFailure, reply⟩ ∈ last) later)
            (past ++ [⟨.register handle .noteFailure, found⟩]) := by
        refine (program.keeps_past _).mono fun later _ longer => ?_
        refine ((ih later).and ((watchAll rest).keeps_past later)).mono ?_
        rintro last _ ⟨others, further⟩ target member
        rcases List.mem_cons.mp member with rfl | member
        · exact ⟨found, (longer.trans further).subset (by simp)⟩
        · exact others target member
      exact watched _

def Watches (past : List (Exchange V)) : Prop :=
  ∃ before record next, past = before ++ [⟨.note record, ()⟩] ∧ publishedIn past = [next] ∧
    ∀ handle ∈ next.handles, ∃ reply, ⟨.register handle .noteFailure, reply⟩ ∈ past

theorem replaceGeneration_watches (sources : List RuleSource) {past : List (Exchange V)}
    (nothing : publishedIn past = []) :
    (replaceGeneration sources).Keeps anything
      (fun later found => ∀ number, found = .ok number → Watches later) past := by
  simp only [replaceGeneration, keeps_bind]
  refine ⟨trivial, fun replaced _ => ?_⟩
  refine ((submitAll_uses (replaced.number + 1) sources).adds _).mono ?_
  rintro _ ⟨handles, refusal⟩ ⟨submitting, rfl, submits⟩
  have submitted : publishedIn submitting = [] := by
    refine publishedIn_eq_nil fun exchange member next publishes => ?_
    obtain ⟨source, generation, same⟩ := submits exchange member
    rw [publishes] at same
    cases same
  cases refusal with
  | some failure =>
      simp only [keeps_bind]
      refine ((resolveAll .cancelled handles).keeps_past _).mono fun later _ _ => ?_
      exact ⟨trivial, fun _ _ number same => nomatch same⟩
  | none =>
      simp only [keeps_bind]
      refine ⟨trivial, fun _ _ => ?_⟩
      refine (((watchAll_uses handles).adds _).and (watchAll_registers handles _)).mono ?_
      rintro _ _ ⟨⟨watching, rfl, tends⟩, registers⟩
      refine ((resolveAll_uses .superseded replaced.handles).adds _).mono ?_
      rintro _ count ⟨asking, rfl, asks⟩
      have watched : publishedIn watching = [] :=
        publishedIn_eq_nil fun exchange member next same =>
          (same ▸ tends exchange member : (Instruction.publish next).Tends _)
      have asked : publishedIn asking = [] := publishedIn_eq_nil fun exchange member next same =>
        (same ▸ asks exchange member : (Instruction.publish next).Tends _)
      refine ⟨trivial, fun _ _ number _ => ?_⟩
      refine ⟨_, _, ⟨replaced.number + 1, sources, handles⟩, rfl, ?_, fun handle member => ?_⟩
      · simp only [publishedIn_append, nothing, submitted, watched, asked]
        rfl
      · obtain ⟨reply, registered⟩ := registers handle member
        exact ⟨reply, List.mem_append_left _ (List.mem_append_left _ registered)⟩

theorem configure_watches (surroundings : Surroundings) (base : Option String)
    (locations : List RuleLocation) {past : List (Exchange V)} (nothing : publishedIn past = []) :
    (configure surroundings base locations).Keeps anything
      (fun later found => ∀ number, found = .ok number → Watches later) past := by
  simp only [configure]
  split
  · intro _ same
    cases same
  · exact replaceGeneration_watches _ nothing

theorem openService_watches (surroundings : Surroundings) (base : Option String)
    (locations : List RuleLocation) :
    ((Call.openService true surroundings base locations).program : Program V (Result V)).Keeps
      anything (fun later found => ∀ answer, found = .ok answer → Watches later) [] := by
  refine keeps_bind.mpr ⟨trivial, fun _ _ => keeps_bind.mpr (keeps_bind.mpr ?_)⟩
  refine (configure_watches surroundings base locations rfl).mono fun later found watches => ?_
  cases found with
  | ok number => exact fun _ _ => watches number rfl
  | error failure =>
      refine keeps_bind.mpr (((shutdown true).keeps_past later).mono fun _ _ _ => ?_)
      exact fun _ same => nomatch same

def Exchange.milestone? : Exchange V → Option (Nat × Nat)
  | ⟨.submit _ _, .ok handle⟩ => some (0, handle.id)
  | ⟨.register handle _, _⟩ => some (1, handle.id)
  | ⟨.resolve handle _, some _⟩ => some (2, handle.id)
  | ⟨.publish _, _⟩ => some (3, 0)
  | ⟨.note _, _⟩ => some (4, 0)
  | _ => none

/-- Each handle of a generation passes three milestones, and the generation two more. -/
theorem milestones_le {events : List (Event V)} {ids : List Nat} (distinct : ids.Nodup)
    (passed : ∀ id ∈ ids, ∀ stage < 3,
      ∃ event ∈ events, event.exchange.milestone? = some (stage, id))
    (published : ∃ event ∈ events, event.exchange.milestone? = some (3, 0))
    (noted : ∃ event ∈ events, event.exchange.milestone? = some (4, 0)) :
    3 * ids.length + 2 ≤ events.length := by
  let milestones := (3, 0) :: (4, 0) :: List.range 3 ×ˢ ids
  have apart : milestones.Nodup := by
    simp [milestones, List.nodup_range.product distinct]
  have within : milestones ⊆ events.filterMap (·.exchange.milestone?) := by
    intro milestone member
    refine List.mem_filterMap.mpr ?_
    rcases List.mem_cons.mp member with rfl | member
    · exact published
    rcases List.mem_cons.mp member with rfl | member
    · exact noted
    · obtain ⟨stage, id⟩ := milestone
      obtain ⟨below, known⟩ := List.mem_product.mp member
      exact passed id known stage (List.mem_range.mp below)
  calc
    3 * ids.length + 2 = milestones.length := by simp [milestones, List.length_product]
    _ ≤ (events.filterMap (·.exchange.milestone?)).length :=
      (List.subperm_of_subset apart within).length_le
    _ ≤ events.length := List.length_filterMap_le _ _

def Instruction.Awaits : Instruction V → Prop
  | .await .. => True
  | _ => False

theorem Instruction.Configures.not_awaits (instruction : Instruction V)
    (configures : instruction.Configures) : ¬ instruction.Awaits := by
  cases instruction with
  | await => exact configures.elim
  | _ => exact id

theorem Instruction.Tends.not_awaits {permitted : Outcome V → Prop} (instruction : Instruction V)
    (tends : instruction.Tends permitted) : ¬ instruction.Awaits := by
  cases instruction with
  | await => exact tends.elim
  | _ => exact id

theorem openService_not_awaits (surroundings : Surroundings) (base : Option String)
    (locations : List RuleLocation) :
    ((Call.openService true surroundings base locations).program : Program V (Result V)).Uses
      (¬ ·.Awaits) := by
  have configures := (configure_uses (V := V) surroundings base locations).mono
    Instruction.Configures.not_awaits
  refine Uses.bind ((uses_send .openPool id).bind fun _ => configures.bind fun found => ?_)
    fun _ => uses_pure _
  cases found with
  | ok number => exact uses_pure _
  | error failure =>
      refine Uses.bind ((uses_send .closePool id).bind fun closed => ?_) fun _ => uses_pure _
      have withdraws := (resolveAll_uses (.cancelled : Outcome V) closed.2).mono
        Instruction.Tends.not_awaits
      refine withdraws.bind fun _ => ?_
      cases closed.1 with
      | none => exact uses_pure ()
      | some executor =>
          refine (uses_send (.abandon executor) id).bind fun _ => ?_
          exact uses_send (.drain executor) id

namespace System

section Opening

variable {workers : Int} {pool : Pool} {evaluation : Evaluation} {surroundings : Surroundings}
  {base : Option String} {locations : List RuleLocation}

structure Opening (world : World V) (pool : Pool) (evaluation : Evaluation) (call : Call)
    (count : Nat) (system : System V) : Prop where
  reached : ∃ moves, (initial pool evaluation).run moves = some system ∧
    ((initial pool evaluation).trace moves).length ≤ count ∧
    ∀ index handle reply, ⟨index, .compile handle, reply⟩ ∈ (initial pool evaluation).trace moves →
      reply = world.compile handle.source
  caller : ∃ program, system.threads[0]? = some ⟨.call call, program⟩
  others : ∀ index thread, index ≠ 0 → system.threads[index]? = some thread → thread.isJob = true
  ended : ∀ duty answer, system.threads[0]? = some ⟨duty, .done (.ok answer)⟩ → system.Idle

theorem Opening.start :
    Opening world pool evaluation (.openService true surroundings base locations) 0
      ((initial pool evaluation : System V).spawn
        (.ofDuty (.call (.openService true surroundings base locations)))) where
  reached := ⟨[.call (.openService true surroundings base locations)], rfl, Nat.le_refl 0,
    fun _ _ _ happened => nomatch happened⟩
  caller := ⟨_, rfl⟩
  others
    | 0, _, apart, _ => absurd rfl apart
    | _ + 1, _, _, found => nomatch found
  ended duty answer found := by
    have watches := openService_watches (V := V) surroundings base locations
    simp only [spawn, initial, Thread.ofDuty, Duty.program, List.nil_append,
      List.getElem?_cons_zero, Option.some.injEq, Thread.mk.injEq] at found
    rw [found.2] at watches
    obtain ⟨before, record, next, ending, -⟩ := watches answer rfl
    simp at ending

theorem Opening.keeps {count : Nat} {middle next : System V} {move : Move V}
    (opening : Opening world pool evaluation (.openService true surroundings base locations) count
      middle)
    (chosen : middle.nextMove? world = some move) (stepped : middle.step move = some next) :
    Opening world pool evaluation (.openService true surroundings base locations) (count + 1)
      next := by
  obtain ⟨⟨moves, reached, short, truthful⟩, ⟨program, caller⟩, others, ended⟩ := opening
  have single : middle.run [move] = some next := by rw [run_single, stepped]
  have further := (run_join reached single).1
  constructor
  case reached =>
    refine ⟨moves ++ [move], further, ?_, fun index handle reply happened => ?_⟩
    · rw [trace_concat reached stepped, List.length_append]
      cases middle.event? move <;> simp <;> omega
    · rw [trace_concat reached stepped, List.mem_append, Option.mem_toList] at happened
      rcases happened with old | new
      · exact truthful index handle reply old
      · exact compiled_of_nextMove? chosen stepped (Option.mem_def.mp new)
  case caller =>
    obtain ⟨⟨duty, later⟩, found, same⟩ := duty_of_run single caller
    cases same
    exact ⟨later, found⟩
  case others =>
    intro index thread apart found
    rcases duty_of_nextMove? chosen stepped found with job | ⟨before, there, same⟩
    · exact job
    · have job := others index before apart there
      rwa [Thread.isJob, same] at job
  case ended =>
    intro duty answer found
    rcases (step_transition stepped).thread found with ⟨old, -⟩ | ⟨new, -, -⟩ |
      ⟨instruction, rest, reply, old, happened, -⟩
    · rw [(ended duty answer old).nextMove?_eq_none] at chosen
      cases chosen
    · have within := (List.getElem?_eq_some_iff.mp caller).1
      omega
    · obtain ⟨later, there, same⟩ := duty_of_run single caller
      rw [found] at there
      cases there
      cases same
      -- Its last exchange is a note, which it makes when there is nothing else to do.
      obtain ⟨before, record, -, ending, -⟩ := thread_keeps further found
        (openService_watches surroundings base locations) answer rfl
      rw [trace_concat reached stepped, happened, exchangesOf_append, Option.toList_some,
        exchangesOf_single_self] at ending
      obtain ⟨-, last⟩ := List.append_inj' ending rfl
      cases last
      exact Idle.of_noted chosen stepped happened caller others found

theorem Opening.not_expires {count : Nat} {system : System V}
    (opening : Opening world pool evaluation (.openService true surroundings base locations) count
      system) : system.step (.expire 0) = none := by
  obtain ⟨⟨moves, reached, -⟩, ⟨program, caller⟩, -, -⟩ := opening
  -- It waits for no handle at any time, so that it cannot lose patience.
  have uses : program.Uses (¬ ·.Awaits) := thread_inherits reached
    (fun _ _ reply uses => uses.2 reply) caller (openService_not_awaits surroundings base locations)
  cases program with
  | done result => simp [step, goOn?, caller]
  | step instruction rest =>
      cases instruction with
      | await => exact absurd trivial uses.1
      | _ => simp [step, goOn?, caller, Move.answer?]

variable (pool evaluation surroundings base locations) in
theorem perform_openService (world : World V) :
    ∃ count ≤ enough, Opening world pool evaluation (.openService true surroundings base locations) count
      ((initial pool evaluation).perform world
        (.openService true surroundings base locations)).2 := by
  let start : System V := (initial pool evaluation).spawn
    (.ofDuty (.call (.openService true surroundings base locations)))
  have settles : ∃ count ≤ enough, Opening world pool evaluation
      (.openService true surroundings base locations) count (start.settle world enough) :=
    settle_induction Opening.start
      (fun _ _ _ _ before chosen stepped => before.keeps chosen stepped) enough
  obtain ⟨count, few, opening⟩ := settles
  have finishes : start.finish world enough 0 (999999 + 1) = start.settle world enough := by
    simp only [finish, opening.not_expires]
    split <;> rfl
  refine ⟨count, few, ?_⟩
  change Opening world pool evaluation _ count (start.finish world enough 0 (999999 + 1))
  rw [finishes]
  exact opening

/-- The time that it took to open a service is enough to go through its handles again. -/
theorem Opening.short {count : Nat} {system : System V} {duty : Duty} {answer : Engine.Answer V}
    (created : Pool.create? workers = .ok pool)
    (opening : Opening world pool evaluation (.openService true surroundings base locations) count
      system)
    (ended : system.threads[0]? = some ⟨duty, .done (.ok answer)⟩)
    (resolved : ∀ handle ∈ system.state.generation.handles,
      (system.state.condition handle).isResolved = true)
    (put : system.state.generation ≠ .initial) :
    3 * system.state.generation.handles.length + 2 ≤ count := by
  obtain ⟨⟨moves, reached, few, -⟩, ⟨program, caller⟩, others, -⟩ := opening
  rw [caller] at ended
  cases ended
  have published := mem_published_of_current reached
  obtain ⟨before, record, next, ending, only, registers⟩ := thread_keeps reached caller
    (openService_watches surroundings base locations) answer rfl
  -- Nobody else has put a generation in place.
  obtain ⟨⟨index, exchange⟩, happened, same⟩ :=
    List.mem_map.mp (mem_publishedIn.mp (List.mem_of_ne_of_mem put published))
  cases same
  have own : index = 0 := by
    by_contra apart
    obtain ⟨cut⟩ := cut_of_mem reached happened
    obtain ⟨call, program, held, -⟩ := publisher_of_cut cut
    cases others index _ apart held
  subst own
  have current : system.state.generation = next := by
    have member := mem_publishedIn.mpr (mem_exchangesOf.mpr happened)
    rwa [only, List.mem_singleton] at member
  have noted : ⟨.note record, ()⟩ ∈ exchangesOf 0 ((initial pool evaluation).trace moves) := by
    rw [ending]
    exact List.mem_append_right _ (List.mem_singleton_self _)
  have distinct : (system.state.generation.handles.map (·.id)).Nodup :=
    (sound_of_run created reached).nodup (registered_of_run reached).isOrderly.made
  have enough := milestones_le distinct ?_ ⟨_, happened, rfl⟩ ⟨_, mem_exchangesOf.mp noted, rfl⟩
  · rw [List.length_map] at enough
    exact Nat.le_trans enough few
  intro id member stage below
  obtain ⟨handle, included, rfl⟩ := List.mem_map.mp member
  match stage, below with
  | 0, _ =>
      obtain ⟨source, generation, done⟩ :=
        mem_submittedIn.mp (submitted_of_published reached published included)
      obtain ⟨event, happened, same⟩ := List.mem_map.mp done
      exact ⟨event, happened, by rw [same]; rfl⟩
  | 1, _ =>
      obtain ⟨reply, registered⟩ := registers handle (current ▸ included)
      exact ⟨_, mem_exchangesOf.mp registered, rfl⟩
  | 2, _ =>
      obtain ⟨outcome, settled⟩ := Condition.isResolved_iff.mp (resolved handle included)
      obtain ⟨⟨index, instruction, reply⟩, happened, gives⟩ := given_of_resolved reached settled
      refine ⟨_, happened, ?_⟩
      cases instruction with
      | resolve target given =>
          cases reply with
          | none => cases gives
          | some callbacks =>
              simp only [Exchange.resolution?, Option.ite_none_right_eq_some] at gives
              simp only [Exchange.milestone?, gives.1]
      | _ => cases gives

theorem Opening.atRest {count : Nat} {system : System V} {duty : Duty} {answer : Engine.Answer V}
    (created : Pool.create? workers = .ok pool)
    (ends : ∀ source, (world.outcome source).isSome = true) (few : count ≤ enough)
    (opening : Opening world pool evaluation (.openService true surroundings base locations) count
      system)
    (ended : system.threads[0]? = some ⟨duty, .done (.ok answer)⟩) : system.AtRest := by
  have idle := opening.ended duty answer ended
  have settled := idle.settled
  obtain ⟨moves, reached, -, truthful⟩ := opening.reached
  have resolved (handle : Handle) (included : handle ∈ system.state.generation.handles) :
      (system.state.condition handle).isResolved = true := by
    have submitted :=
      submitted_of_published reached (mem_published_of_current reached) included
    rcases settled.ends_of_finished idle.compiling_eq_nil created reached submitted with
      ⟨outcome, resolved⟩ | ⟨-, index, reply, compiled, unended⟩
    · rw [resolved]
      rfl
    · have comes := ends handle.source
      rw [truthful index handle reply compiled, world.ofCompiled_eq] at unended
      rw [unended] at comes
      cases comes
  refine ⟨idle, settled.unreserved reached, resolved, ?_⟩
  by_cases put : system.state.generation = .initial
  · rw [put]
    decide
  · exact Nat.le_trans (opening.short created ended resolved put) few

theorem atRest_of_opened (created : Pool.create? workers = .ok pool)
    (ends : ∀ source, (world.outcome source).isSome = true) {answer : Engine.Answer V}
    (opened : ((initial pool evaluation).perform world
      (.openService true surroundings base locations)).1 = some (.ok answer)) :
    ((initial pool evaluation).perform world
      (.openService true surroundings base locations)).2.AtRest := by
  obtain ⟨count, few, opening⟩ :=
    perform_openService pool evaluation surroundings base locations world
  obtain ⟨program, caller⟩ := opening.caller
  have ended : ((initial pool evaluation).perform world
      (.openService true surroundings base locations)).2.result? 0 = some (.ok answer) := opened
  rw [result?, caller, Option.bind_some] at ended
  cases program with
  | done result =>
      cases ended
      exact opening.atRest created ends few caller
  | step instruction rest => cases ended

end Opening

end System

end Schematron.Engine

import Schematron.Proofs.Engine.Provenance
import Schematron.Proofs.Sequence

/-!
Resolution: how one handle fares in a run. Main statement: it resolves at most once and for good,
whatever order the steps of its worker and of those who withdraw it come in, and everybody who asks
is told the same.
-/

namespace Schematron.Engine

open Program

variable {V : Type}

inductive Condition.Follows : Condition V → Condition V → Prop
  | same (condition : Condition V) : Follows condition condition
  | begun : Follows .pending .running
  | withdrawn (isSuperseded : Bool) : Follows .pending (.resolved (.withdrawn isSuperseded))
  | ended (outcome : Outcome V) : Follows .running (.resolved outcome)

inductive Condition.Ends (handle : Handle) : Except Failure V → Condition V → Prop
  | succeeded (validator : V) : Ends handle (.ok validator) (.resolved (.succeeded validator))
  | failed (failure : CompilationFailure) :
      Ends handle (.error (.compilation failure)) (.resolved (.failed failure))
  | cancelled {failure : Failure} : failure.isCancellation = true →
      Ends handle (.error failure) (.resolved .cancelled)
  | unexpected {failure : Failure} : (∀ own, failure ≠ .compilation own) →
      failure.isCancellation = false → failure.onWriting? = none →
      Ends handle (.error failure)
        (.resolved (.failed (.unexpected handle.source.toString failure)))
  | unwritable {failure raised : Failure} : failure.onWriting? = some raised →
      Ends handle (.error failure) .running

theorem Condition.ends_ofCompiled (handle : Handle) (result : Except Failure V) :
    Condition.Ends handle result ((Outcome.ofCompiled handle result).elim .running .resolved) := by
  cases result with
  | ok validator => exact .succeeded validator
  | error failure =>
      cases failure with
      | compilation failure => exact .failed failure
      | cancelled | superseded => exact .cancelled rfl
      | unwritable => exact .unwritable rfl
      | _ => exact .unexpected (by simp) rfl rfl

theorem Condition.ends_of_eq_some {handle : Handle} {result : Except Failure V}
    {outcome : Outcome V} (ended : Outcome.ofCompiled handle result = some outcome) :
    Condition.Ends handle result (.resolved outcome) := by
  have ends := Condition.ends_ofCompiled handle result
  rwa [ended] at ends

/-- Whatever can be written has an outcome. -/
theorem Outcome.ofCompiled_isSome (handle : Handle) {result : Except Failure V}
    (writable : ∀ failure, result = .error failure → failure.onWriting? = none) :
    (Outcome.ofCompiled handle result).isSome = true := by
  have ends := Condition.ends_ofCompiled handle result
  cases ended : Outcome.ofCompiled handle result with
  | some outcome => rfl
  | none =>
      rw [ended] at ends
      cases ends with
      | unwritable silent =>
          rw [writable _ rfl] at silent
          cases silent

/-! What callers do -/

theorem resolutionsIn_of_callsBack {program : Program V α} {target : Handle}
    (uses : program.Uses (Instruction.CallsBack target)) (handle : Handle)
    (past : List (Exchange V)) :
    program.Keeps anything (fun later _ => resolutionsIn handle later = resolutionsIn handle past)
      past := by
  refine uses.keeps (fun _ _ _ _ => trivial) (fun later instruction reply permitted same => ?_) rfl
  cases instruction with
  | note | call =>
      rw [resolutionsIn_append, resolutionsIn_single, same]
      exact List.append_nil _
  | _ => exact permitted.elim

theorem cancel_keeps (handle : Handle) (isSuperseded : Bool) :
    ((Call.cancel handle isSuperseded).program : Program V (Result V)).Keeps anything
      (fun past result => ∃ isFirst, result = .ok (.flag isFirst) ∧
        resolutionsIn handle past = if isFirst then [.withdrawn isSuperseded] else []) [] := by
  simp only [Call.program, cancel, resolve, keeps_bind]
  refine ⟨trivial, fun found _ => ?_⟩
  cases found with
  | none => exact ⟨false, rfl, rfl⟩
  | some callbacks =>
      simp only [Keeps, keeps_bind]
      refine (resolutionsIn_of_callsBack (notify_uses _ _ callbacks) handle _).mono ?_
      refine fun later _ same => ⟨true, rfl, ?_⟩
      rw [same]
      simp [resolutionsIn, Exchange.resolution?]

theorem await_keeps (handle : Handle) (limit : TimeLimit) :
    ((Call.await handle limit).program : Program V (Result V)).Keeps anything
      (fun past result => ∃ reply, past = [⟨.await handle limit, reply⟩] ∧
        result = reply.map .validator) [] :=
  ⟨trivial, fun reply _ => ⟨reply, rfl, rfl⟩⟩

/-- A job that has ended has tried to resolve its handle as its compilation came out. -/
theorem job_delivers (executor : Nat) (handle : Handle) :
    ((Duty.job executor handle).program : Program V (Result V)).Keeps
      (workerRule executor handle) (fun past _ => Delivered handle past) [] := by
  simp only [Duty.program, keeps_bind]
  exact (job_keeps executor handle).mono fun past _ ended => ended.2

namespace System

/-! What one move does to a handle -/

section Moves

variable {events : List (Event V)} {system next : System V} {move : Move V}
  {event : Option (Event V)} {handle : Handle}

theorem Sound.follows (sound : Sound events system)
    (transition : Transition system move event next)
    (lawful : ∀ happened, event = some happened → Lawful events system happened)
    (made : handle ∈ madeIn (exchanges events)) :
    (system.state.condition handle).Follows (next.state.condition handle) := by
  rcases transition.condition handle with ⟨-, same | ⟨pending, running⟩⟩ |
    ⟨outcome, given, unresolved, settles⟩
  · rw [same]
    exact .same _
  · rw [pending, running]
    exact .begun
  · rw [settles (sound.knows made)]
    cases condition : system.state.condition handle with
    | running => exact .ended outcome
    | resolved _ => simp [condition, Condition.isResolved, Condition.outcome?] at unresolved
    | pending =>
        cases event with
        | none => simp at given
        | some happened =>
            rw [Option.toList_some, exchanges_single, resolutionsIn_single,
              Option.toList_eq_singleton_iff] at given
            rcases (lawful happened rfl).resolution given with ⟨isSuperseded, rfl⟩ |
              ⟨target, _, same, works, -⟩
            · exact .withdrawn isSuperseded
            · have begun := (sound.begun _ target works).2
              rw [system.state.condition_of_id_eq same] at begun
              exact absurd condition begun

theorem Transition.outcome (transition : Transition system move event next)
    (known : system.state.Knows handle) :
    (system.state.condition handle).outcome?.toList ++
        resolutionsIn handle (exchanges event.toList) =
      (next.state.condition handle).outcome?.toList := by
  rcases transition.condition handle with ⟨nothing, same | ⟨pending, running⟩⟩ |
    ⟨outcome, given, unresolved, settles⟩
  · simp [nothing, same]
  · simp [nothing, pending, running, Condition.outcome?]
  · have unresolved : (system.state.condition handle).outcome? = none := by
      simpa [Condition.isResolved] using unresolved
    rw [given, unresolved, settles known]
    rfl

theorem Answer.awaited {thread : Nat} {state after : State V} {limit : TimeLimit}
    {reply : Except Failure V} (answer : Answer thread state (.await handle limit) reply after) :
    (∃ outcome, state.condition handle = .resolved outcome ∧ reply = outcome.result handle) ∨
    ((state.condition handle).isResolved = false ∧ limit ≠ .unlimited ∧
      reply = .error (.timeout handle.source.toString limit)) := by
  cases answer with
  | await limit resolved => exact .inl ⟨_, resolved, rfl⟩
  | expire unresolved limited => exact .inr ⟨unresolved, limited, rfl⟩

end Moves

theorem Answer.resolved {thread : Nat} {state next : State V} {handle : Handle}
    {outcome : Outcome V} {reply : Option (List Callback)}
    (answer : Answer thread state (.resolve handle outcome) reply next)
    (known : state.Knows handle) : (next.condition handle).isResolved = true := by
  cases answer with
  | tooLate _ late => exact late
  | resolve _ unresolved =>
      rw [State.condition_update, if_pos ⟨rfl, known⟩]
      rfl

/-! What whole runs do to a handle -/

def Told (handle : Handle) (first last : State V) (limit : TimeLimit) (reply : Except Failure V) :
    Prop :=
  (∃ outcome, last.condition handle = .resolved outcome ∧ reply = outcome.result handle) ∨
  ((first.condition handle).isResolved = false ∧ limit ≠ .unlimited ∧
    reply = .error (.timeout handle.source.toString limit))

section Runs

variable {workers : Int} {pool : Pool} {evaluation : Evaluation} {past later : List (Move V)}
  {first last : System V} {handle : Handle}

theorem knows_of_run (known : first.state.Knows handle) (continued : first.run later = some last) :
    last.state.Knows handle := by
  refine run_induction (motive := fun _ system => system.state.Knows handle) known ?_ continued
  exact fun _ _ _ _ _ known stepped => (step_transition stepped).knows known

theorem outcome_of_run (known : first.state.Knows handle)
    (continued : first.run later = some last) :
    (first.state.condition handle).outcome?.toList ++
        resolutionsIn handle (exchanges (first.trace later)) =
      (last.state.condition handle).outcome?.toList := by
  refine run_induction (motive := fun moves system =>
    (first.state.condition handle).outcome?.toList ++
        resolutionsIn handle (exchanges (first.trace moves)) =
      (system.state.condition handle).outcome?.toList) (by simp) ?_ continued
  intro moves middle move next reached same stepped
  rw [trace_concat reached stepped, exchanges_append, resolutionsIn_append, ← List.append_assoc,
    same, (step_transition stepped).outcome (knows_of_run known reached)]

theorem resolved_of_run (continued : first.run later = some last) {outcome : Outcome V}
    (resolved : first.state.condition handle = .resolved outcome) :
    last.state.condition handle = .resolved outcome ∧
      resolutionsIn handle (exchanges (first.trace later)) = [] := by
  have same := outcome_of_run (State.knows_of_resolved resolved) continued
  rw [resolved] at same
  cases condition : last.state.condition handle with
  | resolved other =>
      rw [condition] at same
      simp only [Condition.outcome?, Option.toList_some, List.cons_append, List.nil_append,
        List.cons.injEq] at same
      exact ⟨by rw [same.1], same.2⟩
  | _ => simp [condition, Condition.outcome?] at same

theorem isResolved_of_run (continued : first.run later = some last)
    (resolved : (first.state.condition handle).isResolved = true) :
    (last.state.condition handle).isResolved = true := by
  obtain ⟨outcome, settled⟩ := Condition.isResolved_iff.mp resolved
  exact Condition.isResolved_iff.mpr ⟨outcome, (resolved_of_run continued settled).1⟩

theorem resolved_of_given (known : first.state.Knows handle)
    (continued : first.run later = some last)
    {outcome : Outcome V}
    (given : outcome ∈ resolutionsIn handle (exchanges (first.trace later))) :
    last.state.condition handle = .resolved outcome := by
  have settled : outcome ∈ (last.state.condition handle).outcome?.toList := by
    rw [← outcome_of_run known continued]
    exact List.mem_append_right _ given
  rw [Option.mem_toList] at settled
  cases condition : last.state.condition handle with
  | resolved other =>
      rw [condition] at settled
      simp only [Condition.outcome?, Option.some.injEq] at settled
      rw [settled]
  | _ => simp [condition, Condition.outcome?] at settled

/-- A handle that somebody has asked to resolve has resolved. -/
theorem resolved_of_asked (known : first.state.Knows handle)
    (continued : first.run later = some last) {index : Nat} {outcome : Outcome V}
    {reply : Option (List Callback)}
    (asked : ⟨index, .resolve handle outcome, reply⟩ ∈ first.trace later) :
    (last.state.condition handle).isResolved = true := by
  obtain ⟨cut⟩ := cut_of_mem continued asked
  exact isResolved_of_run cut.continued (cut.answer.resolved (knows_of_run known cut.reached))

/-- Whatever resolves in the course of some moves was given its outcome by one of them. -/
theorem given_of_run (known : first.state.Knows handle) (continued : first.run later = some last)
    (unresolved : (first.state.condition handle).isResolved = false) {outcome : Outcome V}
    (resolved : last.state.condition handle = .resolved outcome) :
    ∃ event ∈ first.trace later, event.exchange.resolution? handle = some outcome := by
  have unknown : (first.state.condition handle).outcome? = none := by
    simpa [Condition.isResolved] using unresolved
  have given := outcome_of_run known continued
  rw [unknown, resolved, Option.toList_none, List.nil_append] at given
  have member : outcome ∈ resolutionsIn handle (exchanges (first.trace later)) := by
    rw [given]
    exact List.mem_singleton_self outcome
  obtain ⟨exchange, done, gives⟩ := List.mem_filterMap.mp member
  obtain ⟨event, happened, rfl⟩ := List.mem_map.mp done
  exact ⟨event, happened, gives⟩

theorem told_of_run (continued : first.run later = some last) {index : Nat}
    {limit : TimeLimit} {reply : Except Failure V}
    (asked : ⟨index, .await handle limit, reply⟩ ∈ first.trace later) :
    Told handle first.state last.state limit reply := by
  refine run_induction (motive := fun moves system =>
    ⟨index, .await handle limit, reply⟩ ∈ first.trace moves →
      Told handle first.state system.state limit reply) (by simp) ?_ continued asked
  intro moves middle move next reached before stepped asked
  have transition := step_transition stepped
  have single : middle.run [move] = some next := by rw [run_single, stepped]
  have stays {outcome : Outcome V} (resolved : middle.state.condition handle = .resolved outcome) :
      next.state.condition handle = .resolved outcome :=
    (resolved_of_run single resolved).1
  rw [trace_concat reached stepped, List.mem_append, Option.mem_toList] at asked
  rcases asked with old | new
  · rcases before old with ⟨outcome, resolved, told⟩ | unresolved
    · exact .inl ⟨outcome, stays resolved, told⟩
    · exact .inr unresolved
  · rw [Option.mem_def.mp new] at transition
    rcases transition.event.1.awaited with ⟨outcome, resolved, told⟩ | ⟨unresolved, told⟩
    · exact .inl ⟨outcome, stays resolved, told⟩
    · refine .inr ⟨?_, told⟩
      rw [← Bool.not_eq_true] at unresolved ⊢
      exact fun resolved => unresolved (isResolved_of_run reached resolved)

/-- Whatever the worker of a handle has tried to resolve has resolved. -/
theorem resolved_of_delivered (created : Pool.create? workers = .ok pool)
    (reached : (initial pool evaluation).run past = some last) {index : Nat}
    (works : last.Works index handle) {outcome : Outcome V} {reply : Option (List Callback)}
    (asked : ⟨index, .resolve handle outcome, reply⟩ ∈ (initial pool evaluation).trace past) :
    (last.state.condition handle).isResolved = true := by
  obtain ⟨cut⟩ := cut_of_mem reached asked
  obtain ⟨executor, program, found⟩ := works
  obtain ⟨rest, held⟩ := cut.comes found
  have sound := sound_of_run created cut.reached
  have known := sound.knows (sound.begun index handle ⟨executor, _, held⟩).1
  exact isResolved_of_run cut.continued (cut.answer.resolved known)

/-- A job leaves what its compilation came to, if nobody got ahead of it. -/
theorem ends_of_run (created : Pool.create? workers = .ok pool)
    (reached : (initial pool evaluation).run past = some last) {index executor : Nat}
    {result : Result V} (found : last.threads[index]? = some ⟨.job executor handle, .done result⟩)
    (alone : ∀ event ∈ (initial pool evaluation).trace past, event.thread ≠ index →
      event.exchange.resolution? handle = none) :
    ∃ compiled, compiledIn handle (exchanges ((initial pool evaluation).trace past)) = [compiled] ∧
      Condition.Ends handle compiled (last.state.condition handle) := by
  have sound := sound_of_run created reached
  have works : last.Works index handle := ⟨executor, _, found⟩
  obtain ⟨made, begun⟩ := sound.begun index handle works
  obtain ⟨compiled, single, delivers⟩ := thread_keeps reached found (job_delivers executor handle)
  rw [← sound.own index handle works] at single
  refine ⟨compiled, single, ?_⟩
  cases condition : last.state.condition handle with
  | pending => exact absurd condition begun
  | running =>
      have ends := Condition.ends_ofCompiled handle compiled
      cases ended : Outcome.ofCompiled handle compiled with
      | none => rwa [ended] at ends
      | some outcome =>
          obtain ⟨reply, asked⟩ := delivers outcome ended
          have resolved := resolved_of_delivered created reached works (mem_exchangesOf.mp asked)
          rw [condition] at resolved
          cases resolved
  | resolved outcome =>
      cases origin_of_resolved created reached made condition with
      | @withdrawn other call program target isSuperseded callbacks held same asked =>
          have apart : other ≠ index := by
            rintro rfl
            rw [found] at held
            cases held
          have gave := alone _ asked apart
          simp [Exchange.resolution?, same] at gave
      | compiled reply works compiling ended =>
          have member : reply.1 ∈
              compiledIn handle (exchanges ((initial pool evaluation).trace past)) :=
            List.mem_filterMap.mpr ⟨_, List.mem_map.mpr ⟨_, compiling, rfl⟩, if_pos rfl⟩
          rw [single, List.mem_singleton] at member
          rw [member] at ended
          exact Condition.ends_of_eq_some ended

/-- How a handle fares while a system goes from `first` to `last`, after some events. -/
structure ResolvesOnce (handle : Handle) (events : List (Event V)) (first : System V)
    (later : List (Move V)) (last : System V) : Prop where
  follows : ∀ move next, last.step move = some next →
    (last.state.condition handle).Follows (next.state.condition handle)
  -- The handle has one outcome at most, and it is the only one that it was ever given.
  outcome : (first.state.condition handle).outcome?.toList ++
      resolutionsIn handle (exchanges (first.trace later)) =
    (last.state.condition handle).outcome?.toList
  winner : ∀ event ∈ first.trace later, ∀ other ∈ first.trace later,
    (event.exchange.resolution? handle).isSome → (other.exchange.resolution? handle).isSome →
    event = other
  final : ∀ outcome, first.state.condition handle = .resolved outcome →
    last.state.condition handle = .resolved outcome
  -- A withdrawal says whether it was the one that resolved the handle.
  withdrawal : ∀ index isSuperseded result,
    last.threads[index]? = some ⟨.call (.cancel handle isSuperseded), .done result⟩ →
    ∃ isFirst, result = .ok (.flag isFirst) ∧
      resolutionsIn handle (exchangesOf index (events ++ first.trace later)) =
        if isFirst then [.withdrawn isSuperseded] else []
  won : ∀ index isSuperseded, first.threads.length ≤ index →
    last.threads[index]? =
      some ⟨.call (.cancel handle isSuperseded), .done (.ok (.flag true))⟩ →
    last.state.condition handle = .resolved (.withdrawn isSuperseded)
  succeeded : ∀ validator, last.state.condition handle = .resolved (.succeeded validator) →
    compiledIn handle (exchanges (events ++ first.trace later)) = [.ok validator]
  failed : ∀ failure, last.state.condition handle = .resolved (.failed failure) →
    ∃ raised, compiledIn handle (exchanges (events ++ first.trace later)) = [.error raised] ∧
      Outcome.ofCompiled handle (.error raised : Except Failure V) = some (.failed failure)
  -- A job that has ended, with nobody ahead of it, leaves what its compilation came to.
  ended : ∀ index executor result,
    last.threads[index]? = some ⟨.job executor handle, .done result⟩ →
    (∀ event ∈ events ++ first.trace later, event.thread ≠ index →
      event.exchange.resolution? handle = none) →
    ∃ compiled, compiledIn handle (exchanges (events ++ first.trace later)) = [compiled] ∧
      Condition.Ends handle compiled (last.state.condition handle)
  -- An outcome that comes too late is discarded.
  late : ∀ index duty outcome rest,
    last.threads[index]? = some ⟨duty, .step (.resolve handle outcome) rest⟩ →
    (last.state.condition handle).isResolved = true →
    last.step (.advance index) = some (last.goOn index last.state (rest none))
  told : ∀ index limit reply, ⟨index, .await handle limit, reply⟩ ∈ first.trace later →
    Told handle first.state last.state limit reply
  returned : ∀ index limit result, first.threads.length ≤ index →
    last.threads[index]? = some ⟨.call (.await handle limit), .done result⟩ →
    ∃ reply, result = reply.map .validator ∧ Told handle first.state last.state limit reply
  delivered : ∀ index duty limit rest outcome,
    last.threads[index]? = some ⟨duty, .step (.await handle limit) rest⟩ →
    last.state.condition handle = .resolved outcome →
    last.step (.advance index) =
        some (last.goOn index last.state (rest (outcome.result handle))) ∧
      last.step (.expire index) = none
  expired : ∀ index duty limit rest,
    last.threads[index]? = some ⟨duty, .step (.await handle limit) rest⟩ →
    (last.state.condition handle).isResolved = false →
    last.step (.advance index) = none ∧
      (limit = .unlimited → last.step (.expire index) = none) ∧
      (limit ≠ .unlimited → last.step (.expire index) = some (last.goOn index last.state
        (rest (.error (.timeout handle.source.toString limit)))))

theorem winner_of_run (known : first.state.Knows handle) (continued : first.run later = some last)
    {event other : Event V} (member : event ∈ first.trace later)
    (also : other ∈ first.trace later) (gives : (event.exchange.resolution? handle).isSome)
    (givesToo : (other.exchange.resolution? handle).isSome) : event = other := by
  obtain ⟨value, gives⟩ := Option.isSome_iff_exists.mp gives
  obtain ⟨rival, givesToo⟩ := Option.isSome_iff_exists.mp givesToo
  have all := outcome_of_run known continued
  rw [resolutionsIn, exchanges, List.filterMap_map] at all
  have within := List.sublist_append_right (first.state.condition handle).outcome?.toList
    ((first.trace later).filterMap ((fun exchange => exchange.resolution? handle) ∘ Event.exchange))
  rw [all] at within
  have distinct : (last.state.condition handle).outcome?.toList.Nodup := by
    cases (last.state.condition handle).outcome? <;> simp
  have won := Option.mem_toList.mp (within.subset (List.mem_filterMap.mpr ⟨_, member, gives⟩))
  have too := Option.mem_toList.mp (within.subset (List.mem_filterMap.mpr ⟨_, also, givesToo⟩))
  obtain rfl : value = rival := Option.some.inj (won.symm.trans too)
  exact eq_of_nodup_filterMap (distinct.sublist within) member also gives givesToo

theorem step_late {index : Nat} {duty : Duty} {outcome : Outcome V}
    {rest : Option (List Callback) → Program V (Result V)}
    (found : last.threads[index]? = some ⟨duty, .step (.resolve handle outcome) rest⟩)
    (resolved : (last.state.condition handle).isResolved = true) :
    last.step (.advance index) = some (last.goOn index last.state (rest none)) := by
  cases condition : last.state.condition handle with
  | resolved settled =>
      simp [step, goOn?, found, Move.answer?, Instruction.perform, State.resolve?, condition]
  | _ => simp [condition, Condition.isResolved, Condition.outcome?] at resolved

theorem step_delivered {index : Nat} {duty : Duty} {limit : TimeLimit} {outcome : Outcome V}
    {rest : Except Failure V → Program V (Result V)}
    (found : last.threads[index]? = some ⟨duty, .step (.await handle limit) rest⟩)
    (resolved : last.state.condition handle = .resolved outcome) :
    last.step (.advance index) =
        some (last.goOn index last.state (rest (outcome.result handle))) ∧
      last.step (.expire index) = none := by
  simp [step, goOn?, found, Move.answer?, Instruction.perform, resolved]

theorem step_expired {index : Nat} {duty : Duty} {limit : TimeLimit}
    {rest : Except Failure V → Program V (Result V)}
    (found : last.threads[index]? = some ⟨duty, .step (.await handle limit) rest⟩)
    (unresolved : (last.state.condition handle).isResolved = false) :
    last.step (.advance index) = none ∧
      (limit = .unlimited → last.step (.expire index) = none) ∧
      (limit ≠ .unlimited → last.step (.expire index) = some (last.goOn index last.state
        (rest (.error (.timeout handle.source.toString limit))))) := by
  cases condition : last.state.condition handle with
  | resolved settled => simp [condition, Condition.isResolved, Condition.outcome?] at unresolved
  | _ =>
      refine ⟨?_, ?_, fun limited => ?_⟩
      · simp [step, goOn?, found, Move.answer?, Instruction.perform, condition]
      · rintro rfl
        simp [step, goOn?, found, Move.answer?, condition]
      · cases limit with
        | unlimited => exact absurd rfl limited
        | _ => simp [step, goOn?, found, Move.answer?, condition]

theorem won_of_run (reached : (initial pool evaluation).run past = some first)
    (known : first.state.Knows handle) (continued : first.run later = some last) {index : Nat}
    (recent : first.threads.length ≤ index) {isSuperseded : Bool}
    (found : last.threads[index]? =
      some ⟨.call (.cancel handle isSuperseded), .done (.ok (.flag true))⟩) :
    last.state.condition handle = .resolved (.withdrawn isSuperseded) := by
  obtain ⟨whole, events⟩ := run_join reached continued
  obtain ⟨isFirst, same, resolutions⟩ := thread_keeps whole found (cancel_keeps handle isSuperseded)
  simp only [Except.ok.injEq, Answer.flag.injEq] at same
  rw [← same, events, exchangesOf_append, exchangesOf_trace_eq_nil reached recent,
    List.nil_append] at resolutions
  have member : Outcome.withdrawn isSuperseded ∈
      resolutionsIn handle (exchangesOf index (first.trace later)) := by
    simp [resolutions]
  exact resolved_of_given known continued
    (((exchangesOf_sublist index _).filterMap (Exchange.resolution? handle)).subset member)

/-- A handle that has been made resolves once and for good, and everybody is told the same. -/
theorem handle_resolves_once (created : Pool.create? workers = .ok pool)
    (reached : (initial pool evaluation : System V).run past = some first)
    (made : handle ∈ madeIn (exchanges ((initial pool evaluation).trace past)))
    (continued : first.run later = some last) :
    ResolvesOnce handle ((initial pool evaluation).trace past) first later last := by
  have known := (sound_of_run created reached).knows made
  obtain ⟨whole, events⟩ := run_join reached continued
  have sound := sound_of_run created whole
  have stillMade :
      handle ∈ madeIn (exchanges ((initial pool evaluation : System V).trace (past ++ later))) := by
    rw [events, exchanges_append, madeIn_append]
    exact List.mem_append_left _ made
  have asked {index : Nat} {limit : TimeLimit} {result : Result V}
      (recent : first.threads.length ≤ index)
      (found : last.threads[index]? = some ⟨.call (.await handle limit), .done result⟩) :
      ∃ reply, result = reply.map .validator ∧
        ⟨index, .await handle limit, reply⟩ ∈ first.trace later := by
    obtain ⟨reply, own, same⟩ := thread_keeps whole found (await_keeps handle limit)
    rw [events, exchangesOf_append, exchangesOf_trace_eq_nil reached recent,
      List.nil_append] at own
    exact ⟨reply, same, mem_exchangesOf.mp (own ▸ List.mem_singleton.mpr rfl)⟩
  rw [events] at sound stillMade
  constructor
  case follows =>
    intro move next stepped
    have lawful := lawful_of_event? whole stepped
    rw [events] at lawful
    exact sound.follows (step_transition stepped) lawful stillMade
  case outcome => exact outcome_of_run known continued
  case winner =>
    exact fun event member other also gives givesToo =>
      winner_of_run known continued member also gives givesToo
  case final => exact fun outcome resolved => (resolved_of_run continued resolved).1
  case withdrawal =>
    intro index isSuperseded result found
    rw [← events]
    exact thread_keeps whole found (cancel_keeps handle isSuperseded)
  case won =>
    exact fun index isSuperseded recent found => won_of_run reached known continued recent found
  case succeeded =>
    intro validator resolved
    rcases sound.ended handle stillMade _ resolved with ⟨isSuperseded, withdrawn⟩ |
      ⟨result, compiled, ended⟩
    · cases isSuperseded <;> simp [Outcome.withdrawn] at withdrawn
    · cases Condition.ends_of_eq_some ended
      exact compiled
  case failed =>
    intro failure resolved
    rcases sound.ended handle stillMade _ resolved with ⟨isSuperseded, withdrawn⟩ |
      ⟨result, compiled, ended⟩
    · cases isSuperseded <;> simp [Outcome.withdrawn] at withdrawn
    · cases result with
      | ok validator => simp [Outcome.ofCompiled] at ended
      | error raised => exact ⟨raised, compiled, ended⟩
  case ended =>
    rw [← events]
    exact fun index executor result found alone => ends_of_run created whole found alone
  case late => exact fun index duty outcome rest found resolved => step_late found resolved
  case told => exact fun index limit reply asked => told_of_run continued asked
  case returned =>
    intro index limit result recent found
    obtain ⟨reply, same, happened⟩ := asked recent found
    exact ⟨reply, same, told_of_run continued happened⟩
  case delivered =>
    exact fun index duty limit rest outcome found resolved => step_delivered found resolved
  case expired => exact fun index duty limit rest found unresolved => step_expired found unresolved

def beginning : List (Move Unit) :=
  [.call .start, .advance 0, .call (.submit default 1), .advance 1, .take 0,
    .begin 0 ⟨0, default, 1⟩, .advance 2]

def overtaking : List (Move Unit) :=
  -- The handle is superseded, and only then its compilation comes to an end.
  [.call (.cancel ⟨0, default, 1⟩ true), .advance 3, .compiled 2 (.ok ()) [], .advance 2,
    .call (.await ⟨0, default, 1⟩ (.count 5)), .advance 4]

theorem overtaken_resolves_once :
    ∃ pool first last, Pool.create? 1 = .ok pool ∧
      (initial pool ⟨none, .unlimited⟩).run beginning = some first ∧
      first.run overtaking = some last ∧
      ResolvesOnce ⟨0, default, 1⟩ ((initial pool ⟨none, .unlimited⟩).trace beginning) first
        overtaking last ∧
      last.state.condition ⟨0, default, 1⟩ = .resolved .superseded :=
  ⟨_, _, _, rfl, rfl, rfl,
    handle_resolves_once (rfl : Pool.create? 1 = _) rfl (.head _) rfl, rfl⟩

end Runs

end System

end Schematron.Engine

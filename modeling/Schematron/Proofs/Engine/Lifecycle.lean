import Schematron.Proofs.Engine.Mirroring
import Schematron.Proofs.Engine.Shutdown
import Schematron.Proofs.Engine.Supplies
import Schematron.Proofs.Engine.Turns
import Schematron.Proofs.Engine.Waiting

/-!
Lifecycle: how a service fares with its pool and its registry. Main statement: an owned pool runs
just while the service has been started and not shut down, and an injected one is left as it is; a
service that was shut down leaves nothing unresolved that it has handed in, and touches nothing of
others; and what fails leaves the registry as it was.
-/

namespace Schematron.Engine

open Program

variable {V α : Type}

/-! What becomes of the pool -/

def Exchange.pooled? : Exchange V → Option Bool
  | ⟨.openPool, _⟩ => some true
  | ⟨.closePool, _⟩ => some false
  | _ => none

def pooledIn (past : List (Exchange V)) : List Bool := past.filterMap Exchange.pooled?

@[simp] theorem pooledIn_nil : pooledIn ([] : List (Exchange V)) = [] := rfl

@[simp] theorem pooledIn_append (first second : List (Exchange V)) :
    pooledIn (first ++ second) = pooledIn first ++ pooledIn second := by
  simp [pooledIn]

def Instruction.IsSteady : Instruction V → Prop
  | .openPool => False
  | .closePool => False
  | _ => True

theorem Instruction.IsSteady.pooled?_eq {instruction : Instruction V}
    (steady : instruction.IsSteady) (reply : instruction.Reply) :
    Exchange.pooled? ⟨instruction, reply⟩ = none := by
  cases instruction with
  | openPool | closePool => exact steady.elim
  | _ => rfl

theorem Instruction.IsPoolless.isSteady (instruction : Instruction V)
    (poolless : instruction.IsPoolless) : instruction.IsSteady := by
  cases instruction with
  | openPool | closePool => exact poolless.elim
  | _ => trivial

theorem Program.Uses.steady {program : Program V α} (uses : program.Uses Instruction.IsSteady)
    (past : List (Exchange V)) :
    program.Keeps anything (fun later _ => pooledIn later = pooledIn past) past := by
  refine uses.keeps (fun _ _ _ _ => trivial) (fun later instruction reply steady same => ?_) rfl
  have silent : pooledIn [(⟨instruction, reply⟩ : Exchange V)] = [] :=
    List.filterMap_cons_none (steady.pooled?_eq reply)
  rw [pooledIn_append, silent, List.append_nil, same]

theorem shutdown_pools (waits : Bool) (past : List (Exchange V)) :
    (shutdown waits : Program V Unit).Keeps anything
      (fun later _ => (pooledIn later).getLast? = some false) past := by
  refine keeps_bind.mpr ⟨trivial, fun closed _ => ?_⟩
  have stopped : (pooledIn (past ++ [⟨.closePool, closed⟩])).getLast? = some false := by
    rw [pooledIn_append]
    exact List.getLast?_concat
  refine (Uses.steady (Uses.bind ?_ fun _ => ?_) _).mono fun later _ same => same ▸ stopped
  · refine (resolveAll_uses .cancelled closed.2).mono fun instruction tends => ?_
    exact (tends.isPoolless).isSteady
  · cases closed.1 with
    | none => exact uses_pure ()
    | some executor =>
        refine (uses_send (.abandon executor) trivial).bind fun _ => ?_
        split
        · exact uses_send (.drain executor) trivial
        · exact uses_pure ()

def Thread.opened (thread : Thread V) : Bool :=
  match thread.duty, thread.program with
  | .call (.openService ..), .done (.ok _) => true
  | _, _ => false

def Call.respects (ownsPool : Bool) : Call → Bool
  | start => !ownsPool
  | shutdown _ => !ownsPool
  | openService owns .. => owns == ownsPool
  | closeService owns => owns == ownsPool
  | _ => true

def Move.respects (ownsPool : Bool) : Move V → Bool
  | .call request => request.respects ownsPool
  | _ => true

theorem openService_pools (surroundings : Surroundings) (base : Option String)
    (locations : List RuleLocation) :
    (openService true surroundings base locations : Program V _).Keeps anything
      (fun later found => (pooledIn later).getLast? = some found.isOk) [] := by
  have configures := (configure_isPoolless (V := V) surroundings base locations).mono
    Instruction.IsPoolless.isSteady
  refine ⟨trivial, fun reply _ => keeps_bind.mpr (keeps_bind.mpr ?_)⟩
  refine (configures.steady _).mono fun later found same => ?_
  cases found with
  | ok number => exact congrArg List.getLast? same
  | error failure => exact keeps_bind.mpr ((shutdown_pools true later).mono fun _ _ last => last)

/-- Whoever starts or stops a service that owns its pool leaves that running or stopped. -/
theorem call_pools {call : Call} (handles : call.handlesPool = true)
    (respects : call.respects true = true) :
    (call.program : Program V (Result V)).Keeps anything (fun past result =>
      (pooledIn past).getLast? = some (Thread.opened ⟨.call call, .done result⟩)) [] := by
  cases call with
  | openService owns surroundings base locations =>
      cases handles
      refine keeps_bind.mpr ((openService_pools surroundings base locations).mono ?_)
      intro past found last
      cases found <;> exact last
  | closeService owns =>
      cases handles
      refine keeps_bind.mpr (keeps_bind.mpr ?_)
      refine (close.keeps_past _).mono fun past _ _ => ?_
      exact (shutdown_pools true past).mono fun _ _ last => last
  | start | shutdown => cases respects
  | _ => cases handles

/-- A thread that shuts a service down looks at the registry. -/
theorem closeService_looks (ownsPool : Bool) :
    ((Call.closeService ownsPool).program : Program V (Result V)).Keeps anything
      (fun past _ => ∃ generation, ⟨.snapshot, generation⟩ ∈ past) [] := by
  refine ⟨trivial, fun generation _ => (Program.keeps_past _ _).mono fun later _ longer => ?_⟩
  exact ⟨generation, longer.subset (List.mem_singleton_self _)⟩

theorem Call.manages_of_configures {call : Call} (configures : call.configures = true) :
    call.manages = true := by
  cases call with
  | configure | openService => rfl
  | _ => cases configures

theorem Call.serves_of_configures {call : Call} {ownsPool : Bool}
    (configures : call.configures = true) (respects : call.respects ownsPool = true) :
    call.serves ownsPool = true := by
  cases call with
  | configure => rfl
  | openService => exact respects
  | _ => cases configures

theorem Call.manages_of_handlesPool {call : Call} (handles : call.handlesPool = true)
    (respects : call.respects true = true) : call.manages = true := by
  cases call with
  | openService | closeService => rfl
  | start | shutdown => cases respects
  | _ => cases handles

/-- A service that does not own its pool neither starts nor stops it. -/
theorem Call.elsewhere_of_serves {call : Call} (serves : call.serves false = true) :
    call.handlesPool = false := by
  cases call with
  | openService owns | closeService owns =>
      cases owns with
      | false => rfl
      | true => cases serves
  | configure | evaluate | validate | reportOnly => rfl
  | _ => cases serves

theorem filterMap_exchangesOf {β : Type} {found : Exchange V → Option β} {index : Nat}
    {events : List (Event V)}
    (own : ∀ event ∈ events, (found event.exchange).isSome → event.thread = index) :
    (exchanges events).filterMap found = (exchangesOf index events).filterMap found := by
  induction events with
  | nil => rfl
  | cons event rest ih =>
      have others := ih fun other member => own other (List.mem_cons_of_mem _ member)
      by_cases same : event.thread = index
      · cases gives : found event.exchange <;>
          simpa [exchanges, exchangesOf, same, gives, List.filterMap_cons] using others
      · have silent : found event.exchange = none := by
          by_contra gives
          exact same (own event List.mem_cons_self (Option.isSome_iff_ne_none.mpr gives))
        simpa [exchanges, exchangesOf, same, silent, List.filterMap_cons] using others

namespace System

theorem Answer.running {thread : Nat} {state after : State V} {instruction : Instruction V}
    {reply : instruction.Reply} (answer : Answer thread state instruction reply after) :
    after.pool.isRunning = (Exchange.pooled? ⟨instruction, reply⟩).getD state.pool.isRunning := by
  cases answer with
  | submit source generation =>
      simp only [State.submit]
      split
      · rfl
      · split <;> rfl
  | register target callback =>
      simp only [State.register]
      split <;> rfl
  | openPool =>
      simp only [State.openPool]
      split
      next current running => simp [Pool.isRunning, running, Exchange.pooled?]
      next => rfl
  | _ => rfl

theorem Transition.running {system next : System V} {move : Move V} {event : Option (Event V)}
    (transition : Transition system move event next) :
    next.state.pool.isRunning = ((pooledIn (exchanges event.toList)).getLast?).getD
      system.state.pool.isRunning := by
  cases transition with
  | @answer _ index _ instruction _ reply state _ _ answer =>
      refine answer.running.trans ?_
      cases instruction <;> rfl
  | take taken =>
      obtain ⟨handle, -, rfl⟩ := State.take?_eq_some taken
      rfl
  | drop begun | begin begun =>
      obtain ⟨-, ⟨-, -, rfl⟩ | ⟨-, -, rfl⟩⟩ := State.begin?_eq_some begun <;> rfl
  | _ => rfl

theorem Answer.spares {thread : Nat} {state after : State V} {instruction : Instruction V}
    {reply : instruction.Reply} (answer : Answer thread state instruction reply after)
    {handle : Handle}
    (apart : ∀ target, instruction.target? = some target → target.id ≠ handle.id) :
    after.compilation handle = state.compilation handle := by
  cases answer with
  | create source generation => exact state.compilation_create source generation handle
  | submit source generation => exact state.compilation_submit source generation handle
  | openPool => exact state.compilation_openPool handle
  | @resolve target outcome unresolved =>
      rw [state.compilation_update, if_neg]
      exact fun both => apart target rfl both.1
  | register target callback =>
      simp only [State.register]
      split
      · rfl
      · rw [state.compilation_update, if_neg]
        exact fun both => apart target rfl both.1
  | _ => rfl

/-- How a host deals with a service: one call to manage it after the other, and nobody but the
service starts or stops a pool that it owns. Everything else may happen at any time. -/
structure Session (ownsPool : Bool) (start : System V) (moves : List (Move V)) : Prop where
  turns : start.takesTurns moves = true
  respectful : moves.all (Move.respects ownsPool) = true

section Runs

variable {workers : Int} {pool : Pool} {evaluation : Evaluation} {moves : List (Move V)}
  {last : System V} {ownsPool : Bool} {index : Nat} {call : Call} {duty : Duty}
  {program : Program V (Result V)} {handle : Handle}

theorem Session.respects (session : Session ownsPool (initial pool evaluation) moves)
    (reached : (initial pool evaluation).run moves = some last)
    (found : last.threads[index]? = some ⟨.call call, program⟩) :
    call.respects ownsPool = true := by
  obtain ⟨birth⟩ := exists_birth reached found
  exact List.all_eq_true.mp session.respectful _ birth.called

/-! The pool -/

theorem running_of_run (reached : (initial pool evaluation).run moves = some last) :
    last.state.pool.isRunning =
      ((pooledIn (exchanges ((initial pool evaluation).trace moves))).getLast?).getD
        pool.isRunning := by
  refine run_induction (motive := fun moves system => system.state.pool.isRunning =
    ((pooledIn (exchanges ((initial pool evaluation).trace moves))).getLast?).getD
      pool.isRunning) rfl ?_ reached
  intro moves middle move next reached before stepped
  rw [trace_concat reached stepped, exchanges_append, pooledIn_append, List.getLast?_append,
    (step_transition stepped).running, before, Option.getD_or]

theorem handles_of_pooled {event : Event V} (cut : Cut (initial pool evaluation) moves last event)
    (found : last.threads[event.thread]? = some ⟨duty, program⟩)
    (pooled : event.exchange.pooled?.isSome) : duty.handlesPool = true := by
  by_contra elsewhere
  rw [Bool.not_eq_true] at elsewhere
  have uses := duty_isPoolless (V := V) elsewhere
  have steady : event.exchange.instruction.IsSteady := (cut.uses found uses).isSteady
  obtain ⟨thread, instruction, reply⟩ := event
  rw [steady.pooled?_eq] at pooled
  cases pooled

/-- The pool runs as the last one has left it that was to start or to stop it. -/
theorem running_of_last (session : Session true (initial pool evaluation) moves)
    (reached : (initial pool evaluation).run moves = some last) {result : Result V}
    (found : last.threads[index]? = some ⟨.call call, .done result⟩)
    (handles : call.handlesPool = true)
    (latest : ∀ later thread, index < later → last.threads[later]? = some thread →
      thread.duty.handlesPool = false) :
    last.state.pool.isRunning = Thread.opened (V := V) ⟨.call call, .done result⟩ := by
  have respects := session.respects reached found
  have own := thread_keeps reached found (call_pools handles respects)
  obtain ⟨birth⟩ := exists_birth reached found
  have manages := Call.manages_of_handlesPool handles respects
  -- Those before it are through by then, and those after it leave the pool alone.
  have alone : ∀ event ∈ (birth.moment.asked call).trace birth.late,
      event.exchange.pooled?.isSome → event.thread = index := by
    intro event happened pooled
    have among : event ∈ (initial pool evaluation : System V).trace moves := by
      rw [birth.trace]
      exact List.mem_append_right _ happened
    obtain ⟨cut⟩ := cut_of_mem reached among
    obtain ⟨duty, program, held⟩ := cut.exists_thread
    have handles := handles_of_pooled cut held pooled
    have since : index ≤ event.thread := by
      refine birth.since session.turns manages happened held ?_
      cases duty with
      | job => cases handles
      | call other => exact Call.manages_of_handlesPool handles (session.respects reached held)
    by_contra different
    have elsewhere := latest event.thread _ (by omega) held
    rw [handles] at elsewhere
    cases elsewhere
  have before : exchangesOf index ((initial pool evaluation : System V).trace birth.early) = [] :=
    exchangesOf_trace_eq_nil birth.reached (Nat.le_of_eq birth.place)
  rw [birth.trace, exchangesOf_append, before, List.nil_append] at own
  rw [running_of_run reached, birth.trace, exchanges_append, pooledIn_append,
    List.getLast?_append]
  have same := filterMap_exchangesOf alone
  rw [← pooledIn, ← pooledIn] at same
  rw [same, own]
  rfl

theorem running_of_session (session : Session true (initial pool evaluation) moves)
    (stopped : pool.isRunning = false) (reached : (initial pool evaluation).run moves = some last)
    (finished : ∀ thread ∈ last.threads, thread.duty.handlesPool = true →
      thread.result?.isSome = true) :
    last.state.pool.isRunning =
      (last.threads.reverse.find? fun thread => thread.duty.handlesPool).any Thread.opened := by
  cases latest : last.threads.reverse.find? fun thread => thread.duty.handlesPool with
  | none =>
      have nothing : pooledIn (exchanges ((initial pool evaluation : System V).trace moves)) =
          [] := by
        refine List.filterMap_eq_nil_iff.mpr fun exchange member => ?_
        obtain ⟨event, happened, rfl⟩ := List.mem_map.mp member
        by_contra gives
        obtain ⟨cut⟩ := cut_of_mem reached happened
        obtain ⟨duty, program, held⟩ := cut.exists_thread
        have handles := handles_of_pooled cut held (Option.isSome_iff_ne_none.mpr gives)
        have among := List.mem_reverse.mpr (List.mem_of_getElem? held)
        exact List.find?_eq_none.mp latest _ among handles
      rw [running_of_run reached, nothing]
      exact stopped
  | some thread =>
      obtain ⟨handles, after, before, split, others⟩ := List.find?_eq_some_iff_append.mp latest
      have threads : last.threads = before.reverse ++ thread :: after.reverse := by
        simpa using congrArg List.reverse split
      have found : last.threads[before.length]? = some thread := by simp [threads]
      have ended := finished thread (List.mem_of_getElem? found) handles
      obtain ⟨duty, program⟩ := thread
      cases duty with
      | job => cases handles
      | call call =>
          cases program with
          | step => cases ended
          | done result =>
              refine running_of_last session reached found handles ?_
              intro later thread behind held
              obtain ⟨gap, rfl⟩ := Nat.exists_eq_add_of_lt behind
              have there : after.reverse[gap]? = some thread := by
                rw [threads, List.getElem?_append_right (by simp; omega)] at held
                simpa [Nat.add_assoc, Nat.add_sub_cancel_left] using held
              have member := List.mem_reverse.mp (List.mem_of_getElem? there)
              simpa using others thread member

/-- Whatever starts or stops a pool is a call of somebody who is to do so. -/
theorem mover_of_running {early late : List (Move V)} {move : Move V} {moment next : System V}
    (reached : (initial pool evaluation).run early = some moment)
    (stepped : moment.step move = some next) (continued : next.run late = some last)
    (changed : next.state.pool.isRunning ≠ moment.state.pool.isRunning) :
    ∃ index call program, move.thread? = some index ∧
      last.threads[index]? = some ⟨.call call, program⟩ ∧ call.handlesPool = true := by
  have runs := (step_transition stepped).running
  cases happens : moment.event? move with
  | none =>
      rw [happens] at runs
      exact absurd runs changed
  | some event =>
      let cut : Cut (initial pool evaluation) (early ++ move :: late) last event :=
        ⟨early, move, late, moment, next, rfl, reached, stepped, happens, continued⟩
      obtain ⟨duty, program, found⟩ := cut.exists_thread
      have pooled : event.exchange.pooled?.isSome := by
        rw [happens] at runs
        by_contra silent
        rw [Option.not_isSome_iff_eq_none] at silent
        simp [exchanges, pooledIn, silent] at runs
        exact changed runs
      have handles := handles_of_pooled cut found pooled
      cases duty with
      | job => cases handles
      | call call => exact ⟨event.thread, call, program, event?_thread happens, found, handles⟩

/-! The handles -/

theorem configures_of_submitted (reached : (initial pool evaluation).run moves = some last)
    (found : last.threads[index]? = some ⟨.call call, program⟩)
    (serves : call.serves ownsPool = true)
    (submitted : handle ∈ submittedIn (exchangesOf index ((initial pool evaluation).trace moves))) :
    call.configures = true := by
  by_contra keeps
  rw [Bool.not_eq_true] at keeps
  obtain ⟨source, generation, done⟩ := mem_submittedIn.mp submitted
  obtain ⟨cut⟩ := cut_of_mem reached (mem_exchangesOf.mp done)
  exact cut.uses found (call_isQuiet serves keeps)

theorem mem_submittedIn_exchanges {events : List (Event V)}
    (submitted : handle ∈ submittedIn (exchangesOf index events)) :
    handle ∈ submittedIn (exchanges events) :=
  ((exchangesOf_sublist index events).filterMap Exchange.submitted?).subset submitted

theorem resolved_of_supplied (created : Pool.create? workers = .ok pool)
    (reached : (initial pool evaluation).run moves = some last) {failure : Failure}
    (supplied : Supplied (exchangesOf index ((initial pool evaluation : System V).trace moves))
      (.error failure : Result V))
    (submitted : handle ∈ submittedIn (exchangesOf index ((initial pool evaluation).trace moves))) :
    (last.state.condition handle).isResolved = true := by
  obtain ⟨before, outcome, reply, after, own, earlier⟩ := supplied handle submitted
  obtain ⟨cut, same, -⟩ := exists_cut reached own
  have known := cut.knows created (mem_submittedIn_exchanges (same ▸ earlier))
  exact isResolved_of_run cut.continued (cut.answer.resolved known)

/-- Once a service is shut down, everything has resolved that it has handed in before. -/
theorem resolved_of_closed (session : Session ownsPool (initial pool evaluation) moves)
    (created : Pool.create? workers = .ok pool)
    (reached : (initial pool evaluation).run moves = some last) {closer : Nat} {owns : Bool}
    {result : Result V}
    (closed : last.threads[closer]? = some ⟨.call (.closeService owns), .done result⟩)
    (first : index < closer) (found : last.threads[index]? = some ⟨.call call, program⟩)
    (configures : call.configures = true)
    (submitted : handle ∈ submittedIn (exchangesOf index ((initial pool evaluation).trace moves))) :
    (last.state.condition handle).isResolved = true := by
  obtain ⟨generation, seen⟩ := thread_keeps reached closed (closeService_looks owns)
  obtain ⟨cut⟩ := cut_of_mem reached (mem_exchangesOf.mp seen)
  obtain ⟨rest, comes⟩ := cut.comes closed
  -- When the registry is looked at, everybody else is through.
  have through {place : Nat} {other : Call} {rest : Program V (Result V)}
      (held : cut.moment.threads[place]? = some ⟨.call other, rest⟩)
      (configures : other.configures = true) : ∃ result, rest = .done result := by
    refine cut.through session.turns comes rfl held (Call.manages_of_configures configures) ?_
    rintro rfl
    rw [comes] at held
    cases held
    cases configures
  have present : index < cut.moment.threads.length :=
    Nat.lt_trans first (List.getElem?_eq_some_iff.mp comes).1
  obtain ⟨⟨duty, rest⟩, there⟩ : ∃ thread, cut.moment.threads[index]? = some thread :=
    ⟨_, List.getElem?_eq_getElem present⟩
  obtain ⟨⟨same, latest⟩, later, rfl⟩ := duty_of_run cut.rest there
  rw [found] at later
  cases later
  obtain ⟨outcome, rfl⟩ := through there configures
  rw [cut.trace, ← cut.rest_trace, exchangesOf_append, idle_of_ended there cut.rest,
    List.append_nil] at submitted
  have supplied := thread_keeps cut.reached there (call_supplies configures)
  cases outcome with
  | error failure =>
      exact isResolved_of_run cut.rest (resolved_of_supplied created cut.reached supplied submitted)
  | ok answer =>
      obtain ⟨next, placed, included⟩ := supplied
      have included := included submitted
      by_cases current : next = cut.moment.state.generation
      -- What is current is withdrawn by the call itself, and what is not has been replaced.
      · have looked : cut.moment.state.generation = generation := cut.answer.snapshotted
        rw [current, looked] at included
        have discharged := (thread_keeps reached closed (duty_tidies _)).discharged
        exact resolved_of_discharged reached discharged (mem_exchangesOf.mp seen) included
          fun again => knows_of_seen created again included
      · have among : next ∈
            publishedIn (exchanges ((initial pool evaluation).trace cut.early)) :=
          mem_publishedIn.mpr ((exchangesOf_sublist index _).subset placed)
        refine isResolved_of_run cut.rest ?_
        exact resolved_of_replaced created cut.reached (List.mem_cons_of_mem _ among) current
          (fun place other rest next held configures _ => through held configures) included

theorem submitter_unique (created : Pool.create? workers = .ok pool)
    (reached : (initial pool evaluation : System V).run moves = some last) {first second : Nat}
    {target : Handle}
    (here : handle ∈ submittedIn
      (exchangesOf first ((initial pool evaluation : System V).trace moves)))
    (there : target ∈ submittedIn
      (exchangesOf second ((initial pool evaluation : System V).trace moves)))
    (same : handle.id = target.id) : first = second := by
  have distinct := (sound_of_run created reached).nodup (submittedIn_sublist_madeIn _)
  rw [submittedIn, exchanges, List.filterMap_map, List.map_filterMap] at distinct
  obtain ⟨source, generation, done⟩ := mem_submittedIn.mp here
  obtain ⟨_, _, also⟩ := mem_submittedIn.mp there
  have event := eq_of_nodup_filterMap distinct (mem_exchangesOf.mp done) (mem_exchangesOf.mp also)
    rfl (congrArg some same.symm)
  exact congrArg Event.thread event

/-- What the registry has shown was handed in by a service. -/
theorem supplier_of_shown (session : Session ownsPool (initial pool evaluation) moves)
    {event : Event V} (cut : Cut (initial pool evaluation) moves last event)
    (found : last.threads[event.thread]? = some ⟨.call call, program⟩)
    (serves : call.serves ownsPool = true)
    (shown : handle ∈ (exchangesOf event.thread
      ((initial pool evaluation).trace cut.early)).flatMap Exchange.shown) :
    ∃ supplier request latest, last.threads[supplier]? = some ⟨.call request, latest⟩ ∧
      request.serves ownsPool = true ∧
      handle ∈ submittedIn (exchangesOf supplier ((initial pool evaluation).trace moves)) := by
  have grown (place : Nat) (submitted : handle ∈ submittedIn (exchangesOf place
      ((initial pool evaluation).trace cut.early))) :
      handle ∈ submittedIn (exchangesOf place ((initial pool evaluation).trace moves)) := by
    rw [cut.trace, exchangesOf_append, submittedIn_append]
    exact List.mem_append_left _ submitted
  have published {generation : Generation} (member : generation ∈ .initial ::
      publishedIn (exchanges ((initial pool evaluation).trace cut.early)))
      (included : handle ∈ generation.handles) :
      ∃ supplier request latest, last.threads[supplier]? = some ⟨.call request, latest⟩ ∧
        request.serves ownsPool = true ∧
        handle ∈ submittedIn (exchangesOf supplier ((initial pool evaluation).trace moves)) := by
    obtain ⟨supplier, request, rest, held, configures, submitted⟩ :=
      supplier_of_published cut.reached member included
    obtain ⟨⟨duty, latest⟩, later, rfl⟩ := duty_of_run cut.rest held
    have respects := session.respects cut.ends later
    exact ⟨supplier, request, latest, later, Call.serves_of_configures configures respects,
      grown supplier submitted⟩
  obtain ⟨⟨instruction, reply⟩, done, shows⟩ := List.mem_flatMap.mp shown
  cases instruction with
  | submit source generation =>
      cases reply with
      | error failure => cases shows
      | ok made =>
          cases List.mem_singleton.mp shows
          have submitted := mem_submittedIn.mpr ⟨source, generation, done⟩
          exact ⟨event.thread, call, program, found, serves, grown _ submitted⟩
  | snapshot =>
      obtain ⟨earlier⟩ := cut_of_mem cut.reached (mem_exchangesOf.mp done)
      have member := mem_published_of_cut earlier
      rw [earlier.answer.snapshotted] at member
      exact published member shows
  | reserve =>
      obtain ⟨earlier⟩ := cut_of_mem cut.reached (mem_exchangesOf.mp done)
      have member := mem_published_of_cut earlier
      rw [← earlier.answer.reserved.2.1] at member
      exact published member shows
  | _ => cases shows

theorem untouched_of_served (session : Session false (initial pool evaluation) moves)
    (created : Pool.create? workers = .ok pool) {event : Event V}
    (cut : Cut (initial pool evaluation) moves last event)
    (found : last.threads[event.thread]? = some ⟨.call call, program⟩)
    (serves : call.serves false = true) {rest : Program V (Result V)}
    (held : last.threads[index]? = some ⟨duty, rest⟩)
    (foreign : ∀ request, duty = .call request → request.serves false = false)
    (submitted : handle ∈ submittedIn (exchangesOf index ((initial pool evaluation).trace moves))) :
    cut.next.state.compilation handle = cut.moment.state.compilation handle := by
  refine cut.transition.event.1.spares fun target targeted same => ?_
  have shown := cut.keeps found (call_modest serves) target targeted
  obtain ⟨supplier, request, latest, there, serving, supplied⟩ :=
    supplier_of_shown session cut found serves shown
  cases submitter_unique created cut.ends supplied submitted same
  rw [held] at there
  cases there
  rw [foreign request rfl] at serving
  cases serving

/-! The registry -/

theorem generation_of_failed (session : Session ownsPool (initial pool evaluation) moves)
    (reached : (initial pool evaluation : System V).run moves = some last) {failure : Failure}
    (birth : Birth (initial pool evaluation) moves last index call)
    (found : last.threads[index]? = some ⟨.call call, .done (.error failure)⟩)
    (configures : call.configures = true)
    (latest : ∀ later request program, index < later →
      last.threads[later]? = some ⟨.call request, program⟩ → request.configures = false) :
    last.state.generation = birth.moment.state.generation := by
  -- Whoever was there before is through, the call itself fails, and nobody after it configures.
  have silent : publishedIn (exchanges ((birth.moment.asked call).trace birth.late)) = [] := by
    refine List.eq_nil_iff_forall_not_mem.mpr fun next member => ?_
    obtain ⟨⟨place, exchange⟩, happened, rfl⟩ := List.mem_map.mp (mem_publishedIn.mp member)
    have among : ⟨place, .publish next, ()⟩ ∈ (initial pool evaluation : System V).trace moves := by
      rw [birth.trace]
      exact List.mem_append_right _ happened
    obtain ⟨cut⟩ := cut_of_mem reached among
    obtain ⟨other, program, held, replaces, -⟩ := publisher_of_cut cut
    have since := birth.since session.turns (Call.manages_of_configures configures) happened held
      (Call.manages_of_configures replaces)
    rcases Nat.lt_or_eq_of_le since with later | rfl
    · rw [latest place other program later held] at replaces
      cases replaces
    · have own := mem_publishedIn.mpr (mem_exchangesOf.mpr among)
      rw [unpublished_of_failed reached found] at own
      cases own
  rw [(registered_of_run reached).current, (registered_of_run birth.reached).current, birth.trace,
    exchanges_append, publishedIn_append, silent, List.append_nil]

/-- How a service fares that owns its pool, or was given one. -/
structure Lifecycle (ownsPool : Bool) (start : System V) (moves : List (Move V)) (last : System V) :
    Prop where
  -- An owned pool runs just when the last one to start or to stop it has started the service.
  running : ownsPool = true →
    (∀ thread ∈ last.threads, thread.duty.handlesPool = true → thread.result?.isSome = true) →
    last.state.pool.isRunning =
      (last.threads.reverse.find? fun thread => thread.duty.handlesPool).any Thread.opened
  -- Whatever starts or stops a pool that was given is no call of the service.
  given : ownsPool = false → ∀ early move late moment next, moves = early ++ move :: late →
    start.run early = some moment → moment.step move = some next →
    next.state.pool.isRunning ≠ moment.state.pool.isRunning →
    ∃ (index : Nat) (call : Call) (program : _), move.thread? = some index ∧
      last.threads[index]? = some ⟨.call call, program⟩ ∧ call.serves ownsPool = false
  closed : ∀ (closer : Nat) owns result,
    last.threads[closer]? = some ⟨.call (.closeService owns), .done result⟩ →
    ∀ index < closer, ∀ (call : Call) program,
      last.threads[index]? = some ⟨.call call, program⟩ → call.serves ownsPool = true →
      ∀ handle ∈ submittedIn (exchangesOf index (start.trace moves)),
        (last.state.condition handle).isResolved = true
  -- What others have handed in to a pool that was given is none of the concerns of a service.
  untouched : ownsPool = false → ∀ event (cut : Cut start moves last event) (call : Call) program,
    last.threads[event.thread]? = some ⟨.call call, program⟩ → call.serves ownsPool = true →
    ∀ (index : Nat) duty rest, last.threads[index]? = some ⟨duty, rest⟩ →
      (∀ request, duty = .call request → request.serves ownsPool = false) →
      ∀ handle ∈ submittedIn (exchangesOf index (start.trace moves)),
        cut.next.state.compilation handle = cut.moment.state.compilation handle
  failed : ∀ index call (birth : Birth start moves last index call) failure,
    last.threads[index]? = some ⟨.call call, .done (.error failure)⟩ → call.configures = true →
    (∀ later request program, index < later →
      last.threads[later]? = some ⟨.call request, program⟩ → request.configures = false) →
    last.state.generation = birth.moment.state.generation

def reopening : List (Move Unit) :=
  -- A service is started, fails to configure, is shut down, and fails to start again.
  [.call (.openService true ⟨default, fun _ => none⟩ none [.resolved default]),
    .advance 0, .advance 0, .advance 0, .advance 0, .advance 0, .advance 0, .limit (some 0),
    .call (.configure ⟨default, fun _ => none⟩ none [.resolved default]),
    .advance 1, .advance 1, .advance 1,
    .call (.closeService true), .advance 2, .advance 2, .advance 2, .advance 2, .advance 2,
    .call (.openService true ⟨default, fun _ => none⟩ none [.resolved default]),
    .advance 3, .advance 3, .advance 3, .advance 3, .advance 3, .advance 3, .advance 3]

def lending : List (Move Unit) :=
  -- A service is started and shut down with the pool of somebody else.
  [.call .start, .advance 0, .call (.submit default 0), .advance 1,
    .call (.openService false ⟨default, fun _ => none⟩ none [.resolved default]),
    .advance 2, .advance 2, .advance 2, .advance 2, .advance 2,
    .call (.closeService false), .advance 3, .advance 3]

end Runs

end System

end Schematron.Engine

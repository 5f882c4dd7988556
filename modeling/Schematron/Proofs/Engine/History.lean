import Mathlib.Data.List.Induction
import Schematron.Engine.System

/-!
Histories: what the threads of a system ask and are told in the course of a run. Main statements:
a run of the system is the run of every thread's own program, and each answer that a thread gets is
explained by the state at its moment.
-/

namespace Schematron.Engine

structure Exchange (V : Type) where
  instruction : Instruction V
  reply : instruction.Reply

structure Event (V : Type) where
  thread : Nat
  exchange : Exchange V

variable {V : Type}

def exchangesOf (index : Nat) (events : List (Event V)) : List (Exchange V) :=
  events.filterMap fun event => if event.thread = index then some event.exchange else none

@[simp] theorem exchangesOf_nil (index : Nat) : exchangesOf index ([] : List (Event V)) = [] := rfl

@[simp] theorem exchangesOf_append (index : Nat) (first second : List (Event V)) :
    exchangesOf index (first ++ second) = exchangesOf index first ++ exchangesOf index second := by
  simp [exchangesOf]

@[simp] theorem exchangesOf_single_self (index : Nat) (exchange : Exchange V) :
    exchangesOf index [⟨index, exchange⟩] = [exchange] := by
  simp [exchangesOf]

theorem exchangesOf_single_other {index other : Nat} (different : other ≠ index)
    (exchange : Exchange V) : exchangesOf index [⟨other, exchange⟩] = [] := by
  simp [exchangesOf, different]

theorem mem_exchangesOf {index : Nat} {events : List (Event V)} {exchange : Exchange V} :
    exchange ∈ exchangesOf index events ↔ ⟨index, exchange⟩ ∈ events := by
  simp only [exchangesOf, List.mem_filterMap]
  constructor
  · rintro ⟨⟨thread, found⟩, member, matched⟩
    split at matched
    next same =>
      simp only [Option.some.injEq] at matched
      simp only at same
      subst same matched
      exact member
    next => simp at matched
  · intro member
    exact ⟨_, member, by simp⟩

def exchanges (events : List (Event V)) : List (Exchange V) := events.map (·.exchange)

@[simp] theorem exchanges_nil : exchanges ([] : List (Event V)) = [] := rfl

@[simp] theorem exchanges_append (first second : List (Event V)) :
    exchanges (first ++ second) = exchanges first ++ exchanges second := by
  simp [exchanges]

@[simp] theorem exchanges_single (event : Event V) : exchanges [event] = [event.exchange] := rfl

theorem exchangesOf_sublist (index : Nat) (events : List (Event V)) :
    (exchangesOf index events).Sublist (exchanges events) := by
  induction events with
  | nil => exact List.Sublist.refl _
  | cons event rest ih =>
      by_cases same : event.thread = index
      · simpa [exchangesOf, exchanges, same] using ih
      · simpa [exchangesOf, exchanges, same] using ih.cons event.exchange

def Move.thread? : Move V → Option Nat
  | .advance thread => some thread
  | .expire thread => some thread
  | .compiled thread _ _ => some thread
  | .ran thread _ => some thread
  | .called thread _ => some thread
  | _ => none

namespace System

def event? (system : System V) (move : Move V) : Option (Event V) := do
  let index ← move.thread?
  match (← system.threads[index]?).program with
  | .done _ => none
  | .step instruction _ =>
      let (reply, _) ← move.answer? index system.state instruction
      return ⟨index, instruction, reply⟩

def trace (system : System V) : List (Move V) → List (Event V)
  | [] => []
  | move :: rest =>
      match system.step move with
      | some next => (system.event? move).toList ++ next.trace rest
      | none => []

/-! Runs, one move after the other -/

@[simp] theorem run_nil (system : System V) : system.run [] = some system := rfl

@[simp] theorem trace_nil (system : System V) : system.trace [] = [] := rfl

theorem run_append (system : System V) (first second : List (Move V)) :
    system.run (first ++ second) = (system.run first).bind fun middle => middle.run second := by
  induction first generalizing system with
  | nil => rfl
  | cons move rest ih =>
      simp only [List.cons_append, run]
      cases stepped : system.step move with
      | none => rfl
      | some next => exact ih next

theorem run_single (system : System V) (move : Move V) :
    system.run [move] = system.step move := by
  simp only [run]
  cases system.step move <;> rfl

theorem trace_append {system middle : System V} {first : List (Move V)}
    (reached : system.run first = some middle) (second : List (Move V)) :
    system.trace (first ++ second) = system.trace first ++ middle.trace second := by
  induction first generalizing system with
  | nil =>
      simp only [run_nil, Option.some.injEq] at reached
      subst middle
      rfl
  | cons move rest ih =>
      simp only [run] at reached
      cases stepped : system.step move with
      | none => simp [stepped] at reached
      | some next =>
          have reached : next.run rest = some middle := by simpa [stepped] using reached
          simp [trace, stepped, ih reached]

theorem trace_single {system next : System V} {move : Move V}
    (stepped : system.step move = some next) :
    system.trace [move] = (system.event? move).toList := by
  simp [trace, stepped]

theorem trace_concat {system middle next : System V} {moves : List (Move V)} {move : Move V}
    (reached : system.run moves = some middle) (stepped : middle.step move = some next) :
    system.trace (moves ++ [move]) = system.trace moves ++ (middle.event? move).toList := by
  rw [trace_append reached, trace_single stepped]

theorem run_join {start first last : System V} {past later : List (Move V)}
    (reached : start.run past = some first) (continued : first.run later = some last) :
    start.run (past ++ later) = some last ∧
      start.trace (past ++ later) = start.trace past ++ first.trace later := by
  refine ⟨?_, trace_append reached later⟩
  rw [run_append, reached, Option.bind_some, continued]

theorem run_induction {first : System V} {motive : List (Move V) → System V → Prop}
    (start : motive [] first)
    (keeps : ∀ moves middle move next, first.run moves = some middle → motive moves middle →
      middle.step move = some next → motive (moves ++ [move]) next) :
    ∀ {moves last}, first.run moves = some last → motive moves last := by
  intro moves
  induction moves using List.reverseRecOn with
  | nil =>
      intro last reached
      simp only [run_nil, Option.some.injEq] at reached
      exact reached ▸ start
  | append_singleton moves move ih =>
      intro last reached
      rw [run_append] at reached
      cases middleReached : first.run moves with
      | none => simp [middleReached] at reached
      | some middle =>
          rw [middleReached, Option.bind_some, run_single] at reached
          exact keeps moves middle move last middleReached (ih middleReached) reached

/-- A run, cut at a move that is one event. -/
structure Cut (start : System V) (moves : List (Move V)) (last : System V) (event : Event V) where
  early : List (Move V)
  move : Move V
  late : List (Move V)
  moment : System V
  next : System V
  whole : moves = early ++ move :: late
  reached : start.run early = some moment
  stepped : moment.step move = some next
  happens : moment.event? move = some event
  continued : next.run late = some last

namespace Cut

variable {start last : System V} {moves : List (Move V)} {event : Event V}

def behind {earlier : System V} {move : Move V} (stepped : earlier.step move = some start)
    (cut : Cut start moves last event) : Cut earlier (move :: moves) last event where
  early := move :: cut.early
  move := cut.move
  late := cut.late
  moment := cut.moment
  next := cut.next
  whole := congrArg (move :: ·) cut.whole
  reached := by simp only [run, stepped, Option.bind_eq_bind, Option.bind_some, cut.reached]
  stepped := cut.stepped
  happens := cut.happens
  continued := cut.continued

theorem rest (cut : Cut start moves last event) :
    cut.moment.run (cut.move :: cut.late) = some last := by
  simp only [run, cut.stepped, Option.bind_eq_bind, Option.bind_some, cut.continued]

theorem ends (cut : Cut start moves last event) : start.run moves = some last := by
  rw [cut.whole, run_append, cut.reached, Option.bind_some, cut.rest]

theorem rest_trace (cut : Cut start moves last event) :
    cut.moment.trace (cut.move :: cut.late) = event :: cut.next.trace cut.late := by
  simp [trace, cut.stepped, cut.happens]

theorem trace (cut : Cut start moves last event) :
    start.trace moves = start.trace cut.early ++ event :: cut.next.trace cut.late := by
  have parts := trace_append cut.reached (cut.move :: cut.late)
  rwa [← cut.whole, cut.rest_trace] at parts

end Cut

/-- What the thread of a cut has done before it, and what it does after it. -/
theorem Cut.own {start last : System V} {moves : List (Move V)} {index : Nat}
    {exchange : Exchange V} (cut : Cut start moves last ⟨index, exchange⟩) :
    exchangesOf index (start.trace moves) =
      exchangesOf index (start.trace cut.early) ++
        exchange :: exchangesOf index (cut.next.trace cut.late) := by
  have single : exchangesOf index [⟨index, exchange⟩] = [exchange] :=
    exchangesOf_single_self index exchange
  rw [cut.trace, exchangesOf_append, ← List.singleton_append, exchangesOf_append, single,
    List.singleton_append]

/-- Whatever a thread does in a run, it does at some moment. -/
theorem exists_cut {start last : System V} {moves : List (Move V)}
    (reached : start.run moves = some last) {index : Nat} {before after : List (Exchange V)}
    {exchange : Exchange V}
    (own : exchangesOf index (start.trace moves) = before ++ exchange :: after) :
    ∃ cut : Cut start moves last ⟨index, exchange⟩,
      exchangesOf index (start.trace cut.early) = before ∧
        exchangesOf index (cut.next.trace cut.late) = after := by
  induction moves generalizing start before with
  | nil => simp at own
  | cons move rest ih =>
      simp only [run] at reached
      cases stepped : start.step move with
      | none => simp [stepped] at reached
      | some next =>
          rw [stepped, Option.bind_eq_bind, Option.bind_some] at reached
          have split : start.trace (move :: rest) =
              (start.event? move).toList ++ next.trace rest := by
            simp only [System.trace, stepped]
          rw [split, exchangesOf_append] at own
          -- Either the move is the exchange, or it comes before it.
          have later {before : List (Exchange V)}
              (own : exchangesOf index (next.trace rest) = before ++ exchange :: after) :
              ∃ cut : Cut start (move :: rest) last ⟨index, exchange⟩,
                exchangesOf index (start.trace cut.early) =
                  exchangesOf index (start.event? move).toList ++ before ∧
                exchangesOf index (cut.next.trace cut.late) = after := by
            obtain ⟨cut, earlier, following⟩ := ih reached own
            refine ⟨cut.behind stepped, ?_, following⟩
            simp only [Cut.behind, System.trace, stepped, exchangesOf_append, earlier]
          cases happened : start.event? move with
          | none =>
              rw [happened] at own later
              exact later own
          | some event =>
              obtain ⟨thread, first⟩ := event
              rw [happened, Option.toList_some] at own later
              by_cases same : thread = index
              · subst thread
                rw [exchangesOf_single_self, List.singleton_append] at own
                rw [exchangesOf_single_self] at later
                cases before with
                | nil =>
                    rw [List.nil_append, List.cons.injEq] at own
                    obtain ⟨rfl, own⟩ := own
                    exact ⟨⟨[], move, rest, start, next, rfl, rfl, stepped, happened, reached⟩,
                      rfl, own⟩
                | cons other before =>
                    rw [List.cons_append, List.cons.injEq] at own
                    obtain ⟨rfl, own⟩ := own
                    exact later own
              · rw [exchangesOf_single_other same, List.nil_append] at own
                rw [exchangesOf_single_other same] at later
                exact later own

theorem cut_of_mem {start last : System V} {moves : List (Move V)}
    (reached : start.run moves = some last) {index : Nat} {exchange : Exchange V}
    (happened : ⟨index, exchange⟩ ∈ start.trace moves) :
    Nonempty (Cut start moves last ⟨index, exchange⟩) := by
  obtain ⟨before, after, own⟩ := List.append_of_mem (mem_exchangesOf.mpr happened)
  obtain ⟨cut, -⟩ := exists_cut reached own
  exact ⟨cut⟩

/-! What one move does -/

/-- What a thread can be told when it has come to an instruction, and what becomes of the state. -/
inductive Answer (thread : Nat) (state : State V) :
    (instruction : Instruction V) → instruction.Reply → State V → Prop
  | create (source : RuleSource) (generation : Int) :
      Answer thread state (.create source generation) (state.create source generation).1
        (state.create source generation).2
  | submit (source : RuleSource) (generation : Int) :
      Answer thread state (.submit source generation) (state.submit source generation).1
        (state.submit source generation).2
  | resolve {handle : Handle} (outcome : Outcome V) :
      (state.condition handle).isResolved = false →
      Answer thread state (.resolve handle outcome) (some (state.compilation handle).callbacks)
        (state.update handle ⟨.resolved outcome, []⟩)
  | tooLate {handle : Handle} (outcome : Outcome V) :
      (state.condition handle).isResolved = true →
      Answer thread state (.resolve handle outcome) none state
  | register (handle : Handle) (callback : Callback) :
      Answer thread state (.register handle callback) (state.register handle callback).1
        (state.register handle callback).2
  | await {handle : Handle} {outcome : Outcome V} (limit : TimeLimit) :
      state.condition handle = .resolved outcome →
      Answer thread state (.await handle limit) (outcome.result handle) state
  | expire {handle : Handle} {limit : TimeLimit} :
      (state.condition handle).isResolved = false → limit ≠ .unlimited →
      Answer thread state (.await handle limit) (.error (.timeout handle.source.toString limit))
        state
  | openPool : Answer thread state .openPool () state.openPool
  | closePool : Answer thread state .closePool state.closePool.1 state.closePool.2
  | abandon (executor : Nat) : Answer thread state (.abandon executor) () (state.abandon executor)
  | drain {executor : Nat} :
      state.isIdle executor = true → Answer thread state (.drain executor) () state
  | retire (executor : Nat) (handle : Handle) :
      Answer thread state (.retire executor handle) () (state.retire executor handle)
  | reserve :
      state.configuring = none →
      Answer thread state .reserve state.generation { state with configuring := some thread }
  | release : Answer thread state .release () { state with configuring := none }
  | publish (generation : Generation) :
      Answer thread state (.publish generation) ()
        { state with generation, configuring := none }
  | snapshot :
      state.configuring = none → Answer thread state .snapshot state.generation state
  | evaluation : Answer thread state .evaluation state.evaluation state
  | note (record : LogRecord) : Answer thread state (.note record) () (state.note record)
  | enter (executor : Nat) (handle : Handle) : Answer thread state (.enter executor handle) () state
  | compile (handle : Handle) (result : Except Failure V) (records : List LogRecord) :
      Answer thread state (.compile handle) (result, records) state
  | run (validator : V) (document : Document) (result : Except Failure (List Diagnostic)) :
      Answer thread state (.run validator document) result state
  | call (id : Nat) (handle : Handle) (raised : Option Failure) :
      Answer thread state (.call id handle) raised state

theorem answer_of_resolve {thread : Nat} {state next : State V} {handle : Handle}
    {outcome : Outcome V} {reply : Option (List Callback)}
    (performed : (Instruction.resolve handle outcome).perform thread state = some (reply, next)) :
    Answer thread state (.resolve handle outcome) reply next := by
  cases condition : state.condition handle <;>
    simp only [Instruction.perform, State.resolve?, condition, Option.some.injEq,
      Prod.mk.injEq] at performed <;>
    obtain ⟨rfl, rfl⟩ := performed
  · exact .resolve outcome (by rw [condition]; rfl)
  · exact .resolve outcome (by rw [condition]; rfl)
  · exact .tooLate outcome (by rw [condition]; rfl)

theorem answer_of_perform {thread : Nat} {state next : State V} {instruction : Instruction V}
    {reply : instruction.Reply}
    (performed : instruction.perform thread state = some (reply, next)) :
    Answer thread state instruction reply next := by
  cases instruction with
  | resolve handle outcome => exact answer_of_resolve performed
  | await handle limit =>
      cases condition : state.condition handle with
      | resolved outcome =>
          simp only [Instruction.perform, condition, Option.some.injEq, Prod.mk.injEq] at performed
          obtain ⟨rfl, rfl⟩ := performed
          exact .await limit condition
      | _ => simp [Instruction.perform, condition] at performed
  | drain executor =>
      simp only [Instruction.perform, Option.ite_none_right_eq_some, Option.some.injEq] at performed
      obtain ⟨idle, performed⟩ := performed
      cases performed
      exact .drain idle
  | reserve =>
      cases configuring : state.configuring with
      | none =>
          simp only [Instruction.perform, configuring, Option.some.injEq,
            Prod.mk.injEq] at performed
          obtain ⟨rfl, rfl⟩ := performed
          exact .reserve configuring
      | some _ => simp [Instruction.perform, configuring] at performed
  | snapshot =>
      cases configuring : state.configuring with
      | none =>
          simp only [Instruction.perform, configuring, Option.some.injEq,
            Prod.mk.injEq] at performed
          obtain ⟨rfl, rfl⟩ := performed
          exact .snapshot configuring
      | some _ => simp [Instruction.perform, configuring] at performed
  | compile | run | call => simp [Instruction.perform] at performed
  | _ =>
      obtain ⟨rfl, rfl⟩ : _ = reply ∧ _ = next :=
        ⟨congrArg Prod.fst (Option.some.inj performed),
          congrArg Prod.snd (Option.some.inj performed)⟩
      constructor

theorem answer_of_answer? {move : Move V} {thread : Nat} {state next : State V}
    {instruction : Instruction V} {reply : instruction.Reply}
    (answered : move.answer? thread state instruction = some (reply, next)) :
    Answer thread state instruction reply next := by
  cases move with
  | advance => exact answer_of_perform answered
  | expire =>
      cases instruction with
      | await handle limit =>
          cases condition : state.condition handle <;> cases limit <;>
            simp only [Move.answer?, condition, reduceCtorEq, Option.some.injEq,
              Prod.mk.injEq] at answered <;>
            (obtain ⟨rfl, rfl⟩ := answered
             exact .expire (by rw [condition]; rfl) (by simp))
      | _ => simp [Move.answer?] at answered
  | compiled _ result records =>
      cases instruction with
      | compile handle =>
          simp only [Move.answer?, Option.some.injEq, Prod.mk.injEq] at answered
          obtain ⟨rfl, rfl⟩ := answered
          exact .compile handle result records
      | _ => simp [Move.answer?] at answered
  | ran _ result =>
      cases instruction with
      | run validator document =>
          simp only [Move.answer?, Option.some.injEq, Prod.mk.injEq] at answered
          obtain ⟨rfl, rfl⟩ := answered
          exact .run validator document result
      | _ => simp [Move.answer?] at answered
  | called _ raised =>
      cases instruction with
      | call id handle =>
          simp only [Move.answer?, Option.some.injEq, Prod.mk.injEq] at answered
          obtain ⟨rfl, rfl⟩ := answered
          exact .call id handle raised
      | _ => simp [Move.answer?] at answered
  | _ => simp [Move.answer?] at answered

inductive Transition (system : System V) : Move V → Option (Event V) → System V → Prop
  | call (call : Call) :
      Transition system (.call call) none (system.spawn (.ofDuty (.call call)))
  | answer {move : Move V} {index : Nat} {thread : Thread V} {instruction : Instruction V}
      {rest : instruction.Reply → Program V (Result V)} {reply : instruction.Reply}
      {state : State V} :
      system.threads[index]? = some thread → thread.program = .step instruction rest →
      Answer index system.state instruction reply state →
      Transition system move (some ⟨index, instruction, reply⟩)
        (system.goOn index state (rest reply))
  | take {executor : Nat} {state : State V} :
      system.state.take? executor = some state →
      Transition system (.take executor) none { system with state }
  | drop {executor : Nat} {handle : Handle} {state : State V} :
      system.state.begin? executor handle = some (false, state) →
      Transition system (.begin executor handle) none { system with state }
  | begin {executor : Nat} {handle : Handle} {state : State V} :
      system.state.begin? executor handle = some (true, state) →
      Transition system (.begin executor handle) none
        ({ system with state }.spawn (.ofDuty (.job executor handle)))
  | adjust (evaluation : Evaluation) :
      Transition system (.adjust evaluation) none { system with state.evaluation := evaluation }
  | limit (submissions : Option Nat) :
      Transition system (.limit submissions) none { system with state.pool.quota := submissions }

theorem transition_goOn? {system next : System V} {index : Nat} {move : Move V}
    (moves : move.thread? = some index) (stepped : system.goOn? index move = some next) :
    Transition system move (system.event? move) next := by
  simp only [goOn?, event?, moves, Option.bind_eq_bind, Option.bind_some] at stepped ⊢
  cases found : system.threads[index]? with
  | none => simp [found] at stepped
  | some thread =>
      simp only [found, Option.bind_some] at stepped ⊢
      cases program : thread.program with
      | done _ => simp [program] at stepped
      | step instruction rest =>
          simp only [program, Option.bind_eq_some_iff] at stepped ⊢
          obtain ⟨⟨reply, state⟩, answered, reached⟩ := stepped
          simp only [Option.pure_def, Option.some.injEq] at reached
          subst next
          rw [answered]
          exact .answer found program (answer_of_answer? answered)

theorem step_transition {system next : System V} {move : Move V}
    (stepped : system.step move = some next) :
    Transition system move (system.event? move) next := by
  cases move with
  | call call =>
      simp only [step, Option.some.injEq] at stepped
      subst next
      exact .call call
  | take executor =>
      simp only [step, Option.bind_eq_bind, Option.bind_eq_some_iff, Option.pure_def,
        Option.some.injEq] at stepped
      obtain ⟨state, taken, rfl⟩ := stepped
      exact .take taken
  | begin executor handle =>
      simp only [step, Option.bind_eq_bind, Option.bind_eq_some_iff] at stepped
      obtain ⟨⟨starts, state⟩, begun, reached⟩ := stepped
      cases starts <;> cases reached
      · exact .drop begun
      · exact .begin begun
  | adjust evaluation =>
      simp only [step, Option.some.injEq] at stepped
      subst next
      exact .adjust evaluation
  | limit submissions =>
      simp only [step, Option.some.injEq] at stepped
      subst next
      exact .limit submissions
  | advance index => exact transition_goOn? rfl stepped
  | expire index => exact transition_goOn? rfl stepped
  | compiled index _ _ => exact transition_goOn? rfl stepped
  | ran index _ => exact transition_goOn? rfl stepped
  | called index _ => exact transition_goOn? rfl stepped

theorem step_of_perform {system : System V} {index : Nat} {duty : Duty}
    {instruction : Instruction V} {rest : instruction.Reply → Program V (Result V)}
    (found : system.threads[index]? = some ⟨duty, .step instruction rest⟩)
    {reply : instruction.Reply} {state : State V}
    (performed : instruction.perform index system.state = some (reply, state)) :
    system.step (.advance index) = some (system.goOn index state (rest reply)) := by
  simp [step, goOn?, found, Move.answer?, performed]

/-- A call whose first instruction need not wait. -/
theorem run_call {system : System V} {call : Call} {instruction : Instruction V}
    {rest : instruction.Reply → Program V (Result V)} {program : Program V (Result V)}
    {reply : instruction.Reply} {state : State V} (begins : call.program = .step instruction rest)
    (performed : instruction.perform system.threads.length system.state = some (reply, state))
    (goes : rest reply = program) :
    system.run [.call call, .advance system.threads.length] =
      some ⟨state, system.threads ++ [⟨.call call, program⟩]⟩ := by
  have found : (system.spawn (.ofDuty (.call call))).threads[system.threads.length]? =
      some ⟨.call call, .step instruction rest⟩ := by
    simp only [spawn, List.getElem?_concat_length, Thread.ofDuty, Duty.program, begins]
  have stepped := step_of_perform found performed
  have called : system.step (.call call) = some (system.spawn (.ofDuty (.call call))) := rfl
  simp only [run, called, stepped, goes, Option.bind_eq_bind, Option.bind_some]
  simp [goOn, spawn, Thread.ofDuty, List.modify_eq_take_drop, List.modifyHead]

def asked (system : System V) (call : Call) : System V := system.spawn (.ofDuty (.call call))

theorem asked_getElem? (system : System V) (call : Call) :
    (system.asked call).threads[system.threads.length]? = some ⟨.call call, call.program⟩ := by
  simp [asked, spawn, Thread.ofDuty, Duty.program]

theorem Cut.transition {start last : System V} {moves : List (Move V)} {event : Event V}
    (cut : Cut start moves last event) :
    Transition cut.moment cut.move (some event) cut.next := by
  rw [← cut.happens]
  exact step_transition cut.stepped

end System

end Schematron.Engine

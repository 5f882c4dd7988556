import Schematron.Proofs.Engine.Waiting

/-!
Completion: what it takes to bring an evaluation to its end. Main statement: as long as nobody waits
without a limit, every evaluation can come to its end from wherever it stands.
-/

namespace Schematron.Engine

open Program

variable {V : Type}

structure Throughout (holds : Evaluation → Prop) (settings : Evaluation) (moves : List (Move V)) :
    Prop where
  starts : holds settings
  stays : ∀ adjusted, .adjust adjusted ∈ moves → holds adjusted

def Patient (settings : Evaluation) (moves : List (Move V)) : Prop :=
  Throughout (fun current => current.patience ≠ .unlimited) settings moves

def LetsGoOn (moves : List (Move V)) : Prop := ∀ move ∈ moves, move.thread?.isSome

theorem LetsGoOn.cons {move : Move V} {moves : List (Move V)} {index : Nat}
    (own : move.thread? = some index) (others : LetsGoOn moves) : LetsGoOn (move :: moves) := by
  intro other member
  rcases List.mem_cons.mp member with rfl | member
  · rw [own]
    rfl
  · exact others other member

theorem LetsGoOn.append {first second : List (Move V)} (before : LetsGoOn first)
    (after : LetsGoOn second) : LetsGoOn (first ++ second) := by
  intro move member
  exact (List.mem_append.mp member).elim (before move) (after move)

section Throughout

variable {holds : Evaluation → Prop} {settings : Evaluation} {moves more : List (Move V)}

theorem Throughout.append (throughout : Throughout holds settings moves) (goes : LetsGoOn more) :
    Throughout holds settings (moves ++ more) where
  starts := throughout.starts
  stays adjusted member := by
    rcases List.mem_append.mp member with old | new
    · exact throughout.stays adjusted old
    · cases goes _ new

theorem Throughout.early (throughout : Throughout holds settings (moves ++ more)) :
    Throughout holds settings moves where
  starts := throughout.starts
  stays adjusted member := throughout.stays adjusted (List.mem_append_left _ member)

end Throughout

namespace System

theorem Answer.judged {thread : Nat} {state next : State V} {settings : Evaluation}
    (answer : Answer thread state .evaluation settings next) : settings = state.evaluation := by
  cases answer
  rfl

/-- The settings change only as they are adjusted. -/
theorem Transition.evaluation {system next : System V} {move : Move V} {event : Option (Event V)}
    (transition : Transition system move event next) :
    next.state.evaluation = system.state.evaluation ∨ move = .adjust next.state.evaluation := by
  cases transition with
  | @answer _ _ _ _ _ _ _ _ _ answer =>
      refine .inl ?_
      cases answer with
      | submit source generation =>
          simp only [goOn, State.submit]
          split
          · rfl
          · split <;> rfl
      | register target callback =>
          simp only [goOn, State.register]
          split <;> rfl
      | openPool =>
          simp only [goOn, State.openPool]
          split <;> rfl
      | _ => rfl
  | take taken =>
      obtain ⟨pool, rfl, -⟩ := State.take?_queues taken
      exact .inl rfl
  | drop begun =>
      obtain ⟨pool, rfl, -⟩ := State.begin?_drops begun
      exact .inl rfl
  | begin begun =>
      obtain ⟨-, -, pool, rfl, -⟩ := State.begin?_starts begun
      exact .inl rfl
  | adjust evaluation => exact .inr rfl
  | _ => exact .inl rfl

def Ready (state : State V) : Instruction V → Prop
  | .await handle limit => (state.condition handle).isResolved = true ∨ limit ≠ .unlimited
  | .drain executor => state.isIdle executor = true
  | .reserve => state.configuring = none
  | .snapshot => state.configuring = none
  | _ => True

theorem answer?_of_ready (index : Nat) {state : State V} {instruction : Instruction V}
    (ready : Ready state instruction) :
    ∃ (move : Move V) (reply : instruction.Reply) (after : State V), move.thread? = some index ∧
      move.answer? index state instruction = some (reply, after) := by
  cases instruction with
  | await handle limit =>
      cases condition : state.condition handle with
      | resolved outcome =>
          exact ⟨.advance index, outcome.result handle, state, rfl, by
            simp [Move.answer?, Instruction.perform, condition]⟩
      | _ =>
          have limited : limit ≠ .unlimited := by
            refine ready.resolve_left ?_
            simp [condition, Condition.isResolved, Condition.outcome?]
          refine ⟨.expire index, .error (.timeout handle.source.toString limit), state, rfl, ?_⟩
          cases limit with
          | unlimited => exact absurd rfl limited
          | _ => simp [Move.answer?, condition]
  | drain executor =>
      refine ⟨.advance index, (), state, rfl, ?_⟩
      have idle : state.isIdle executor = true := ready
      simp [Move.answer?, Instruction.perform, idle]
  | reserve =>
      have free : state.configuring = none := ready
      refine ⟨.advance index, state.generation, { state with configuring := some index }, rfl, ?_⟩
      simp [Move.answer?, Instruction.perform, free]
  | snapshot =>
      have free : state.configuring = none := ready
      refine ⟨.advance index, state.generation, state, rfl, ?_⟩
      simp [Move.answer?, Instruction.perform, free]
  | compile handle => exact ⟨.compiled index (.error (.general "")) [], _, state, rfl, rfl⟩
  | run validator document => exact ⟨.ran index (.ok []), _, state, rfl, rfl⟩
  | call id handle => exact ⟨.called index none, none, state, rfl, rfl⟩
  | resolve handle outcome =>
      cases resolved : state.resolve? handle outcome with
      | none =>
          exact ⟨.advance index, none, state, rfl, by
            simp [Move.answer?, Instruction.perform, resolved]⟩
      | some found =>
          exact ⟨.advance index, some found.1, found.2, rfl, by
            simp [Move.answer?, Instruction.perform, resolved]⟩
  | _ => exact ⟨.advance index, _, _, rfl, rfl⟩

/-- A thread that can go on does so by some move, and leaves the others where they are. -/
theorem goes_on {system : System V} {index : Nat} {duty : Duty} {instruction : Instruction V}
    {rest : instruction.Reply → Program V (Result V)}
    (found : system.threads[index]? = some ⟨duty, .step instruction rest⟩)
    (ready : Ready system.state instruction) :
    ∃ move reply next, system.step move = some next ∧ move.thread? = some index ∧
      Answer index system.state instruction reply next.state ∧
      next.threads[index]? = some ⟨duty, rest reply⟩ ∧
      ∀ other, other ≠ index → next.threads[other]? = system.threads[other]? := by
  obtain ⟨move, reply, after, own, answered⟩ := answer?_of_ready index ready
  have went : system.goOn? index move = some (system.goOn index after (rest reply)) := by
    simp [goOn?, found, answered]
  refine ⟨move, reply, system.goOn index after (rest reply), ?_, own, answer_of_answer? answered,
    by simp [goOn, found], fun other apart => by simp [goOn, Ne.symm apart]⟩
  cases move with
  | advance place | expire place | compiled place | ran place | called place =>
      cases own
      exact went
  | _ => cases own

def EndsOrWaits (system : System V) (index : Nat) (call : Call) : Prop :=
  ∃ program, system.threads[index]? = some ⟨.call call, program⟩ ∧
    ((∃ result, program = .done result) ∨
      ∃ handle rest, program = .step (.await handle .unlimited) rest ∧
        (system.state.condition handle).isResolved = false)

section Runs

variable {pool : Pool} {evaluation : Evaluation} {moves : List (Move V)} {last : System V}

/-- Whoever keeps others from the registry can go on until it lets them in again. -/
theorem keeper_releases {keeper : Nat} {duty : Duty} {program : Program V (Result V)}
    (reached : (initial pool evaluation).run moves = some last)
    (keeps : last.state.configuring = some keeper)
    (found : last.threads[keeper]? = some ⟨duty, program⟩) :
    ∃ more next, last.run more = some next ∧ LetsGoOn more ∧ next.state.configuring = none ∧
      ∀ other, other ≠ keeper → next.threads[other]? = last.threads[other]? := by
  induction program generalizing moves last with
  | done result =>
      obtain ⟨replaced, handles, drafting⟩ := drafting_of_configuring reached keeps
      have ended := thread_keeps reached found (duty_tidies duty)
      exact absurd drafting (ended.undrafted replaced handles)
  | step instruction rest ih =>
      obtain ⟨replaced, handles, drafting⟩ := drafting_of_configuring reached keeps
      have rule := (thread_keeps reached found (duty_tidies duty)).1
      -- Nobody waits while drafting.
      have busy (tidy : Tidy duty.closes
          (exchangesOf keeper ((initial pool evaluation).trace moves))) : False := by
        have free := tidy.free
        rw [drafting] at free
        exact free
      have ready : Ready last.state instruction := by
        cases instruction with
        | await | drain | reserve | snapshot => exact (busy rule).elim
        | _ => trivial
      obtain ⟨move, reply, next, stepped, own, answer, held, others⟩ := goes_on found ready
      have single : last.run [move] = some next := by rw [run_single, stepped]
      have only : LetsGoOn [move] := LetsGoOn.cons own (by simp [LetsGoOn])
      cases configuring : next.state.configuring with
      | none => exact ⟨[move], next, single, only, configuring, others⟩
      | some other =>
          have same : other = keeper := by
            by_cases registers : instruction.Registers
            · generalize next.state = state at answer configuring
              cases instruction with
              | reserve => exact (busy rule).elim
              | release | publish =>
                  cases answer
                  cases configuring
              | _ => exact registers.elim
            · rw [(answer.unregistered registers).2, keeps] at configuring
              exact (Option.some.inj configuring).symm
          subst same
          have further := (run_join reached single).1
          obtain ⟨more, final, continued, goes, free, apart⟩ := ih reply further configuring held
          refine ⟨move :: more, final, by simp [run, stepped, continued], .cons own goes, free, ?_⟩
          exact fun place different => (apart place different).trans (others place different)

theorem settings_of_run {holds : Evaluation → Prop} (throughout : Throughout holds evaluation moves)
    (reached : (initial pool evaluation : System V).run moves = some last) :
    holds last.state.evaluation := by
  refine run_induction (motive := fun moves system =>
    Throughout holds evaluation moves → holds system.state.evaluation)
    (fun throughout => throughout.starts) ?_ reached throughout
  intro moves middle move next _ before stepped throughout
  rcases (step_transition stepped).evaluation with same | adjusted
  · rw [same]
    exact before throughout.early
  · exact throughout.stays _ (by simp [adjusted])

/-- Whoever asks for the settings is told such settings. -/
theorem settings_of_judged {holds : Evaluation → Prop}
    (throughout : Throughout holds evaluation moves)
    (reached : (initial pool evaluation : System V).run moves = some last) {index : Nat}
    {settings : Evaluation}
    (judged : ⟨.evaluation, settings⟩ ∈
      exchangesOf index ((initial pool evaluation).trace moves)) : holds settings := by
  obtain ⟨cut⟩ := cut_of_mem reached (mem_exchangesOf.mp judged)
  rw [cut.whole] at throughout
  rw [cut.answer.judged]
  exact settings_of_run throughout.early cut.reached

/-- Every evaluation can come to its end, or to a handle that it waits for without a limit. -/
theorem evaluation_ends_or_waits (reached : (initial pool evaluation).run moves = some last)
    {index : Nat} {call : Call} (evaluates : call.evaluates = true)
    {program : Program V (Result V)}
    (found : last.threads[index]? = some ⟨.call call, program⟩) :
    ∃ more final, last.run more = some final ∧ LetsGoOn more ∧ final.EndsOrWaits index call := by
  induction program generalizing moves last with
  | done result =>
      exact ⟨[], last, rfl, by simp [LetsGoOn], .done result, found, .inl ⟨result, rfl⟩⟩
  | step instruction rest ih =>
      have rule := (thread_keeps reached found (call_visits evaluates)).1
      -- Once it can go on, it has less to do.
      have continues {between : List (Move V)} {middle : System V}
          (gone : last.run between = some middle) (goes : LetsGoOn between)
          (held : middle.threads[index]? = some ⟨.call call, .step instruction rest⟩)
          (ready : Ready middle.state instruction) :
          ∃ more final, last.run more = some final ∧ LetsGoOn more ∧
            final.EndsOrWaits index call := by
        obtain ⟨move, reply, next, stepped, own, -, held, -⟩ := goes_on held ready
        have single : middle.run [move] = some next := by rw [run_single, stepped]
        have further := (run_join (run_join reached gone).1 single).1
        have goes : LetsGoOn (between ++ [move]) := goes.append (.cons own (by simp [LetsGoOn]))
        obtain ⟨more, final, continued, rest, ended⟩ := ih reply further held
        refine ⟨between ++ [move] ++ more, final, ?_, goes.append rest, ended⟩
        rw [run_append, run_append, gone, Option.bind_some, single, Option.bind_some, continued]
      cases instruction with
      | await handle limit =>
          by_cases ready : Ready last.state (.await handle limit)
          · exact continues (run_nil last) (by simp [LetsGoOn]) found ready
          · simp only [Ready, not_or, not_not, Bool.not_eq_true] at ready
            obtain ⟨unresolved, rfl⟩ := ready
            exact ⟨[], last, rfl, by simp [LetsGoOn], _, found,
              .inr ⟨handle, rest, rfl, unresolved⟩⟩
      | snapshot =>
          cases configuring : last.state.configuring with
          | none => exact continues (run_nil last) (by simp [LetsGoOn]) found configuring
          | some keeper =>
              obtain ⟨replaced, handles, drafting⟩ := drafting_of_configuring reached configuring
              have present : keeper < last.threads.length := by
                by_contra absent
                rw [exchangesOf_trace_eq_nil reached (Nat.le_of_not_lt absent)] at drafting
                cases drafting
              have apart : index ≠ keeper := by
                rintro rfl
                have tidy := (thread_keeps reached found (duty_tidies (.call call))).1
                have free : (replacing (exchangesOf index
                  ((initial pool evaluation).trace moves))).IsFree := tidy.free
                rw [drafting] at free
                exact free
              obtain ⟨more, next, gone, goes, free, others⟩ :=
                keeper_releases reached configuring (List.getElem?_eq_getElem present)
              exact continues gone goes ((others index apart).trans found) free
      | drain | reserve | compile => exact rule.elim
      | _ => exact continues (run_nil last) (by simp [LetsGoOn]) found trivial

/-- Every evaluation can come to its end, as long as nobody waits without a limit. -/
theorem evaluation_ends (patient : Patient evaluation moves)
    (reached : (initial pool evaluation).run moves = some last) {index : Nat} {call : Call}
    (evaluates : call.evaluates = true) {program : Program V (Result V)}
    (found : last.threads[index]? = some ⟨.call call, program⟩) :
    ∃ more final result, last.run more = some final ∧ LetsGoOn more ∧
      final.threads[index]? = some ⟨.call call, .done result⟩ := by
  obtain ⟨more, final, continued, goes, program, held, ⟨result, rfl⟩ | ⟨handle, rest, rfl, -⟩⟩ :=
    evaluation_ends_or_waits reached evaluates found
  · exact ⟨more, final, result, continued, goes, held⟩
  · have further := (run_join reached continued).1
    obtain ⟨-, settings, judged, unlimited⟩ :=
      (thread_keeps further held (call_visits evaluates)).1
    exact absurd unlimited.symm (settings_of_judged (patient.append goes) further judged)

end Runs

end System

end Schematron.Engine

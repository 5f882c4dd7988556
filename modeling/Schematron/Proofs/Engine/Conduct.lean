import Schematron.Proofs.Engine.History

/-!
Conduct: what a program does whatever the other threads do. A rule says which instruction may come
after which exchanges; a program that keeps a rule keeps it as a thread of every run.
-/

namespace Schematron.Engine

variable {V α β : Type}

def Exchange.IsPossible : Exchange V → Prop
  | ⟨.create source generation, handle⟩ =>
      handle.source = source ∧ handle.generation = generation
  | ⟨.submit source generation, .ok handle⟩ =>
      handle.source = source ∧ handle.generation = generation
  | _ => True

/-- Which instruction a thread may come to, after what it has done. -/
abbrev Rule (V : Type) := List (Exchange V) → Instruction V → Prop

namespace Program

/-- Whatever a program is told, it keeps to a rule, and ends as `ending` says. -/
def Keeps (rule : Rule V) (ending : List (Exchange V) → α → Prop) (past : List (Exchange V)) :
    Program V α → Prop
  | .done answer => ending past answer
  | .step instruction next => rule past instruction ∧
      ∀ reply, Exchange.IsPossible ⟨instruction, reply⟩ →
        Keeps rule ending (past ++ [⟨instruction, reply⟩]) (next reply)

variable {rule : Rule V} {past : List (Exchange V)}

@[simp] theorem keeps_pure {ending : List (Exchange V) → α → Prop} (answer : α) :
    Keeps rule ending past (pure answer : Program V α) ↔ ending past answer := Iff.rfl

@[simp] theorem keeps_send {instruction : Instruction V}
    {ending : List (Exchange V) → instruction.Reply → Prop} :
    Keeps rule ending past (send instruction) ↔ rule past instruction ∧
      ∀ reply, Exchange.IsPossible ⟨instruction, reply⟩ →
        ending (past ++ [⟨instruction, reply⟩]) reply := Iff.rfl

@[simp] theorem keeps_bind {program : Program V α} {next : α → Program V β}
    {ending : List (Exchange V) → β → Prop} :
    Keeps rule ending past (program >>= next) ↔
      Keeps rule (fun past answer => Keeps rule ending past (next answer)) past program := by
  change Keeps rule ending past (program.bind next) ↔ _
  induction program generalizing past with
  | done answer => rfl
  | step instruction rest ih =>
      simp only [bind, Keeps]
      exact and_congr_right fun _ => forall_congr' fun reply => imp_congr_right fun _ => ih reply

theorem Keeps.mono {ending weaker : List (Exchange V) → α → Prop} {program : Program V α}
    (keeps : Keeps rule ending past program)
    (weakens : ∀ past answer, ending past answer → weaker past answer) :
    Keeps rule weaker past program := by
  induction program generalizing past with
  | done answer => exact weakens past answer keeps
  | step instruction rest ih =>
      exact ⟨keeps.1, fun reply possible => ih reply (keeps.2 reply possible)⟩

theorem Keeps.and {other : Rule V} {ending more : List (Exchange V) → α → Prop}
    {program : Program V α} (keeps : Keeps rule ending past program)
    (also : Keeps other more past program) :
    Keeps rule (fun later answer => ending later answer ∧ more later answer) past program := by
  induction program generalizing past with
  | done answer => exact ⟨keeps, also⟩
  | step instruction rest ih =>
      exact ⟨keeps.1, fun reply possible =>
        ih reply (keeps.2 reply possible) (also.2 reply possible)⟩

end Program

def anything : Rule V := fun _ _ => True

theorem Program.keeps_past (program : Program V α) (past : List (Exchange V)) :
    program.Keeps anything (fun later _ => past <+: later) past := by
  induction program generalizing past with
  | done answer => exact List.prefix_refl past
  | step instruction rest ih =>
      exact ⟨trivial, fun reply _ => (ih reply (past ++ [⟨instruction, reply⟩])).mono
        fun later answer longer => (List.prefix_append past _).trans longer⟩

namespace Program

def Uses (allowed : Instruction V → Prop) : Program V α → Prop
  | .done _ => True
  | .step instruction next => allowed instruction ∧ ∀ reply, (next reply).Uses allowed

variable {allowed : Instruction V → Prop}

theorem uses_pure (answer : α) : (pure answer : Program V α).Uses allowed := trivial

theorem uses_send (instruction : Instruction V) (permitted : allowed instruction) :
    (send instruction).Uses allowed :=
  ⟨permitted, fun _ => trivial⟩

theorem Uses.bind {program : Program V α} {next : α → Program V β} (first : program.Uses allowed)
    (rest : ∀ answer, (next answer).Uses allowed) : (program >>= next).Uses allowed := by
  change (program.bind next).Uses allowed
  induction program with
  | done answer => exact rest answer
  | step instruction program ih => exact ⟨first.1, fun reply => ih reply (first.2 reply)⟩

theorem Uses.mono {wider : Instruction V → Prop} {program : Program V α}
    (uses : program.Uses allowed)
    (widens : ∀ instruction, allowed instruction → wider instruction) :
    program.Uses wider := by
  induction program with
  | done answer => trivial
  | step instruction program ih =>
      exact ⟨widens instruction uses.1, fun reply => ih reply (uses.2 reply)⟩

theorem Uses.keeps {rule : Rule V} {holds : List (Exchange V) → Prop} {program : Program V α}
    (uses : program.Uses allowed)
    (permits : ∀ past instruction, allowed instruction → holds past → rule past instruction)
    (stays : ∀ past instruction reply, allowed instruction → holds past →
      holds (past ++ [⟨instruction, reply⟩]))
    {past : List (Exchange V)} (start : holds past) :
    program.Keeps rule (fun later _ => holds later) past := by
  induction program generalizing past with
  | done answer => exact start
  | step instruction program ih =>
      exact ⟨permits past instruction uses.1 start, fun reply _ =>
        ih reply (uses.2 reply) (stays past instruction reply uses.1 start)⟩

/-- A program only ever adds to what was done before, by what it uses. -/
theorem Uses.adds {program : Program V α} (uses : program.Uses allowed) (past : List (Exchange V)) :
    program.Keeps anything (fun later _ => ∃ after, later = past ++ after ∧
      ∀ exchange ∈ after, allowed exchange.instruction) past := by
  induction program generalizing past with
  | done answer => exact ⟨[], by simp⟩
  | step instruction program ih =>
      refine ⟨trivial, fun reply _ => (ih reply (uses.2 reply) _).mono ?_⟩
      rintro _ _ ⟨after, rfl, all⟩
      refine ⟨⟨instruction, reply⟩ :: after, by simp, fun exchange member => ?_⟩
      rcases List.mem_cons.mp member with rfl | member
      · exact uses.1
      · exact all exchange member

end Program

/-! Threads -/

theorem submit_isPossible (state : State V) (source : RuleSource) (generation : Int) :
    Exchange.IsPossible (V := V)
      ⟨.submit source generation, (state.submit source generation).1⟩ := by
  simp only [State.submit]
  split
  · trivial
  · split
    · trivial
    · exact ⟨rfl, rfl⟩

namespace System

theorem Answer.isPossible {thread : Nat} {state next : State V} {instruction : Instruction V}
    {reply : instruction.Reply} (answer : Answer thread state instruction reply next) :
    Exchange.IsPossible ⟨instruction, reply⟩ := by
  cases answer with
  | create source generation => exact ⟨rfl, rfl⟩
  | submit source generation => exact submit_isPossible state source generation
  | _ => trivial

/-- Where a thread that is there after a move comes from: it was left alone, it is new, or it has
gone on by one instruction. -/
theorem Transition.thread {system next : System V} {move : Move V} {event : Option (Event V)}
    (transition : Transition system move event next) {index : Nat} {thread : Thread V}
    (found : next.threads[index]? = some thread) :
    (system.threads[index]? = some thread ∧
      ∀ happened, event = some happened → happened.thread ≠ index) ∨
    (index = system.threads.length ∧ event = none ∧ thread = .ofDuty thread.duty) ∨
    ∃ instruction rest reply,
      system.threads[index]? = some ⟨thread.duty, .step instruction rest⟩ ∧
      event = some ⟨index, instruction, reply⟩ ∧ thread.program = rest reply := by
  have spawned (duty : Duty) (found : (system.threads ++ [.ofDuty duty])[index]? = some thread) :
      system.threads[index]? = some thread ∨
        index = system.threads.length ∧ thread = .ofDuty thread.duty := by
    rw [List.getElem?_append] at found
    split at found
    · exact .inl found
    next beyond =>
      obtain ⟨bound, same⟩ := List.getElem?_eq_some_iff.mp found
      simp only [List.length_singleton] at bound
      simp only [List.getElem_singleton] at same
      subst thread
      exact .inr ⟨by omega, rfl⟩
  cases transition with
  | call call =>
      rcases spawned _ found with old | new
      · exact .inl ⟨old, by simp⟩
      · exact .inr (.inl ⟨new.1, rfl, new.2⟩)
  | begin begun =>
      rcases spawned _ found with old | new
      · exact .inl ⟨old, by simp⟩
      · exact .inr (.inl ⟨new.1, rfl, new.2⟩)
  | @answer _ other before instruction rest reply state held program answer =>
      simp only [goOn, List.getElem?_modify] at found
      split at found
      next same =>
        subst other
        simp only [held, Option.map_eq_map, Option.map_some, Option.some.injEq] at found
        subst thread
        exact .inr (.inr ⟨instruction, rest, reply, by rw [held, ← program], rfl, rfl⟩)
      next different =>
        simp only [id_map'] at found
        exact .inl ⟨by simpa using found, by simpa using different⟩
  | _ => exact .inl ⟨found, by simp⟩

theorem Transition.threads_length_le {system next : System V} {move : Move V}
    {event : Option (Event V)} (transition : Transition system move event next) :
    system.threads.length ≤ next.threads.length := by
  cases transition <;> simp [spawn, goOn]

theorem Transition.duty {system next : System V} {move : Move V} {event : Option (Event V)}
    (transition : Transition system move event next) {index : Nat} {thread : Thread V}
    (found : system.threads[index]? = some thread) :
    ∃ later, next.threads[index]? = some later ∧ later.duty = thread.duty := by
  have bound := (List.getElem?_eq_some_iff.mp found).1
  have kept (duty : Duty) : (system.threads ++ [.ofDuty duty])[index]? = some thread := by
    rw [List.getElem?_append_left bound, found]
  cases transition with
  | call call => exact ⟨thread, kept _, rfl⟩
  | begin begun => exact ⟨thread, kept _, rfl⟩
  | @answer _ other _ _ rest reply =>
      by_cases same : other = index
      · exact ⟨{ thread with program := rest reply }, by simp [goOn, same, found], rfl⟩
      · exact ⟨thread, by simp [goOn, same, found], rfl⟩
  | _ => exact ⟨thread, found, rfl⟩

theorem Transition.event {system next : System V} {move : Move V} {event : Event V}
    (transition : Transition system move (some event) next) :
    Answer event.thread system.state event.exchange.instruction event.exchange.reply next.state ∧
      ∃ duty rest, system.threads[event.thread]? =
        some ⟨duty, .step event.exchange.instruction rest⟩ := by
  cases transition with
  | @answer _ _ thread _ rest _ _ held program answer =>
      exact ⟨answer, thread.duty, rest, by rw [held, ← program]⟩

theorem Cut.answer {start last : System V} {moves : List (Move V)} {index : Nat}
    {instruction : Instruction V} {reply : instruction.Reply}
    (cut : Cut start moves last ⟨index, instruction, reply⟩) :
    Answer index cut.moment.state instruction reply cut.next.state :=
  cut.transition.event.1

section Runs

variable {pool : Pool} {evaluation : Evaluation} {moves : List (Move V)} {last : System V}

theorem thread_lt_of_mem_trace (run : (initial pool evaluation).run moves = some last) :
    ∀ event ∈ (initial pool evaluation).trace moves, event.thread < last.threads.length := by
  refine run_induction (motive := fun moves system =>
    ∀ event ∈ (initial pool evaluation).trace moves, event.thread < system.threads.length)
    (by simp) ?_ run
  intro moves middle move next reached before stepped event member
  have transition := step_transition stepped
  have growth := transition.threads_length_le
  rw [trace_concat reached stepped, List.mem_append] at member
  rcases member with old | new
  · exact Nat.lt_of_lt_of_le (before event old) growth
  · rw [Option.mem_toList] at new
    rw [new] at transition
    obtain ⟨duty, rest, found⟩ := transition.event.2
    exact Nat.lt_of_lt_of_le (List.getElem?_eq_some_iff.mp found).1 growth

theorem exchangesOf_trace_eq_nil (run : (initial pool evaluation).run moves = some last)
    {index : Nat} (beyond : last.threads.length ≤ index) :
    exchangesOf index ((initial pool evaluation).trace moves) = [] := by
  rw [List.eq_nil_iff_forall_not_mem]
  intro exchange member
  have bound := thread_lt_of_mem_trace run _ (mem_exchangesOf.mp member)
  simp only at bound
  omega

/-- A thread of a run keeps the rule that the program of its duty keeps. -/
theorem thread_keeps (run : (initial pool evaluation).run moves = some last) {index : Nat}
    {thread : Thread V} (found : last.threads[index]? = some thread) {rule : Rule V}
    {ending : List (Exchange V) → Result V → Prop}
    (keeps : thread.duty.program.Keeps rule ending []) :
    thread.program.Keeps rule ending
      (exchangesOf index ((initial pool evaluation).trace moves)) := by
  refine run_induction (motive := fun moves system => ∀ thread,
      system.threads[index]? = some thread → thread.duty.program.Keeps rule ending [] →
      thread.program.Keeps rule ending (exchangesOf index ((initial pool evaluation).trace moves)))
    (by simp [initial]) ?_ run thread found keeps
  intro moves middle move next reached before stepped thread found keeps
  have transition := step_transition stepped
  rw [trace_concat reached stepped, exchangesOf_append]
  rcases transition.thread found with ⟨old, others⟩ | ⟨new, silent, fresh⟩ |
    ⟨instruction, rest, reply, old, happened, program⟩
  · have nothing : exchangesOf index (middle.event? move).toList = [] := by
      cases event : middle.event? move with
      | none => rfl
      | some other => exact exchangesOf_single_other (others other event) _
    rw [nothing, List.append_nil]
    exact before thread old keeps
  · rw [silent, exchangesOf_trace_eq_nil reached (Nat.le_of_eq new.symm), fresh]
    exact keeps
  · have kept := before _ old keeps
    rw [happened] at transition ⊢
    rw [program, Option.toList_some, exchangesOf_single_self]
    exact kept.2 reply transition.event.1.isPossible

/-- What holds of a program, and of whatever it goes on with, holds of a thread of a run. -/
theorem thread_inherits (run : (initial pool evaluation).run moves = some last)
    {holds : Program V (Result V) → Prop}
    (stays : ∀ instruction rest reply, holds (.step instruction rest) → holds (rest reply))
    {index : Nat} {thread : Thread V} (found : last.threads[index]? = some thread)
    (start : holds thread.duty.program) : holds thread.program := by
  refine run_induction (motive := fun _ system => ∀ thread,
      system.threads[index]? = some thread → holds thread.duty.program → holds thread.program)
    (by simp [initial]) ?_ run thread found start
  intro moves middle move next _ before stepped thread found start
  rcases (step_transition stepped).thread found with ⟨old, -⟩ | ⟨-, -, fresh⟩ |
    ⟨instruction, rest, reply, old, -, program⟩
  · exact before thread old start
  · rw [fresh]
    exact start
  · rw [program]
    exact stays instruction rest reply (before _ old start)

theorem duty_of_run {first : System V} (continued : first.run moves = some last) {index : Nat}
    {thread : Thread V} (found : first.threads[index]? = some thread) :
    ∃ later, last.threads[index]? = some later ∧ later.duty = thread.duty := by
  refine run_induction (motive := fun _ system =>
    ∃ later, system.threads[index]? = some later ∧ later.duty = thread.duty)
    ⟨thread, found, rfl⟩ ?_ continued
  rintro _ middle move next _ ⟨later, held, same⟩ stepped
  obtain ⟨latest, found, kept⟩ := (step_transition stepped).duty held
  exact ⟨latest, found, kept.trans same⟩

/-- Right before a thread does something, it has come to that. -/
theorem Cut.comes {event : Event V} (cut : Cut (initial pool evaluation) moves last event)
    {duty : Duty} {program : Program V (Result V)}
    (found : last.threads[event.thread]? = some ⟨duty, program⟩) :
    ∃ rest, cut.moment.threads[event.thread]? =
      some ⟨duty, .step event.exchange.instruction rest⟩ := by
  obtain ⟨-, same, rest, held⟩ := cut.transition.event
  obtain ⟨later, there, kept⟩ := duty_of_run cut.rest held
  rw [found, Option.some.injEq] at there
  subst there
  cases kept
  exact ⟨rest, held⟩

theorem Cut.keeps {event : Event V} (cut : Cut (initial pool evaluation) moves last event)
    {duty : Duty} {program : Program V (Result V)}
    (found : last.threads[event.thread]? = some ⟨duty, program⟩) {rule : Rule V}
    {ending : List (Exchange V) → Result V → Prop} (keeps : duty.program.Keeps rule ending []) :
    rule (exchangesOf event.thread ((initial pool evaluation).trace cut.early))
      event.exchange.instruction := by
  obtain ⟨rest, held⟩ := cut.comes found
  exact (thread_keeps cut.reached held keeps).1

theorem Cut.uses {event : Event V} (cut : Cut (initial pool evaluation) moves last event)
    {duty : Duty} {program : Program V (Result V)}
    (found : last.threads[event.thread]? = some ⟨duty, program⟩)
    {allowed : Instruction V → Prop} (uses : (duty.program : Program V (Result V)).Uses allowed) :
    allowed event.exchange.instruction := by
  have keeps : (duty.program : Program V (Result V)).Keeps (fun _ => allowed)
      (fun _ _ => True) [] :=
    uses.keeps (fun _ _ permitted _ => permitted) (fun _ _ _ _ _ => trivial) trivial
  exact cut.keeps found keeps

theorem Cut.exists_thread {event : Event V} (cut : Cut (initial pool evaluation) moves last event) :
    ∃ duty program, last.threads[event.thread]? = some ⟨duty, program⟩ := by
  obtain ⟨-, duty, rest, found⟩ := cut.transition.event
  obtain ⟨⟨same, program⟩, held, -⟩ := duty_of_run cut.rest found
  exact ⟨same, program, held⟩

/-- Whatever has happened was done by a thread that keeps to the rule of its duty. -/
theorem keeper_of_cut {rule : Duty → Rule V} {ending : Duty → List (Exchange V) → Result V → Prop}
    (keeps : ∀ duty : Duty,
      (duty.program : Program V (Result V)).Keeps (rule duty) (ending duty) [])
    {event : Event V} (cut : Cut (initial pool evaluation) moves last event) :
    ∃ duty program, last.threads[event.thread]? = some ⟨duty, program⟩ ∧
      rule duty (exchangesOf event.thread ((initial pool evaluation).trace cut.early))
        event.exchange.instruction := by
  obtain ⟨duty, program, found⟩ := cut.exists_thread
  exact ⟨duty, program, found, cut.keeps found (keeps duty)⟩

end Runs

end System

end Schematron.Engine

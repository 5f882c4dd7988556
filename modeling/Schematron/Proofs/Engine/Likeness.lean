import Mathlib.Data.List.Forall2
import Schematron.Proofs.Engine.Substitution

/-!
Likeness: two systems that are in the same state, and whose threads do the same, but for documents
that validators are asked about in place of others. Main statements: they remain so by corresponding
moves, and the schedule takes such moves from start to end of a call.
-/

namespace Schematron.Engine

variable {V α β γ δ : Type}

/-- Which documents may stand for which, and how what a validator says of one may then differ from
what it says of the other. -/
structure Likeness where
  documents : Document → Document → Prop
  answers : Except Failure (List Diagnostic) → Except Failure (List Diagnostic) → Prop
  same : ∀ answer, answers answer answer

def Likeness.exact : Likeness := ⟨fun _ _ => False, Eq, fun _ => rfl⟩

variable (likeness : Likeness)

namespace Program

inductive Alike (agrees : α → β → Prop) : Program V α → Program V β → Prop
  | done {answer : α} {other : β} : agrees answer other → Alike agrees (.done answer) (.done other)
  | step {instruction : Instruction V} {next : instruction.Reply → Program V α}
      {other : instruction.Reply → Program V β} :
      (∀ reply, Alike agrees (next reply) (other reply)) →
      Alike agrees (.step instruction next) (.step instruction other)
  | run {validator : V} {document instead : Document}
      {next : Except Failure (List Diagnostic) → Program V α}
      {other : Except Failure (List Diagnostic) → Program V β} :
      likeness.documents document instead →
      (∀ reply also, likeness.answers reply also → Alike agrees (next reply) (other also)) →
      Alike agrees (.step (.run validator document) next) (.step (.run validator instead) other)

variable {likeness}

theorem Alike.refl {agrees : α → α → Prop} (same : ∀ answer, agrees answer answer)
    (program : Program V α) : Alike likeness agrees program program := by
  induction program with
  | done answer => exact .done (same answer)
  | step instruction next ih => exact .step ih

theorem Alike.bind {agrees : α → β → Prop} {matching : γ → δ → Prop} {program : Program V α}
    {other : Program V β} {next : α → Program V γ} {otherNext : β → Program V δ}
    (alike : Alike likeness agrees program other)
    (later : ∀ answer also, agrees answer also →
      Alike likeness matching (next answer) (otherNext also)) :
    Alike likeness matching (program.bind next) (other.bind otherNext) := by
  induction alike with
  | done agrees => exact later _ _ agrees
  | step _ ih => exact .step ih
  | run stands _ ih => exact .run stands ih

end Program

structure Thread.Alike (agrees : Result V → Result V → Prop) (thread other : Thread V) : Prop where
  job : thread.isJob = other.isJob
  program : thread.program.Alike likeness agrees other.program

def World.Honours (world : World V) : Prop :=
  ∀ validator document instead, likeness.documents document instead →
    likeness.answers (world.run validator document) (world.run validator instead)

inductive Move.Alike : Move V → Move V → Prop
  | same (move : Move V) : Alike move move
  | ran {index : Nat} {reply also : Except Failure (List Diagnostic)} :
      likeness.answers reply also → Alike (.ran index reply) (.ran index also)

def Event.Truthful (possible : V → Document → Except Failure (List Diagnostic) → Prop)
    (event : Event V) : Prop :=
  ∀ validator document reply, event.exchange = ⟨.run validator document, reply⟩ →
    possible validator document reply

def Likeness.Covers (possible : V → Document → Except Failure (List Diagnostic) → Prop) : Prop :=
  ∀ validator document instead reply, likeness.documents document instead →
    possible validator document reply →
    ∃ also, possible validator instead also ∧ likeness.answers reply also

namespace System

structure Alike (agrees : Result V → Result V → Prop) (system other : System V) : Prop where
  state : system.state = other.state
  threads : List.Forall₂ (Thread.Alike likeness agrees) system.threads other.threads

inductive Corresponds (agrees : Result V → Result V → Prop) (system other : System V) :
    Move V → Move V → Prop
  | same (move : Move V) : Corresponds agrees system other move move
  | ran {index : Nat} {duty also : Duty} {validator : V} {document instead : Document}
      {next later : Except Failure (List Diagnostic) → Program V (Result V)}
      {reply answer : Except Failure (List Diagnostic)} :
      system.threads[index]? = some ⟨duty, .step (.run validator document) next⟩ →
      other.threads[index]? = some ⟨also, .step (.run validator instead) later⟩ →
      (next reply).Alike likeness agrees (later answer) →
      Corresponds agrees system other (.ran index reply) (.ran index answer)

theorem rel_cases {related : α → β → Prop} {item : Option α} {other : Option β}
    (rel : Option.Rel related item other) : (item = none ∧ other = none) ∨
      ∃ value also, item = some value ∧ other = some also ∧ related value also := by
  cases rel with
  | none => exact .inl ⟨rfl, rfl⟩
  | some related => exact .inr ⟨_, _, rfl, rfl, related⟩

theorem forall₂_getElem? {related : α → β → Prop} {list : List α} {others : List β}
    (all : List.Forall₂ related list others) (index : Nat) :
    Option.Rel related list[index]? others[index]? := by
  induction all generalizing index with
  | nil => exact .none
  | cons first _ ih =>
      cases index with
      | zero => exact .some first
      | succ index => exact ih index

theorem forall₂_modify {related : α → β → Prop} {list : List α} {others : List β} {change : α → α}
    {also : β → β} (all : List.Forall₂ related list others) (index : Nat)
    (changed : ∀ item other, list[index]? = some item → others[index]? = some other →
      related (change item) (also other)) :
    List.Forall₂ related (list.modify index change) (others.modify index also) := by
  induction all generalizing index with
  | nil => cases index <;> exact .nil
  | cons first rest ih =>
      cases index with
      | zero => exact .cons (changed _ _ rfl rfl) rest
      | succ index => exact .cons first (ih index changed)

/-- Items one by one, with their places. -/
theorem forall₂_zipIdx {related : α → β → Prop} {list : List α} {others : List β}
    (all : List.Forall₂ related list others) :
    List.Forall₂ (fun item other => item.2 = other.2 ∧ related item.1 other.1 ∧
        list[item.2]? = some item.1 ∧ others[other.2]? = some other.1)
      list.zipIdx others.zipIdx := by
  refine List.forall₂_iff_get.mpr ⟨by simp [all.length_eq], fun index within also => ?_⟩
  have within : index < list.length := by simpa using within
  have also : index < others.length := by simpa using also
  simpa [within, also] using all.get within also

theorem forall₂_find? {related : α → β → Prop} {list : List α} {others : List β}
    (wanted : α → Bool) (instead : β → Bool) (all : List.Forall₂ related list others)
    (alike : ∀ item other, related item other → wanted item = instead other) :
    Option.Rel related (list.find? wanted) (others.find? instead) := by
  induction all with
  | nil => exact .none
  | @cons item other _ _ first _ ih =>
      rw [List.find?_cons, List.find?_cons, alike item other first]
      cases instead other with
      | true => exact .some first
      | false => exact ih

variable {likeness} {agrees : Result V → Result V → Prop} {system other next later : System V}
  {move also : Move V} {possible : V → Document → Except Failure (List Diagnostic) → Prop}

/-- The threads at a place, in both systems. -/
theorem Alike.thread_cases (alike : system.Alike likeness agrees other) (index : Nat) :
    (system.threads[index]? = none ∧ other.threads[index]? = none) ∨
      ∃ duty also program instead, system.threads[index]? = some ⟨duty, program⟩ ∧
        other.threads[index]? = some ⟨also, instead⟩ ∧
        Thread.Alike likeness agrees ⟨duty, program⟩ ⟨also, instead⟩ := by
  refine (rel_cases (forall₂_getElem? alike.threads index)).imp_right ?_
  rintro ⟨⟨duty, program⟩, ⟨also, instead⟩, found, held, threads⟩
  exact ⟨duty, also, program, instead, found, held, threads⟩

theorem Alike.refl (same : ∀ result, agrees result result) (system : System V) :
    system.Alike likeness agrees system :=
  ⟨rfl, List.forall₂_same.mpr fun thread _ => ⟨rfl, .refl same thread.program⟩⟩

theorem Alike.spawn (alike : system.Alike likeness agrees other) {thread extra : Thread V}
    (threads : thread.Alike likeness agrees extra) :
    (system.spawn thread).Alike likeness agrees (other.spawn extra) :=
  ⟨alike.state, List.rel_append alike.threads (.cons threads .nil)⟩

theorem Alike.goOn (alike : system.Alike likeness agrees other) (index : Nat) (state : State V)
    {program instead : Program V (Result V)} (programs : program.Alike likeness agrees instead) :
    (system.goOn index state program).Alike likeness agrees (other.goOn index state instead) where
  state := rfl
  threads := by
    refine forall₂_modify alike.threads index fun thread extra found held => ?_
    have threads := forall₂_getElem? alike.threads index
    rw [found, held, Option.rel_some_some] at threads
    exact ⟨threads.job, programs⟩

theorem Alike.goOn? (alike : system.Alike likeness agrees other) (index : Nat) (move : Move V) :
    Option.Rel (Alike likeness agrees) (system.goOn? index move) (other.goOn? index move) := by
  rw [System.goOn?, System.goOn?]
  rcases alike.thread_cases index with ⟨found, held⟩ | ⟨_, _, _, _, found, held, threads⟩
  · rw [found, held]
    exact .none
  · rw [found, held]
    cases threads.program with
    | done agrees => exact .none
    | @step instruction next later continues =>
        simp only [Option.bind_eq_bind, Option.bind_some]
        rw [alike.state]
        cases move.answer? index other.state instruction with
        | none => exact .none
        | some answered => exact .some (alike.goOn index answered.2 (continues answered.1))
    | run _ continues =>
        simp only [Option.bind_eq_bind, Option.bind_some]
        cases move with
        | ran place reply =>
            exact .some (alike.state ▸ alike.goOn index system.state
              (continues reply reply (likeness.same reply)))
        | _ => exact .none

theorem Alike.step (alike : system.Alike likeness agrees other)
    (same : ∀ result, agrees result result)
    (corresponds : Corresponds likeness agrees system other move also) :
    Option.Rel (Alike likeness agrees) (system.step move) (other.step also) := by
  cases corresponds with
  | @ran index duty also validator _ _ next later reply answer found held continues =>
      simp only [System.step, System.goOn?, found, held, Option.bind_eq_bind, Option.bind_some]
      exact .some (alike.state ▸ alike.goOn index system.state continues)
  | same move =>
      have fresh (duty : Duty) : (Thread.ofDuty duty : Thread V).Alike likeness agrees
          (Thread.ofDuty duty) := ⟨rfl, .refl same _⟩
      cases move with
      | call call => exact .some (alike.spawn (fresh (.call call)))
      | take executor =>
          simp only [System.step]
          rw [← alike.state]
          cases system.state.take? executor with
          | none => exact .none
          | some state => exact .some ⟨rfl, alike.threads⟩
      | begin executor handle =>
          simp only [System.step]
          rw [← alike.state]
          cases system.state.begin? executor handle with
          | none => exact .none
          | some begun =>
              obtain ⟨starts, state⟩ := begun
              have moved : Alike likeness agrees { system with state } { other with state } :=
                ⟨rfl, alike.threads⟩
              cases starts with
              | false => exact .some moved
              | true => exact .some (moved.spawn (fresh (.job executor handle)))
      | adjust evaluation =>
          exact .some ⟨congrArg (fun state : State V => { state with evaluation }) alike.state,
            alike.threads⟩
      | limit submissions =>
          exact .some ⟨congrArg (fun state : State V => { state with pool.quota := submissions })
            alike.state, alike.threads⟩
      | advance index | expire index | compiled index | ran index | called index =>
          exact alike.goOn? index _

/-! Runs -/

theorem ran_of_event? {event : Event V} (happens : system.event? move = some event) {validator : V}
    {document : Document} {reply : Except Failure (List Diagnostic)}
    (asked : event.exchange = ⟨.run validator document, reply⟩) :
    ∃ index duty next, move = .ran index reply ∧
      system.threads[index]? = some ⟨duty, .step (.run validator document) next⟩ := by
  simp only [event?, Option.bind_eq_bind, Option.bind_eq_some_iff] at happens
  obtain ⟨index, moves, ⟨duty, program⟩, found, happens⟩ := happens
  cases program with
  | done => cases happens
  | step instruction next =>
      simp only [Option.bind_eq_some_iff] at happens
      obtain ⟨⟨given, state⟩, answered, happens⟩ := happens
      cases happens
      cases asked
      cases move with
      | ran place result =>
          cases moves
          cases answered
          exact ⟨index, duty, next, rfl, found⟩
      | _ => cases answered

/-- Whatever move is made in one of two systems that are alike, one like it can be made in the
other. -/
theorem Alike.follow (alike : system.Alike likeness agrees other)
    (same : ∀ result, agrees result result) (covers : likeness.Covers possible)
    (stepped : system.step move = some next)
    (truthful : ∀ event, system.event? move = some event → event.Truthful possible) :
    ∃ also later, other.step also = some later ∧ Move.Alike likeness move also ∧
      (∀ event, other.event? also = some event → event.Truthful possible) ∧
      next.Alike likeness agrees later := by
  suffices ∃ also, Corresponds likeness agrees system other move also ∧
      Move.Alike likeness move also ∧
      ∀ event, other.event? also = some event → event.Truthful possible by
    obtain ⟨also, corresponds, moves, honest⟩ := this
    have steps := alike.step same corresponds
    rw [stepped] at steps
    generalize reached : other.step also = later at steps
    cases steps with
    | some alike => exact ⟨also, _, reached, moves, honest, alike⟩
  by_cases asking : ∃ index duty validator document next reply, move = .ran index reply ∧
      system.threads[index]? = some ⟨duty, .step (.run validator document) next⟩
  · obtain ⟨index, duty, validator, document, next, reply, rfl, found⟩ := asking
    have answered {system : System V} {duty : Duty} {validator : V} {document : Document}
        {next : Except Failure (List Diagnostic) → Program V (Result V)}
        (reply : Except Failure (List Diagnostic))
        (found : system.threads[index]? = some ⟨duty, .step (.run validator document) next⟩) :
        system.event? (.ran index reply) = some ⟨index, .run validator document, reply⟩ := by
      simp [event?, Move.thread?, found, Move.answer?]
    have said : possible validator document reply :=
      truthful _ (answered reply found) validator document reply rfl
    rcases alike.thread_cases index with ⟨absent, -⟩ | ⟨_, _, _, _, same, held, threads⟩
    · rw [absent] at found
      cases found
    rw [found] at same
    cases same
    cases threads.program with
    | step continues =>
        refine ⟨.ran index reply, .same _, .same _, fun event happens => ?_⟩
        rw [answered reply held] at happens
        exact truthful event (happens ▸ answered reply found)
    | @run _ _ instead _ later stands continues =>
        obtain ⟨answer, possible, answers⟩ := covers validator document instead reply stands said
        refine ⟨.ran index answer, .ran found held (continues _ _ answers), .ran answers, ?_⟩
        intro event happens
        rw [answered answer held] at happens
        cases happens
        rintro _ _ _ ⟨⟩
        exact possible
  · refine ⟨move, .same move, .same move, fun event happens validator document reply asked => ?_⟩
    obtain ⟨index, duty, next, rfl, held⟩ := ran_of_event? happens asked
    rcases alike.thread_cases index with ⟨-, absent⟩ | ⟨_, _, _, _, found, same, threads⟩
    · rw [absent] at held
      cases held
    rw [held] at same
    cases same
    cases threads.program with
    | step => exact absurd ⟨_, _, _, _, _, _, rfl, found⟩ asking
    | run => exact absurd ⟨_, _, _, _, _, _, rfl, found⟩ asking

/-- Whatever one of two systems that are alike comes to, the other one can come to something like
it. -/
theorem Alike.run (alike : system.Alike likeness agrees other)
    (same : ∀ result, agrees result result) (covers : likeness.Covers possible)
    {moves : List (Move V)} {last : System V} (reached : system.run moves = some last)
    (truthful : ∀ event ∈ system.trace moves, event.Truthful possible) :
    ∃ others final, other.run others = some final ∧
      List.Forall₂ (Move.Alike likeness) moves others ∧
      (∀ event ∈ other.trace others, event.Truthful possible) ∧
      last.Alike likeness agrees final := by
  induction moves generalizing system other with
  | nil =>
      cases reached
      exact ⟨[], other, rfl, .nil, by simp, alike⟩
  | cons move rest ih =>
      simp only [System.run, Option.bind_eq_bind, Option.bind_eq_some_iff] at reached
      obtain ⟨next, stepped, reached⟩ := reached
      simp only [trace, stepped, List.mem_append, Option.mem_toList] at truthful
      obtain ⟨also, later, steps, moved, said, alike⟩ :=
        alike.follow same covers stepped fun event happens => truthful event (.inl happens)
      obtain ⟨others, final, goes, parallel, honest, alike⟩ :=
        ih alike reached fun event member => truthful event (.inr member)
      refine ⟨also :: others, final, ?_, .cons moved parallel, ?_, alike⟩
      · simp only [System.run, steps, Option.bind_eq_bind, Option.bind_some, goes]
      · simp only [trace, steps, List.mem_append, Option.mem_toList]
        exact fun event member => member.elim (said event) (honest event)

/-! The schedule -/

theorem Alike.result? (alike : system.Alike likeness agrees other) (index : Nat) :
    Option.Rel agrees (system.result? index) (other.result? index) := by
  rw [System.result?, System.result?]
  rcases alike.thread_cases index with ⟨found, held⟩ | ⟨_, _, _, _, found, held, threads⟩
  · rw [found, held]
    exact .none
  · rw [found, held]
    cases threads.program with
    | done agrees => exact .some agrees
    | step => exact .none
    | run => exact .none

theorem Alike.canAdvance (alike : system.Alike likeness agrees other) (index : Nat) :
    system.canAdvance index = other.canAdvance index := by
  rw [canAdvance_eq, canAdvance_eq, alike.state]
  rcases alike.thread_cases index with ⟨found, held⟩ | ⟨_, _, _, _, found, held, threads⟩
  · rw [found, held]
  · rw [found, held]
    cases threads.program with
    | done => rfl
    | step => rfl
    | run => rfl

theorem Alike.advance (alike : system.Alike likeness agrees other) (wanted : Bool → Bool) :
    (system.threads.zipIdx.find? fun item =>
        wanted item.1.isJob && system.canAdvance item.2).map (Move.advance (V := V) ·.2) =
      (other.threads.zipIdx.find? fun item =>
        wanted item.1.isJob && other.canAdvance item.2).map (Move.advance ·.2) := by
  have found := forall₂_find? (fun item => wanted item.1.isJob && system.canAdvance item.2)
    (fun item => wanted item.1.isJob && other.canAdvance item.2) (forall₂_zipIdx alike.threads)
    fun item extra ⟨place, threads, _, _⟩ => by rw [threads.job, place, alike.canAdvance]
  rcases rel_cases found with ⟨first, second⟩ | ⟨item, extra, first, second, same⟩
  · rw [first, second]
  · rw [first, second, Option.map_some, Option.map_some, same.1]

theorem Alike.workerMove? (alike : system.Alike likeness agrees other) :
    system.workerMove? = other.workerMove? := by
  have begins : system.beginMove? = other.beginMove? := by
    rw [beginMove?, beginMove?, alike.state]
  simp only [System.workerMove?, begins, alike.state]
  split
  · rfl
  · split
    · rfl
    · exact alike.advance id

theorem Alike.callerMove? (alike : system.Alike likeness agrees other) :
    system.callerMove? = other.callerMove? := alike.advance not

variable {world : World V}

theorem Alike.answer (alike : system.Alike likeness agrees other)
    (honours : world.Honours likeness) {thread extra : Thread V} {index : Nat}
    (found : system.threads[index]? = some thread) (held : other.threads[index]? = some extra) :
    Option.Rel (fun request instead => Corresponds likeness agrees system other
        (world.answer index request) (world.answer index instead))
      thread.request? extra.request? := by
  have threads := forall₂_getElem? alike.threads index
  rw [found, held, Option.rel_some_some] at threads
  obtain ⟨duty, program⟩ := thread
  obtain ⟨also, instead⟩ := extra
  cases threads.program with
  | done => exact .none
  | run stands continues =>
      exact .some (.ran found held (continues _ _ (honours _ _ _ stands)))
  | @step instruction next later continues =>
      cases instruction with
      | compile | run | call => exact .some (.same _)
      | _ => exact .none

theorem Alike.requests (alike : system.Alike likeness agrees other)
    (honours : world.Honours likeness) :
    List.Forall₂ (fun request instead => Corresponds likeness agrees system other
      (world.answer request.1 request.2) (world.answer instead.1 instead.2))
      system.requests other.requests := by
  refine List.rel_filterMap ?_ (forall₂_zipIdx alike.threads)
  rintro ⟨thread, index⟩ ⟨extra, place⟩ ⟨rfl, _, found, held⟩
  simp only
  rcases rel_cases (alike.answer honours found held) with
    ⟨request, instead⟩ | ⟨_, _, request, instead, corresponds⟩
  · rw [request, instead]
    exact .none
  · rw [request, instead]
    exact .some corresponds

theorem Alike.nextMove? (alike : system.Alike likeness agrees other)
    (honours : world.Honours likeness) :
    Option.Rel (Corresponds likeness agrees system other) (system.nextMove? world)
      (other.nextMove? world) := by
  have same (chosen : Option (Move V)) :
      Option.Rel (Corresponds likeness agrees system other) chosen chosen := by
    cases chosen with
    | none => exact .none
    | some move => exact .some (.same move)
  have requests := alike.requests honours
  rw [System.nextMove?, System.nextMove?, ← alike.workerMove?, ← alike.callerMove?]
  generalize system.requests = asked at requests ⊢
  generalize other.requests = instead at requests ⊢
  cases system.workerMove? with
  | some move => exact .some (.same move)
  | none =>
      cases requests with
      | nil => exact same _
      | cons corresponds _ => exact .some corresponds

variable (same : ∀ result, agrees result result) (honours : world.Honours likeness)
include same honours

theorem Alike.settle (alike : system.Alike likeness agrees other) (fuel : Nat) :
    (system.settle world fuel).Alike likeness agrees (other.settle world fuel) := by
  induction fuel generalizing system other with
  | zero => exact alike
  | succ fuel ih =>
      rw [System.settle, System.settle]
      rcases rel_cases (alike.nextMove? honours) with
        ⟨chosen, instead⟩ | ⟨move, also, chosen, instead, corresponds⟩
      · rw [chosen, instead]
        exact alike
      · rw [chosen, instead, Option.bind_some, Option.bind_some]
        rcases rel_cases (alike.step same corresponds) with
          ⟨stops, halts⟩ | ⟨next, later, goes, follows, alike⟩
        · rw [stops, halts]
          exact alike
        · rw [goes, follows]
          exact ih alike

theorem Alike.finish (alike : system.Alike likeness agrees other) (fuel index rounds : Nat) :
    (system.finish world fuel index rounds).Alike likeness agrees
      (other.finish world fuel index rounds) := by
  induction rounds generalizing system other with
  | zero => exact alike
  | succ rounds ih =>
      have settled := alike.settle same honours fuel
      simp only [System.finish]
      rcases rel_cases (settled.result? index) with
        ⟨waits, lingers⟩ | ⟨_, _, ends, comes, -⟩
      · simp only [waits, lingers]
        rcases rel_cases (settled.step same (.same (.expire index))) with
          ⟨stops, halts⟩ | ⟨next, later, goes, follows, alike⟩
        · simp only [stops, halts]
          exact settled
        · simp only [goes, follows]
          exact ih alike
      · simp only [ends, comes]
        exact settled

/-- Calls that do alike, asked of systems that are alike, come to results that agree. -/
theorem Alike.perform (alike : system.Alike likeness agrees other) {call instead : Call}
    (programs : (call.program : Program V (Result V)).Alike likeness agrees instead.program) :
    Option.Rel agrees (system.perform world call).1 (other.perform world instead).1 ∧
      (system.perform world call).2.Alike likeness agrees (other.perform world instead).2 := by
  have threads : (Thread.ofDuty (.call call) : Thread V).Alike likeness agrees
      (Thread.ofDuty (.call instead)) := ⟨rfl, programs⟩
  have asked := alike.spawn threads
  have length := alike.threads.length_eq
  have finished := asked.finish same honours enough system.threads.length enough
  simp only [System.perform, ← length]
  exact ⟨finished.result? _, finished⟩

end System

end Schematron.Engine

import Schematron.Proofs.Engine.Enforcement
import Schematron.Proofs.Engine.Filter
import Schematron.Proofs.Engine.Serial

/-!
Skipping: documents that the settings hold back. Main statement: whatever state the rule sets are
in, such a document has its empty report, and passes, with the one move that reads the settings,
which changes nothing; every other document has a report only after all validators of a generation
have run.
-/

namespace Schematron

inductive Document.InNamespace (document : Document) : String → Prop
  | given {space : String} :
      document.givenNamespace = some space → InNamespace document space
  | read {content : Text} {parsed : Xml.Parsed} {root : Xml.Node} {name : Xml.Name} :
      document.givenNamespace = none → document.content = some content → content ≠ [] →
      guardedReading? content = some parsed → parsed.document.root? = some root →
      root.name? = some name → name.uri ≠ "" → InNamespace document name.uri

theorem rootNamespace?_eq_some {content : Text} {space : String} :
    rootNamespace? content = some space ↔ ∃ parsed root name,
      guardedReading? content = some parsed ∧ parsed.document.root? = some root ∧
        root.name? = some name ∧ name.uri ≠ "" ∧ name.uri = space := by
  simp [rootNamespace?, Option.bind_eq_some_iff]

theorem Document.rootNamespace?_iff {document : Document} {space : String} :
    document.rootNamespace? = some space ↔ document.InNamespace space := by
  constructor
  · intro inside
    unfold rootNamespace? at inside
    split at inside
    next named =>
      cases inside
      exact .given named
    next unnamed =>
      split at inside
      next => cases inside
      next full =>
        obtain ⟨content, present, inside⟩ := Option.bind_eq_some_iff.mp inside
        obtain ⟨parsed, root, name, reads, rooted, named, somewhere, rfl⟩ :=
          rootNamespace?_eq_some.mp inside
        refine .read unnamed present ?_ reads rooted named somewhere
        rintro rfl
        exact full (by simp [isEmpty, present])
  · intro inside
    cases inside with
    | given named => simp [rootNamespace?, named]
    | @read content parsed root name unnamed present full reads rooted named somewhere =>
        have filled : document.isEmpty = false := by
          cases content with
          | nil => exact absurd rfl full
          | cons first rest => simp [isEmpty, present]
        simp only [rootNamespace?, unnamed, filled, present, Bool.false_eq_true, if_false,
          Option.bind_some]
        exact rootNamespace?_eq_some.mpr
          ⟨parsed, root, name, reads, rooted, named, somewhere, rfl⟩

theorem Document.isEmpty_iff {document : Document} :
    document.isEmpty = true ↔ document.content = none ∨ document.content = some [] := by
  unfold isEmpty
  split <;> simp_all

namespace Engine

open Program

variable {V α : Type}

theorem Evaluation.applies_eq_false {settings : Evaluation} {document : Document} :
    settings.applies document = false ↔
      (document.content = none ∨ document.content = some []) ∨
        ∃ space, settings.filter = some space ∧ ¬document.InNamespace space := by
  rw [← Document.isEmpty_iff, applies, Bool.and_eq_false_iff, Bool.not_eq_false']
  refine or_congr_right ?_
  cases filter : settings.filter with
  | none => simp
  | some space => simp [← Document.rootNamespace?_iff]

inductive PassedOver (document : Document) : Call → Result V → Prop
  | evaluate : PassedOver document (.evaluate document) (.ok (.report ⟨[], none⟩))
  | validate (suppresses : Bool) :
      PassedOver document (.validate document suppresses) (.ok .nothing)

theorem PassedOver.begins {document : Document} {call : Call} {result : Result V}
    (passed : PassedOver document call result) :
    ∃ next : Evaluation → Program V (Result V), call.program = .step .evaluation next ∧
      ∀ settings, settings.applies document = false → next settings = .done result := by
  cases passed with
  | evaluate =>
      refine ⟨_, rfl, fun settings outside => ?_⟩
      simp only [Program.bind, outside]
      rfl
  | validate suppresses =>
      refine ⟨_, rfl, fun settings outside => ?_⟩
      simp only [Program.bind, outside]
      cases suppresses <;> rfl

/-- What is done first stays first. -/
theorem Program.keeps_of_head (program : Program V α) {rule : Rule V}
    {ending : List (Exchange V) → α → Prop} {first : Exchange V}
    (permits : ∀ past instruction, past.head? = some first → rule past instruction)
    (ends : ∀ past answer, past.head? = some first → ending past answer)
    {past : List (Exchange V)} (begun : past.head? = some first) :
    program.Keeps rule ending past := by
  induction program generalizing past with
  | done answer => exact ends past answer begun
  | step instruction rest ih =>
      refine ⟨permits past instruction begun, fun reply _ => ih reply ?_⟩
      rw [List.head?_append, begun]
      rfl

section First

variable {instruction : Instruction V} {next : instruction.Reply → Program V (Result V)}
  {program : Program V (Result V)}

theorem begins_keeps (begins : program = .step instruction next) : program.Keeps
    (fun past given => (past = [] ∧ given = instruction) ∨
      ∃ reply, past.head? = some ⟨instruction, reply⟩)
    (fun past _ => ∃ reply, past.head? = some ⟨instruction, reply⟩) [] := by
  subst begins
  refine ⟨.inl ⟨rfl, rfl⟩, fun reply _ => ?_⟩
  exact (next reply).keeps_of_head (fun _ _ begun => .inr ⟨reply, begun⟩)
    (fun _ _ begun => ⟨reply, begun⟩) rfl

/-- A program that is at its end after one reply does nothing more when it gets that reply. -/
theorem ends_keeps (begins : program = .step instruction next) {reply : instruction.Reply}
    {result : Result V} (ends : next reply = .done result) :
    program.Keeps (fun past _ => past.head? ≠ some ⟨instruction, reply⟩)
      (fun past given => past.head? = some ⟨instruction, reply⟩ →
        past = [⟨instruction, reply⟩] ∧ given = result) [] := by
  subst begins
  refine ⟨by simp, fun given _ => ?_⟩
  by_cases same : (⟨instruction, given⟩ : Exchange V) = ⟨instruction, reply⟩
  · cases same
    rw [ends]
    exact fun _ => ⟨rfl, rfl⟩
  · have apart {past : List (Exchange V)} (begun : past.head? = some ⟨instruction, given⟩) :
        past.head? ≠ some ⟨instruction, reply⟩ := by
      rw [begun]
      exact fun alike => same (Option.some.inj alike)
    exact (next given).keeps_of_head (fun _ _ begun => apart begun)
      (fun _ _ begun alike => absurd alike (apart begun)) rfl

end First

namespace System

/-- How a document is passed over in a run, where the settings hold it back. -/
structure PassesOver (document : Document) (start : System V) (moves : List (Move V))
    (last : System V) : Prop where
  outside : ∀ settings : Evaluation, settings.applies document = false ↔
    (document.content = none ∨ document.content = some []) ∨
      ∃ space, settings.filter = some space ∧ ¬document.InNamespace space
  filtered : ∀ (service : Service) (filter : Option String),
    (service.setFilter filter).system.state.evaluation.applies document = false ↔
      (document.content = none ∨ document.content = some []) ∨
        ∃ space, filter = some space ∧ space ≠ "" ∧ ¬document.InNamespace space
  -- Asked now, the call comes to its end by one move, and leaves the state as it is.
  atOnce : ∀ call (result : Result V), PassedOver document call result →
    last.state.evaluation.applies document = false →
    (last.asked call).run [.advance last.threads.length] =
      some (last.spawn ⟨.call call, .done result⟩)
  judged : ∀ call (result : Result V), PassedOver document call result →
    ∀ index program, last.threads[index]? = some ⟨.call call, program⟩ →
    (exchangesOf index (start.trace moves) = [] ∧ last.canAdvance index = true) ∨
    ∃ settings, ∃ cut : Cut start moves last ⟨index, .evaluation, settings⟩,
      exchangesOf index (start.trace cut.early) = [] ∧
      cut.moment.state.evaluation = settings ∧ cut.next.state = cut.moment.state ∧
      (settings.applies document = false →
        exchangesOf index (start.trace moves) = [⟨.evaluation, settings⟩] ∧
          program = .done result)
  -- Where they do not, a report takes a run of every validator of a generation.
  complete : ∀ index report settings,
    last.threads[index]? = some ⟨.call (.evaluate document), .done (.ok (.report report))⟩ →
    (exchangesOf index (start.trace moves)).head? = some ⟨.evaluation, settings⟩ →
    settings.applies document = true →
    ∃ generation, ∃ visits : List (Visit V),
      (∃ cut : Cut start moves last ⟨index, .snapshot, generation⟩,
        cut.moment.state.generation = generation) ∧
      exchangesOf index (start.trace moves) = ⟨.evaluation, settings⟩ ::
        ⟨.snapshot, generation⟩ :: visits.flatMap (Visit.exchanges document) ∧
      visits.map (·.handle) = generation.handles ∧
      (∀ visit ∈ visits,
        last.state.condition visit.handle = .resolved (.succeeded visit.validator)) ∧
      report = ⟨visits.flatMap (Visit.violations document), some generation.number⟩

section Runs

variable {pool : Pool} {evaluation : Evaluation} {moves : List (Move V)} {last : System V}
  {document : Document}

theorem Answer.unchanged {thread : Nat} {state next : State V} {settings : Evaluation}
    (answer : Answer thread state .evaluation settings next) : next = state := by
  cases answer
  rfl

theorem asked_at_once {call : Call} {result : Result V} (passed : PassedOver document call result)
    (outside : last.state.evaluation.applies document = false) :
    (last.asked call).run [.advance last.threads.length] =
      some (last.spawn ⟨.call call, .done result⟩) := by
  obtain ⟨next, begins, ends⟩ := passed.begins
  have found := last.asked_getElem? call
  rw [begins] at found
  have performed : (Instruction.evaluation : Instruction V).perform last.threads.length
      (last.asked call).state = some (last.state.evaluation, last.state) := rfl
  rw [run_single, step_of_perform found performed, ends _ outside]
  exact congrArg some (goOn_spawn _ _ _)

/-- A thread that has not begun can begin, if its first instruction keeps nobody waiting. -/
theorem begun_or_ready (reached : (initial pool evaluation : System V).run moves = some last)
    {index : Nat} {call : Call} {program : Program V (Result V)}
    (found : last.threads[index]? = some ⟨.call call, program⟩) {instruction : Instruction V}
    {next : instruction.Reply → Program V (Result V)}
    (begins : call.program = .step instruction next)
    (ready : (instruction.perform index last.state).isSome = true) :
    (exchangesOf index ((initial pool evaluation).trace moves) = [] ∧
      last.canAdvance index = true) ∨
    ∃ reply rest, exchangesOf index ((initial pool evaluation).trace moves) =
      ⟨instruction, reply⟩ :: rest := by
  have begun (past : List (Exchange V)) (reply : instruction.Reply)
      (first : past.head? = some ⟨instruction, reply⟩) :
      ∃ reply rest, past = ⟨instruction, reply⟩ :: rest := by
    obtain ⟨rest, rfl⟩ := List.head?_eq_some_iff.mp first
    exact ⟨reply, rest, rfl⟩
  have keeps := thread_keeps reached found (begins_keeps begins)
  cases program with
  | done result =>
      obtain ⟨reply, first⟩ := keeps
      exact .inr (begun _ reply first)
  | step current rest =>
      rcases keeps.1 with ⟨unbegun, rfl⟩ | ⟨reply, first⟩
      · exact .inl ⟨unbegun, canAdvance_eq_true.mpr ⟨_, _, _, found, ready⟩⟩
      · exact .inr (begun _ reply first)

theorem ended_of_reply (reached : (initial pool evaluation : System V).run moves = some last)
    {index : Nat} {call : Call} {program : Program V (Result V)}
    (found : last.threads[index]? = some ⟨.call call, program⟩) {instruction : Instruction V}
    {next : instruction.Reply → Program V (Result V)}
    (begins : call.program = .step instruction next)
    {reply : instruction.Reply} {rest : List (Exchange V)}
    (own : exchangesOf index ((initial pool evaluation).trace moves) =
      ⟨instruction, reply⟩ :: rest)
    {result : Result V} (ends : next reply = .done result) :
    rest = [] ∧ program = .done result := by
  have keeps := thread_keeps reached found (ends_keeps begins ends)
  rw [own] at keeps
  cases program with
  | done given =>
      obtain ⟨alone, rfl⟩ := keeps rfl
      exact ⟨(List.cons.inj alone).2, rfl⟩
  | step current later => exact absurd rfl keeps.1

/-- Documents that the settings hold back touch nothing. -/
theorem held_back_passed_over (reached : (initial pool evaluation : System V).run moves = some last)
    (document : Document) : PassesOver document (initial pool evaluation) moves last := by
  constructor
  case outside => exact fun settings => Evaluation.applies_eq_false
  case filtered =>
    intro service filter
    rw [Evaluation.applies_eq_false]
    simp [Service.setFilter, Option.filter_eq_some_iff, and_assoc]
  case atOnce => exact fun call result passed outside => asked_at_once passed outside
  case judged =>
    intro call result passed index program found
    obtain ⟨next, begins, ends⟩ := passed.begins
    refine (begun_or_ready reached found begins rfl).imp_right ?_
    rintro ⟨settings, rest, own⟩
    have parts : exchangesOf index ((initial pool evaluation).trace moves) =
        [] ++ ⟨.evaluation, settings⟩ :: rest := own
    obtain ⟨cut, first, -⟩ := exists_cut reached parts
    have answer := cut.transition.event.1
    refine ⟨settings, cut, first, answer.judged.symm, answer.unchanged, fun outside => ?_⟩
    obtain ⟨rfl, ended⟩ := ended_of_reply reached found begins own (ends settings outside)
    exact ⟨own, ended⟩
  case complete =>
    intro index report settings found judged applies
    obtain ⟨generation, visiting, outcome, own, visited, ended, current⟩ :=
      visitsCurrent_of_run reached found judged applies
    cases outcome with
    | error failure => cases ended
    | ok violations =>
        cases ended
        obtain ⟨visits, rfl, handles, rfl⟩ := visited
        refine ⟨generation, visits, current, own, handles, fun visit member => ?_, rfl⟩
        have asked : ⟨.await visit.handle visit.evaluation.patience, .ok visit.validator⟩ ∈
            exchangesOf index ((initial pool evaluation : System V).trace moves) := by
          rw [own]
          refine List.mem_cons_of_mem _ (List.mem_cons_of_mem _ (List.mem_flatMap.mpr ?_))
          exact ⟨visit, member, by simp [Visit.exchanges]⟩
        exact succeeded_of_awaited reached asked

def stalling : List (Move Unit) :=
  -- One rule set is not compiled yet, and somebody else is about to replace it.
  [.call .start, .advance 0,
    .call (.configure ⟨default, fun _ => none⟩ none [.resolved default]),
    .advance 1, .advance 1, .advance 1, .advance 1, .advance 1,
    .call (.configure ⟨default, fun _ => none⟩ none []), .advance 2,
    .call (.validate plain false), .advance 3]

theorem stalled_passed_over :
    ∃ last, (initial ⟨1, [], none, [], none⟩ ⟨some "urn:y", .unlimited⟩).run stalling =
        some last ∧
      (last.state.condition ⟨0, default, 1⟩).isResolved = false ∧
      last.state.configuring = some 2 ∧
      last.threads[3]? = some ⟨.call (.validate plain false), .done (.ok .nothing)⟩ ∧
      PassesOver plain (initial ⟨1, [], none, [], none⟩ ⟨some "urn:y", .unlimited⟩) stalling
        last := by
  obtain ⟨last, reached⟩ : ∃ last, (initial ⟨1, [], none, [], none⟩
      ⟨some "urn:y", .unlimited⟩).run stalling = some last := ⟨_, rfl⟩
  have pending : (last.state.condition ⟨0, default, 1⟩).isResolved = false := by
    cases reached
    rfl
  have replaced : last.state.configuring = some 2 := by
    cases reached
    rfl
  have passed : last.threads[3]? =
      some ⟨.call (.validate plain false), .done (.ok .nothing)⟩ := by
    cases reached
    rfl
  exact ⟨last, reached, pending, replaced, passed, held_back_passed_over reached plain⟩

end Runs

end System

end Engine

end Schematron

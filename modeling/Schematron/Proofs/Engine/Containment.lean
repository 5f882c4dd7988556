import Schematron.Pipeline
import Schematron.Proofs.Engine.Completion
import Schematron.Proofs.Engine.Mirroring
import Schematron.Proofs.Engine.Provenance

/-!
Containment: what becomes of failures. Main statement: an evaluation ends with a report or with a
failure of the library, whatever compilers and validators raise, and the advisory form of it gives
the same report, or none just when there is a failure. This holds of failures that can be written: one
that has no text leaves its handle running for ever, or comes out as what was raised over it.
-/

namespace Schematron.Engine

open Program

variable {V α : Type}

/-- How a failure comes to the surface in the evaluation of a thread that stops at a handle. -/
inductive Surfaces (events : List (Event V)) (system : System V) (index : Nat) (document : Document)
    (handle : Handle) : Failure → Prop
  | timeout (limit : TimeLimit) :
      limit ≠ .unlimited →
      ⟨index, .await handle limit, .error (.timeout handle.source.toString limit)⟩ ∈ events →
      Surfaces events system index document handle (.timeout handle.source.toString limit)
  | compilation {worker : Nat} (failure : CompilationFailure) (records : List LogRecord) :
      ⟨worker, .compile handle, (.error (.compilation failure), records)⟩ ∈ events →
      Surfaces events system index document handle (.compilation failure)
  | unexpected {worker : Nat} (raised : Failure) (records : List LogRecord) :
      ⟨worker, .compile handle, (.error raised, records)⟩ ∈ events →
      (∀ failure, raised ≠ .compilation failure) → raised.isCancellation = false →
      raised.onWriting? = none →
      Surfaces events system index document handle
        (.compilation (.unexpected handle.source.toString raised))
  | stopped {worker : Nat} (raised : Failure) (records : List LogRecord) :
      ⟨worker, .compile handle, (.error raised, records)⟩ ∈ events →
      raised.isCancellation = true →
      Surfaces events system index document handle (.cancelled handle.source.toString none)
  | cancelled {caller : Nat} {call : Call} {program : Program V (Result V)} {target : Handle}
      (callbacks : List Callback) :
      system.threads[caller]? = some ⟨.call call, program⟩ → target.id = handle.id →
      ⟨caller, .resolve target .cancelled, some callbacks⟩ ∈ events →
      Surfaces events system index document handle (.cancelled handle.source.toString none)
  | superseded {caller : Nat} {call : Call} {program : Program V (Result V)} {target : Handle}
      (callbacks : List Callback) :
      system.threads[caller]? = some ⟨.call call, program⟩ → target.id = handle.id →
      ⟨caller, .resolve target .superseded, some callbacks⟩ ∈ events →
      Surfaces events system index document handle
        (.superseded handle.source.toString handle.generation)
  | library (validator : V) (raised : Failure) :
      ⟨index, .run validator document, .error raised⟩ ∈ events → raised.isForeign = false →
      Surfaces events system index document handle raised
  | foreign (validator : V) (raised : Failure) :
      ⟨index, .run validator document, .error raised⟩ ∈ events → raised.isForeign = true →
      raised.onWriting? = none →
      Surfaces events system index document handle
        (.execution ("Validator " ++ handle.source.toString ++ " failed: " ++
          raised.message.toStringLossy) (some raised))
  -- What cannot be written does not become a failure of the library.
  | unwritable (validator : V) (failure raised : Failure) :
      ⟨index, .run validator document, .error failure⟩ ∈ events → failure.isForeign = true →
      failure.onWriting? = some raised → Surfaces events system index document handle raised

def Writable (events : List (Event V)) (index : Nat) (document : Document) : Prop :=
  ∀ validator raised, ⟨index, .run validator document, .error raised⟩ ∈ events →
    raised.onWriting? = none

section Surfaces

variable {events : List (Event V)} {system : System V} {index : Nat} {document : Document}
  {handle : Handle} {failure : Failure}

theorem Surfaces.not_foreign (surfaces : Surfaces events system index document handle failure)
    (writable : Writable events index document) : failure.isForeign = false := by
  cases surfaces with
  | library validator raised happened own => exact own
  | unwritable validator raised other happened foreign silent =>
      rw [writable validator raised happened] at silent
      cases silent
  | _ => rfl

theorem Surfaces.written (surfaces : Surfaces events system index document handle failure)
    (writable : Writable events index document) : failure.onWriting? = none := by
  cases surfaces with
  | library validator raised happened own => exact writable validator failure happened
  | unwritable validator raised other happened foreign silent =>
      rw [writable validator raised happened] at silent
      cases silent
  | _ => rfl

end Surfaces

/-- Whatever text a document has, a reader that refuses it raises a failure of the library. -/
theorem execution_of_parse {document : Document} {failure : Failure}
    (filled : document.isEmpty = false) (refused : document.parse = .error failure) :
    ∃ message cause, failure = .execution message (some cause) := by
  unfold Document.parse at refused
  cases given : document.content with
  | none => simp [Document.isEmpty, given] at filled
  | some content =>
      simp only [given] at refused
      split at refused
      next =>
        cases refused
        exact ⟨_, _, rfl⟩
      next =>
        split at refused
        next => cases refused
        next =>
          cases refused
          exact ⟨_, _, rfl⟩

theorem execution_of_run {files : FileTree} {validator : Validator} {document : Document}
    {failure : Failure} (filled : document.isEmpty = false)
    (failed : validator.run files document = .error failure) :
    ∃ message cause, failure = .execution message (some cause) := by
  unfold Validator.run at failed
  cases read : document.parse with
  | error raised =>
      rw [read] at failed
      cases failed
      exact execution_of_parse filled read
  | ok parsed =>
      simp only [read, Bind.bind, Except.bind] at failed
      split at failed
      next => cases failed
      next =>
        cases failed
        exact ⟨_, _, rfl⟩

def Delivers (events : List (Event V)) (system : System V) (index : Nat) (document : Document)
    (handle : Handle) : Prop :=
  ∃ validator diagnostics, system.state.condition handle = .resolved (.succeeded validator) ∧
    ⟨index, .run validator document, .ok diagnostics⟩ ∈ events

def advice : Result V → Result V
  -- What the advisory form gives for the result of an evaluation: the failures of the library
  -- end there, unless they cannot be written.
  | .ok answer => .ok answer
  | .error failure =>
      if failure.isForeign then .error failure
      else failure.onWriting?.elim (.ok .nothing) .error

def advise (document : Document) : Except Failure Report → Program V (Result V)
  | .ok report => .done (.ok (.report report))
  | .error failure =>
      if failure.isForeign then .done (.error failure)
      else
        match failure.onWriting? with
        | some raised => .done (.error raised)
        | none => .step (.note (unreportedRecord document failure)) fun _ => .done (.ok .nothing)

/-- The advisory form leaves a note where a failure ends with it, and passes others on at once. -/
theorem advise_error (document : Document) (failure : Failure) :
    ((advise document (.error failure) : Program V (Result V)) =
        .step (.note (unreportedRecord document failure)) (fun _ => .done (.ok .nothing)) ∧
      (advice (.error failure) : Result V) = .ok .nothing) ∨
    (advise document (.error failure) : Program V (Result V)) =
      .done (advice (.error failure)) := by
  cases foreign : failure.isForeign with
  | true => exact .inr (by simp [advise, advice, foreign])
  | false =>
      cases writing : failure.onWriting? with
      | none => exact .inl (by simp [advise, advice, foreign, writing])
      | some raised => exact .inr (by simp [advise, advice, foreign, writing])

theorem program_evaluate (document : Document) :
    ((Call.evaluate document).program : Program V (Result V)) =
      (evaluate document).bind fun found => .done (found.map .report) := rfl

theorem call_evaluates (document : Document) :
    ((Call.evaluate document).program : Program V (Result V)).Keeps anything
      (fun past result => ∃ found, result = found.map .report ∧ Evaluated document past found)
      [] := by
  rw [program_evaluate]
  exact keeps_bind.mpr ((evaluate_evaluates document).mono fun past found evaluated =>
    ⟨found, rfl, evaluated⟩)

theorem program_reportOnly (document : Document) :
    ((Call.reportOnly document).program : Program V (Result V)) =
      (evaluate document).bind (advise document) := by
  refine (bind_assoc (evaluate document) _ _).trans ?_
  congr 1
  funext found
  cases found with
  | ok report => rfl
  | error failure =>
      simp only [advise]
      cases failure.isForeign <;> cases failure.onWriting? <;> rfl

theorem reportOnly_keeps (document : Document) :
    ((Call.reportOnly document).program : Program V (Result V)).Keeps anything
      (fun past result => ∃ own found, own ⊆ past ∧ Evaluated document own found ∧
        result = advice (found.map .report)) [] := by
  rw [program_reportOnly]
  refine keeps_bind.mpr ((evaluate_evaluates document).mono fun past found evaluated => ?_)
  cases found with
  | ok report => exact ⟨past, .ok report, List.Subset.refl past, evaluated, rfl⟩
  | error failure =>
      rcases advise_error (V := V) document failure with ⟨noting, taken⟩ | passing
      · rw [noting]
        exact ⟨trivial, fun _ _ =>
          ⟨past, _, List.subset_append_left past _, evaluated, taken.symm⟩⟩
      · rw [passing]
        exact ⟨past, _, List.Subset.refl past, evaluated, rfl⟩

def Program.Gives (result : α) : Program V α → Prop
  | .done answer => answer = result
  | .step _ rest => ∃ reply, (rest reply).Gives result

theorem Program.Gives.advise {document : Document} {found : Except Failure Report}
    {result : Result V} (gives : (advise document found : Program V (Result V)).Gives result) :
    result = advice (found.map .report) := by
  cases found with
  | ok report => exact gives.symm
  | error failure =>
      rcases advise_error (V := V) document failure with ⟨noting, taken⟩ | passing
      · rw [noting] at gives
        obtain ⟨-, rfl⟩ := gives
        exact taken.symm
      · rw [passing] at gives
        exact gives.symm

namespace System

theorem gives_of_run {first last : System V} {later : List (Move V)} {index : Nat}
    {duty other : Duty} {program : Program V (Result V)} {result : Result V}
    (found : first.threads[index]? = some ⟨duty, program⟩) (continued : first.run later = some last)
    (ended : last.threads[index]? = some ⟨other, .done result⟩) : program.Gives result := by
  induction later generalizing first duty program with
  | nil =>
      cases continued
      rw [found] at ended
      cases ended
      exact rfl
  | cons move later ih =>
      simp only [run, Option.bind_eq_bind, Option.bind_eq_some_iff] at continued
      obtain ⟨next, stepped, continued⟩ := continued
      have transition := step_transition stepped
      obtain ⟨⟨same, latest⟩, held, kept⟩ := transition.duty found
      have gives := ih held continued
      rcases transition.thread held with ⟨old, -⟩ | ⟨new, -, -⟩ |
        ⟨instruction, rest, reply, old, -, went⟩
      · rw [found] at old
        cases old
        exact gives
      · have present := (List.getElem?_eq_some_iff.mp found).1
        omega
      · rw [found] at old
        cases old
        cases went
        exact ⟨reply, gives⟩

section Runs

variable {workers : Int} {pool : Pool} {evaluation : Evaluation} {moves : List (Move V)}
  {last : System V} {index : Nat} {document : Document} {handle : Handle} {failure : Failure}

theorem surfaces_of_origin {outcome : Outcome V}
    (origin : Origin ((initial pool evaluation).trace moves) last handle outcome)
    (told : .error failure = outcome.result handle) :
    Surfaces ((initial pool evaluation).trace moves) last index document handle failure := by
  cases origin with
  | withdrawn isSuperseded callbacks found same asked =>
      cases isSuperseded with
      | true =>
          cases told
          exact .superseded callbacks found same asked
      | false =>
          cases told
          exact .cancelled callbacks found same asked
  | compiled reply works compiled ended =>
      obtain ⟨result, records⟩ := reply
      have ends : Condition.Ends handle result (.resolved outcome) :=
        Condition.ends_of_eq_some ended
      cases ends with
      | succeeded validator => cases told
      | failed raised =>
          cases told
          exact .compilation raised records compiled
      | cancelled cancels =>
          cases told
          exact .stopped _ records compiled cancels
      | unexpected other uncancelled writing =>
          cases told
          exact .unexpected _ records compiled other uncancelled writing

theorem surfaces_of_failedVisit (created : Pool.create? workers = .ok pool)
    (reached : (initial pool evaluation : System V).run moves = some last)
    (made : handle ∈ madeIn (exchanges ((initial pool evaluation).trace moves)))
    {ending : List (Exchange V)} (fails : FailedVisit document handle ending failure)
    (done : ∀ exchange ∈ ending,
      exchange ∈ exchangesOf index ((initial pool evaluation).trace moves)) :
    Surfaces ((initial pool evaluation).trace moves) last index document handle failure := by
  cases fails with
  | undelivered settings failure =>
      have asked := done ⟨.await handle settings.patience, .error failure⟩ (by simp)
      rcases told_of_awaited reached (mem_exchangesOf.mp asked) with ⟨outcome, resolved, told⟩ |
        ⟨limited, told⟩
      · exact surfaces_of_origin (origin_of_resolved created reached made resolved) told
      · cases told
        exact .timeout settings.patience limited (mem_exchangesOf.mp asked)
  | raised settings validator raised =>
      have ran := mem_exchangesOf.mp (done ⟨.run validator document, .error raised⟩ (by simp))
      cases own : raised.isForeign with
      | false =>
          rw [executionFailure, own]
          exact .library validator raised ran own
      | true =>
          rw [executionFailure, own, if_pos rfl]
          cases writing : raised.onWriting? with
          | none => exact .foreign validator raised ran own writing
          | some other => exact .unwritable validator raised other ran own writing

/-- A failure of an evaluation surfaces at a handle of the generation that it looked at. -/
theorem surfaces_of_evaluated (created : Pool.create? workers = .ok pool)
    (reached : (initial pool evaluation : System V).run moves = some last)
    {own : List (Exchange V)} (evaluated : Evaluated document own (.error failure))
    (done : own ⊆ exchangesOf index ((initial pool evaluation).trace moves)) :
    ∃ generation handle, ⟨index, .snapshot, generation⟩ ∈ (initial pool evaluation).trace moves ∧
      handle ∈ generation.handles ∧
      Surfaces ((initial pool evaluation).trace moves) last index document handle failure := by
  obtain ⟨settings, rest, rfl, comes⟩ := evaluated
  split at comes
  next =>
    obtain ⟨generation, visiting, outcome, rfl, visited, ended⟩ := comes
    cases outcome with
    | ok violations => cases ended
    | error raised =>
        cases ended
        obtain ⟨visits, failing, others, ending, rfl, handles, fails⟩ := visited
        have seen : ⟨index, .snapshot, generation⟩ ∈ (initial pool evaluation).trace moves :=
          mem_exchangesOf.mp (done (by simp))
        have included : failing ∈ generation.handles := by simp [← handles]
        have submitted := submitted_of_published reached (mem_published_of_snapshot reached seen)
          included
        refine ⟨generation, failing, seen, included, ?_⟩
        refine surfaces_of_failedVisit created reached
          ((submittedIn_sublist_madeIn _).subset submitted) fails fun exchange member => ?_
        exact done (by simp [member])
  next => cases comes.2

/-- No failure is left out of a report: all handles of the generation have delivered. -/
theorem delivered_of_evaluated
    (reached : (initial pool evaluation : System V).run moves = some last) {own : List (Exchange V)}
    {report : Report} (evaluated : Evaluated document own (.ok report))
    (done : own ⊆ exchangesOf index ((initial pool evaluation).trace moves))
    {generation : Generation} (seen : ⟨.snapshot, generation⟩ ∈ own)
    (included : handle ∈ generation.handles) :
    Delivers ((initial pool evaluation).trace moves) last index document handle := by
  obtain ⟨settings, rest, rfl, comes⟩ := evaluated
  split at comes
  next =>
    obtain ⟨taken, visiting, outcome, rfl, visited, ended⟩ := comes
    cases outcome with
    | error raised => cases ended
    | ok violations =>
        obtain ⟨visits, rfl, handles, -⟩ := visited
        have same : generation = taken := by
          simpa [Visit.exchanges] using seen
        subst same
        rw [← handles] at included
        obtain ⟨visit, visited, rfl⟩ := List.mem_map.mp included
        have made (exchange : Exchange V) (member : exchange ∈ visit.exchanges document) :
            exchange ∈ exchangesOf index ((initial pool evaluation).trace moves) := by
          have among := List.mem_flatMap.mpr ⟨visit, visited, member⟩
          exact done (List.mem_cons_of_mem _ (List.mem_cons_of_mem _ among))
        have awaited := made ⟨.await visit.handle visit.evaluation.patience, .ok visit.validator⟩
          (by simp [Visit.exchanges])
        have ran := made ⟨.run visit.validator document, .ok visit.diagnostics⟩
          (by simp [Visit.exchanges])
        exact ⟨visit.validator, visit.diagnostics, succeeded_of_awaited reached awaited,
          mem_exchangesOf.mp ran⟩
  next =>
    rw [comes.1] at seen
    simp at seen

theorem recast_asked (system : System V) (call other : Call) :
    (system.asked call).recast system.threads.length ⟨.call other, other.program⟩ =
      system.asked other := by
  simp [asked, spawn, recast, Thread.ofDuty, Duty.program]

theorem asked_of_run (reached : (initial pool evaluation : System V).run moves = some last)
    {call : Call} {later : List (Move V)} {final : System V}
    (continued : (last.asked call).run later = some final) :
    (initial pool evaluation).run (moves ++ .call call :: later) = some final := by
  rw [run_append, reached, Option.bind_some]
  exact continued

/-- A handle whose compilation raised something that cannot be written does not resolve, unless
somebody withdraws it. -/
theorem unfinished_of_compiled (created : Pool.create? workers = .ok pool)
    (reached : (initial pool evaluation : System V).run moves = some last) {worker : Nat}
    {raised : Failure} {records : List LogRecord}
    (compiled : ⟨worker, .compile handle, (.error raised, records)⟩ ∈
      (initial pool evaluation).trace moves) (silent : raised.onWriting?.isSome = true) :
    last.state.condition handle = .running ∨
      ∃ isSuperseded, last.state.condition handle = .resolved (.withdrawn isSuperseded) := by
  have sound := sound_of_run created reached
  obtain ⟨made, begun⟩ := sound.begun worker handle (works_of_compiled reached compiled)
  cases condition : last.state.condition handle with
  | pending => exact absurd condition begun
  | running => exact .inl rfl
  | resolved outcome =>
      rcases sound.ended handle made outcome condition with
        ⟨isSuperseded, rfl⟩ | ⟨result, single, ended⟩
      · exact .inr ⟨isSuperseded, rfl⟩
      · have member : .error raised ∈
            compiledIn handle (exchanges ((initial pool evaluation).trace moves)) :=
          List.mem_filterMap.mpr ⟨_, List.mem_map.mpr ⟨_, compiled, rfl⟩, if_pos rfl⟩
        rw [single, List.mem_singleton] at member
        rw [← member] at ended
        cases raised with
        | unwritable => cases ended
        | _ => cases silent

theorem noted {system : System V} {duty : Duty} {record : LogRecord}
    {rest : Unit → Program V (Result V)}
    (found : system.threads[index]? = some ⟨duty, .step (.note record) rest⟩) :
    ∃ next, system.step (.advance index) = some next ∧
      next.threads[index]? = some ⟨duty, rest ()⟩ := by
  refine ⟨system.goOn index (system.state.note record) (rest ()), ?_, by simp [goOn, found]⟩
  simp [step, goOn?, found, Move.answer?, Instruction.perform]

/-- Once an evaluation has its result, the advisory form has its own after the same moves, or one
move later. -/
theorem advised_of_evaluated {later : List (Move V)} {final : System V} {result : Result V}
    (continued : (last.asked (.evaluate document)).run later = some final)
    (ended : final.threads[last.threads.length]? =
      some ⟨.call (.evaluate document), .done result⟩) :
    ∃ early late other, later = early ++ late ∧
      ((last.asked (.reportOnly document)).run early = some other ∨
        (last.asked (.reportOnly document)).run (early ++ [.advance last.threads.length]) =
          some other) ∧
      other.threads[last.threads.length]? =
        some ⟨.call (.reportOnly document), .done (advice result)⟩ := by
  obtain ⟨early, late, middle, answer, rfl, before, after, left, alike⟩ :=
    mirrored_run (.call (.reportOnly document)) (advise document)
      (last.asked_getElem? (.evaluate document)) continued ended
  rw [← program_reportOnly, recast_asked] at alike
  have present := (List.getElem?_eq_some_iff.mp left).1
  obtain rfl : answer.map .report = result := gives_of_run left after ended
  cases answer with
  | ok report =>
      exact ⟨early, late, _, rfl, .inl alike, recast_getElem?_self present⟩
  | error failure =>
      have standing : (middle.recast last.threads.length ⟨.call (.reportOnly document),
          advise document (.error failure)⟩).threads[last.threads.length]? =
            some ⟨.call (.reportOnly document), advise document (.error failure)⟩ :=
        recast_getElem?_self present
      rcases advise_error (V := V) document failure with ⟨noting, taken⟩ | passing
      · rw [noting] at standing alike
        obtain ⟨next, stepped, held⟩ := noted standing
        refine ⟨early, late, next, rfl, .inr ?_, ?_⟩
        · rw [run_append, alike, Option.bind_some, run_single, stepped]
        · rw [Except.map, taken]
          exact held
      · rw [passing] at standing alike
        exact ⟨early, late, _, rfl, .inl alike, standing⟩

/-- Once the advisory form has its result, the evaluation has had its own after some of the same
moves. -/
theorem evaluated_of_advised {later : List (Move V)} {final : System V} {result : Result V}
    (continued : (last.asked (.reportOnly document)).run later = some final)
    (ended : final.threads[last.threads.length]? =
      some ⟨.call (.reportOnly document), .done result⟩) :
    ∃ early late other found, later = early ++ late ∧
      (last.asked (.evaluate document)).run early = some other ∧
      other.threads[last.threads.length]? = some ⟨.call (.evaluate document), .done found⟩ ∧
      result = advice found := by
  have started := last.asked_getElem? (.reportOnly document)
  rw [program_reportOnly] at started
  obtain ⟨early, late, middle, answer, rfl, before, after, left, alike⟩ :=
    mirrored_run (.call (.evaluate document)) (fun found => .done (found.map .report))
      started continued ended
  rw [← program_evaluate, recast_asked] at alike
  have present := (List.getElem?_eq_some_iff.mp left).1
  have held : (middle.recast last.threads.length ⟨.call (.evaluate document),
      .done (answer.map .report)⟩).threads[last.threads.length]? =
        some ⟨.call (.evaluate document), .done (answer.map .report)⟩ :=
    recast_getElem?_self present
  exact ⟨early, late, _, answer.map .report, rfl, alike, held,
    (gives_of_run left after ended).advise⟩

/-- How failures are contained at a moment of the system, for a document. -/
structure Contained (settings : Evaluation) (start : System V) (moves : List (Move V))
    (last : System V) (document : Document) : Prop where
  reported : ∀ index report,
    last.threads[index]? = some ⟨.call (.evaluate document), .done (.ok report)⟩ →
    (∃ made, report = .report made) ∧
      ∀ generation handle, ⟨index, .snapshot, generation⟩ ∈ start.trace moves →
        handle ∈ generation.handles → Delivers (start.trace moves) last index document handle
  surfaced : ∀ index failure,
    last.threads[index]? = some ⟨.call (.evaluate document), .done (.error failure)⟩ →
    (Writable (start.trace moves) index document → failure.isForeign = false) ∧
      ∃ generation handle, ⟨index, .snapshot, generation⟩ ∈ start.trace moves ∧
        handle ∈ generation.handles ∧
        Surfaces (start.trace moves) last index document handle failure
  -- A compilation that raised something that cannot be written has no outcome of its own.
  unfinished : ∀ worker handle raised records,
    ⟨worker, .compile handle, (.error raised, records)⟩ ∈ start.trace moves →
    raised.onWriting?.isSome = true →
    last.state.condition handle = .running ∨
      ∃ isSuperseded, last.state.condition handle = .resolved (.withdrawn isSuperseded)
  executed : ∀ (files : FileTree) (validator : Validator) failure, document.isEmpty = false →
    validator.run files document = .error failure →
    ∃ message cause, failure = .execution message (some cause)
  ends : Patient settings moves → ∀ (index : Nat) (call : Call) program,
    call.evaluates = true → last.threads[index]? = some ⟨.call call, program⟩ →
    ∃ more final result, last.run more = some final ∧ LetsGoOn more ∧
      final.threads[index]? = some ⟨.call call, .done result⟩
  unraised : ∀ (index : Nat) (result : Result V),
    last.threads[index]? = some ⟨.call (.reportOnly document), .done result⟩ →
    Writable (start.trace moves) index document →
    result = .ok .nothing ∨ ∃ report, result = .ok (.report report)
  -- Asked in place of an evaluation, the advisory form goes by the same moves up to its advice.
  advised : ∀ (later : List (Move V)) final result,
    (last.asked (.evaluate document)).run later = some final →
    final.threads[last.threads.length]? = some ⟨.call (.evaluate document), .done result⟩ →
    ∃ early late other, later = early ++ late ∧
      ((last.asked (.reportOnly document)).run early = some other ∨
        (last.asked (.reportOnly document)).run (early ++ [.advance last.threads.length]) =
          some other) ∧
      other.threads[last.threads.length]? =
        some ⟨.call (.reportOnly document), .done (advice result)⟩
  evaluated : ∀ (later : List (Move V)) final result,
    (last.asked (.reportOnly document)).run later = some final →
    final.threads[last.threads.length]? = some ⟨.call (.reportOnly document), .done result⟩ →
    ∃ early late other found, later = early ++ late ∧
      (last.asked (.evaluate document)).run early = some other ∧
      other.threads[last.threads.length]? = some ⟨.call (.evaluate document), .done found⟩ ∧
      result = advice found

def raising : List (Move Unit) :=
  -- Two compilations raise something of their own, the second one something that cannot be
  -- written, and a document is then evaluated in both forms.
  [.call .start, .advance 0,
    .call (.configure ⟨default, fun _ => none⟩ none [.resolved default, .resolved default]),
    .advance 1, .advance 1, .advance 1, .advance 1, .advance 1, .advance 1, .advance 1,
    .take 0, .begin 0 ⟨0, default, 1⟩, .advance 2,
    .compiled 2 (.error (.foreign "KeyError" "boom")) [],
    .advance 2, .advance 2, .advance 2,
    .take 0, .begin 0 ⟨1, default, 1⟩, .advance 3,
    .compiled 3 (.error (.unwritable "BrokenError" false (.foreign "TypeError" "no text"))) [],
    .advance 3,
    .call (.evaluate ⟨some [.ofNat 60], none, none, "metadata"⟩),
    .advance 4, .advance 4, .advance 4, .advance 4,
    .call (.reportOnly ⟨some [.ofNat 60], none, none, "metadata"⟩),
    .advance 5, .advance 5, .advance 5, .advance 5, .advance 5]

end Runs

end System

end Schematron.Engine

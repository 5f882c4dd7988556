import Schematron.Proofs.Engine.Registry

/-!
Evaluation: where a report comes from. Main statement: whatever is configured, closed or withdrawn
in the meantime, a report is made by the validators of one generation, the one that was current when
the evaluation took its snapshot.
-/

namespace Schematron.Engine

open Program

variable {V : Type}

structure Visit (V : Type) where
  handle : Handle
  evaluation : Evaluation
  validator : V
  diagnostics : List Diagnostic

namespace Visit

def exchanges (document : Document) (visit : Visit V) : List (Exchange V) :=
  [⟨.evaluation, visit.evaluation⟩,
    ⟨.await visit.handle visit.evaluation.patience, .ok visit.validator⟩,
    ⟨.run visit.validator document, .ok visit.diagnostics⟩]

def violations (document : Document) (visit : Visit V) : List Violation :=
  visit.diagnostics.map fun diagnostic =>
    ⟨[document.contentAttribute], Text.sanitize diagnostic.message, diagnostic.severity⟩

end Visit

inductive FailedVisit (document : Document) (handle : Handle) : List (Exchange V) → Failure → Prop
  | undelivered (evaluation : Evaluation) (failure : Failure) :
      FailedVisit document handle
        [⟨.evaluation, evaluation⟩, ⟨.await handle evaluation.patience, .error failure⟩] failure
  | raised (evaluation : Evaluation) (validator : V) (failure : Failure) :
      FailedVisit document handle
        [⟨.evaluation, evaluation⟩, ⟨.await handle evaluation.patience, .ok validator⟩,
          ⟨.run validator document, .error failure⟩] (executionFailure handle failure)

def Visited (document : Document) (handles : List Handle) (own : List (Exchange V)) :
    Except Failure (List Violation) → Prop
  | .ok violations => ∃ visits : List (Visit V), own = visits.flatMap (Visit.exchanges document) ∧
      visits.map (·.handle) = handles ∧ violations = visits.flatMap (Visit.violations document)
  | .error failure => ∃ (visits : List (Visit V)) (failing : Handle) (others : List Handle)
      (ending : List (Exchange V)),
      own = visits.flatMap (Visit.exchanges document) ++ ending ∧
      visits.map (·.handle) ++ failing :: others = handles ∧
      FailedVisit document failing ending failure

theorem Visited.cons {document : Document} {handles : List Handle} {own : List (Exchange V)}
    {found : Except Failure (List Violation)} (visited : Visited document handles own found)
    (visit : Visit V) :
    Visited document (visit.handle :: handles) (visit.exchanges document ++ own)
      (found.map (visit.violations document ++ ·)) := by
  cases found with
  | ok violations =>
      obtain ⟨visits, rfl, rfl, rfl⟩ := visited
      exact ⟨visit :: visits, rfl, rfl, rfl⟩
  | error failure =>
      obtain ⟨visits, failing, others, ending, rfl, rfl, fails⟩ := visited
      exact ⟨visit :: visits, failing, others, ending, by simp, rfl, fails⟩

theorem runAll_keeps (document : Document) (handles : List Handle) (past : List (Exchange V)) :
    (runAll document handles).Keeps anything
      (fun later found => ∃ own, later = past ++ own ∧ Visited document handles own found)
      past := by
  induction handles generalizing past with
  | nil => exact ⟨[], by simp, [], rfl, rfl, rfl⟩
  | cons handle rest ih =>
      refine ⟨trivial, fun evaluation _ => ⟨trivial, fun delivered _ => ?_⟩⟩
      cases delivered with
      | error failure =>
          exact ⟨_, by simp only [List.append_assoc]; rfl, [], handle, rest, _, rfl, rfl,
            .undelivered evaluation failure⟩
      | ok validator =>
          refine ⟨trivial, fun found _ => ?_⟩
          cases found with
          | error failure =>
              exact ⟨_, by simp only [List.append_assoc]; rfl, [], handle, rest, _, rfl, rfl,
                .raised evaluation validator failure⟩
          | ok diagnostics =>
              simp only [Program.bind, keeps_bind]
              refine (ih _).mono ?_
              rintro _ others ⟨own, rfl, visited⟩
              exact ⟨_, by simp only [List.append_assoc]; rfl,
                visited.cons ⟨handle, evaluation, validator, diagnostics⟩⟩

def Evaluated (document : Document) (past : List (Exchange V)) (found : Except Failure Report) :
    Prop :=
  ∃ settings rest, past = ⟨.evaluation, settings⟩ :: rest ∧
    if settings.applies document then
      ∃ generation own outcome, rest = ⟨.snapshot, generation⟩ :: own ∧
        Visited document generation.handles own outcome ∧
        found = outcome.map fun violations => ⟨violations, some generation.number⟩
    else rest = [] ∧ found = .ok .empty

theorem evaluate_evaluates (document : Document) :
    (evaluate document : Program V (Except Failure Report)).Keeps anything (Evaluated document)
      [] := by
  simp only [evaluate, keeps_bind]
  refine ⟨trivial, fun settings _ => ?_⟩
  by_cases applies : settings.applies document
  · simp only [Keeps, applies, if_true]
    refine ⟨trivial, fun generation _ => ?_⟩
    simp only [Program.bind, keeps_bind]
    refine (runAll_keeps document _ _).mono ?_
    rintro _ found ⟨own, rfl, visited⟩
    refine ⟨settings, ⟨.snapshot, generation⟩ :: own, rfl, ?_⟩
    rw [if_pos applies]
    exact ⟨generation, own, found, rfl, visited, rfl⟩
  · simp only [Keeps, applies]
    refine ⟨settings, [], rfl, ?_⟩
    rw [if_neg applies]
    exact ⟨rfl, rfl⟩

theorem evaluate_keeps (document : Document) :
    ((Call.evaluate document).program : Program V (Result V)).Keeps anything
      (fun past result => ∃ settings rest, past = ⟨.evaluation, settings⟩ :: rest ∧
        if settings.applies document then
          ∃ generation own found, rest = ⟨.snapshot, generation⟩ :: own ∧
            Visited document generation.handles own found ∧
            result = found.map fun violations => .report ⟨violations, some generation.number⟩
        else rest = [] ∧ result = .ok (.report .empty)) [] := by
  simp only [Call.program, keeps_bind]
  refine (evaluate_evaluates document).mono ?_
  rintro past found ⟨settings, rest, rfl, comes⟩
  refine ⟨settings, rest, rfl, ?_⟩
  by_cases applies : settings.applies document
  · rw [if_pos applies] at comes ⊢
    obtain ⟨generation, own, outcome, rfl, visited, rfl⟩ := comes
    exact ⟨generation, own, outcome, rfl, visited, by cases outcome <;> rfl⟩
  · rw [if_neg applies] at comes ⊢
    obtain ⟨rfl, rfl⟩ := comes
    exact ⟨rfl, rfl⟩

namespace System

def VisitsCurrent (document : Document) (settings : Evaluation) (start : System V)
    (moves : List (Move V)) (last : System V) (index : Nat) (result : Result V) : Prop :=
  ∃ generation visiting outcome,
    exchangesOf index (start.trace moves) =
      ⟨.evaluation, settings⟩ :: ⟨.snapshot, generation⟩ :: visiting ∧
    Visited document generation.handles visiting outcome ∧
    result = outcome.map (fun violations => .report ⟨violations, some generation.number⟩) ∧
    ∃ cut : Cut start moves last ⟨index, .snapshot, generation⟩,
      cut.moment.state.generation = generation

/-- What comes of evaluating a document on a generation. -/
structure EvaluatesOn (generation : Generation) (document : Document) (settings : Evaluation)
    (start : System V) (moves : List (Move V)) (last : System V) (index : Nat)
    (result : Result V) : Prop where
  corresponds : generation.handles.map (·.source) = generation.sources
  numbered : ∀ handle ∈ generation.handles, handle.generation = generation.number
  distinct : (generation.handles.map (·.id)).Nodup
  ends : (∃ report, result = .ok (.report report)) ∨ ∃ failure, result = .error failure
  reported : ∀ report, result = .ok (.report report) → ∃ visits : List (Visit V),
    exchangesOf index (start.trace moves) = ⟨.evaluation, settings⟩ :: ⟨.snapshot, generation⟩ ::
      visits.flatMap (Visit.exchanges document) ∧
    visits.map (·.handle) = generation.handles ∧
    (∀ visit ∈ visits,
      last.state.condition visit.handle = .resolved (.succeeded visit.validator)) ∧
    report.generation = some generation.number ∧
    report.violations = visits.flatMap (Visit.violations document)
  failed : ∀ failure, result = .error failure → ∃ (visits : List (Visit V)) (failing : Handle)
      (others : List Handle) (ending : List (Exchange V)),
    exchangesOf index (start.trace moves) = ⟨.evaluation, settings⟩ :: ⟨.snapshot, generation⟩ ::
      (visits.flatMap (Visit.exchanges document) ++ ending) ∧
    visits.map (·.handle) ++ failing :: others = generation.handles ∧
    (∀ visit ∈ visits,
      last.state.condition visit.handle = .resolved (.succeeded visit.validator)) ∧
    FailedVisit document failing ending failure ∧
    ∀ early late middle, moves = early ++ late → start.run early = some middle →
      middle.state.condition failing = .resolved .superseded →
      (∀ limit reply, ⟨.await failing limit, reply⟩ ∉ exchangesOf index (start.trace early)) →
      failure = .superseded failing.source.toString failing.generation
  -- There is no report once a handle has been superseded instead of delivering.
  unreported : ∀ early late middle, moves = early ++ late → start.run early = some middle →
    ∀ handle ∈ generation.handles, middle.state.condition handle = .resolved .superseded →
    ∀ report, result ≠ .ok (.report report)

theorem Answer.snapshotted {thread : Nat} {state next : State V} {generation : Generation}
    (answer : Answer thread state .snapshot generation next) : state.generation = generation := by
  cases answer
  rfl

theorem succeeded_of_result {handle : Handle} {outcome : Outcome V} {validator : V}
    (delivered : .ok validator = outcome.result handle) : outcome = .succeeded validator := by
  cases outcome with
  | succeeded found =>
      cases delivered
      rfl
  | _ => cases delivered

section Runs

variable {workers : Int} {pool : Pool} {evaluation : Evaluation} {moves : List (Move V)}
  {last : System V} {index : Nat} {handle : Handle}

/-- Whoever has waited was told what has come of the handle, or had no patience left. -/
theorem told_of_awaited {start : System V} (reached : start.run moves = some last)
    {limit : TimeLimit} {reply : Except Failure V}
    (asked : ⟨index, .await handle limit, reply⟩ ∈ start.trace moves) :
    (∃ outcome, last.state.condition handle = .resolved outcome ∧
      reply = outcome.result handle) ∨
    (limit ≠ .unlimited ∧ reply = .error (.timeout handle.source.toString limit)) := by
  obtain ⟨cut⟩ := cut_of_mem reached asked
  rcases cut.answer.awaited with ⟨outcome, resolved, told⟩ | ⟨-, limited, told⟩
  · have final := (resolved_of_run cut.rest resolved).1
    exact .inl ⟨outcome, final, told⟩
  · exact .inr ⟨limited, told⟩

theorem succeeded_of_awaited {start : System V} (reached : start.run moves = some last)
    {limit : TimeLimit} {validator : V}
    (asked : ⟨.await handle limit, .ok validator⟩ ∈ exchangesOf index (start.trace moves)) :
    last.state.condition handle = .resolved (.succeeded validator) := by
  rcases told_of_awaited reached (mem_exchangesOf.mp asked) with ⟨outcome, resolved, told⟩ |
    ⟨-, told⟩
  · rw [resolved, succeeded_of_result told]
  · cases told

/-- Whoever asks for a handle only after it was superseded is told so. -/
theorem superseded_of_awaited {start middle : System V} {early late : List (Move V)}
    (reached : start.run early = some middle) (continued : middle.run late = some last)
    (superseded : middle.state.condition handle = .resolved .superseded) {limit : TimeLimit}
    {reply : Except Failure V}
    (asked : ⟨.await handle limit, reply⟩ ∈ exchangesOf index (start.trace (early ++ late)))
    (unasked : ∀ limit reply,
      ⟨.await handle limit, reply⟩ ∉ exchangesOf index (start.trace early)) :
    reply = .error (.superseded handle.source.toString handle.generation) := by
  rw [trace_append reached, exchangesOf_append, List.mem_append] at asked
  have asked := mem_exchangesOf.mp (asked.resolve_left (unasked limit reply))
  rcases told_of_run continued asked with ⟨outcome, resolved, told⟩ | ⟨unresolved, -⟩
  · rw [(resolved_of_run continued superseded).1, Condition.resolved.injEq] at resolved
    rw [told, ← resolved]
    rfl
  · rw [superseded] at unresolved
    cases unresolved

/-- The failure of a visit to a handle that was superseded before it was asked for. -/
theorem superseded_of_failedVisit {document : Document} {ending : List (Exchange V)}
    {failure : Failure} (fails : FailedVisit document handle ending failure)
    {start middle : System V} {early late : List (Move V)} (reached : start.run early = some middle)
    (continued : middle.run late = some last)
    (superseded : middle.state.condition handle = .resolved .superseded)
    (done : ∀ exchange ∈ ending, exchange ∈ exchangesOf index (start.trace (early ++ late)))
    (unasked : ∀ limit reply,
      ⟨.await handle limit, reply⟩ ∉ exchangesOf index (start.trace early)) :
    failure = .superseded handle.source.toString handle.generation := by
  cases fails with
  | undelivered settings failure =>
      have asked := done ⟨.await handle settings.patience, .error failure⟩ (by simp)
      exact Except.error.inj (superseded_of_awaited reached continued superseded asked unasked)
  | raised settings validator failure =>
      have asked := done ⟨.await handle settings.patience, .ok validator⟩ (by simp)
      cases superseded_of_awaited reached continued superseded asked unasked

theorem visitsCurrent_of_run {document : Document} {result : Result V} {settings : Evaluation}
    (reached : (initial pool evaluation : System V).run moves = some last)
    (found : last.threads[index]? = some ⟨.call (.evaluate document), .done result⟩)
    (judged : (exchangesOf index ((initial pool evaluation).trace moves)).head? =
      some ⟨.evaluation, settings⟩)
    (applies : settings.applies document = true) :
    VisitsCurrent document settings (initial pool evaluation) moves last index result := by
  obtain ⟨given, rest, own, comes⟩ := thread_keeps reached found (evaluate_keeps document)
  rw [own] at judged
  cases judged
  rw [if_pos applies] at comes
  obtain ⟨generation, visiting, outcome, rfl, visited, ended⟩ := comes
  have parts : exchangesOf index ((initial pool evaluation : System V).trace moves) =
      [⟨.evaluation, settings⟩] ++ ⟨.snapshot, generation⟩ :: visiting := own
  obtain ⟨cut, -⟩ := exists_cut reached parts
  exact ⟨generation, visiting, outcome, own, visited, ended, cut,
    cut.transition.event.1.snapshotted⟩

/-- Every evaluation of a document that applies is one of one generation. -/
theorem evaluates_on_one_generation (created : Pool.create? workers = .ok pool)
    (reached : (initial pool evaluation : System V).run moves = some last) {document : Document}
    {result : Result V}
    (found : last.threads[index]? = some ⟨.call (.evaluate document), .done result⟩)
    {settings : Evaluation}
    (judged : (exchangesOf index ((initial pool evaluation).trace moves)).head? =
      some ⟨.evaluation, settings⟩)
    (applies : settings.applies document = true) :
    ∃ generation, ∃ cut : Cut (initial pool evaluation) moves last ⟨index, .snapshot, generation⟩,
      cut.moment.state.generation = generation ∧
      EvaluatesOn generation document settings (initial pool evaluation) moves last index
        result := by
  obtain ⟨generation, visiting, outcome, own, visited, ended, cut, current⟩ :=
    visitsCurrent_of_run reached found judged applies
  have orderly := (registered_of_run cut.reached).isOrderly
  have distinct := (sound_of_run created cut.reached).nodup orderly.made
  rw [current] at orderly distinct
  have delivered {visits : List (Visit V)}
      (all : visits.flatMap (Visit.exchanges document) ⊆ visiting) (visit : Visit V)
      (member : visit ∈ visits) :
      last.state.condition visit.handle = .resolved (.succeeded visit.validator) := by
    have asked : ⟨.await visit.handle visit.evaluation.patience, .ok visit.validator⟩ ∈ visiting :=
      all (List.mem_flatMap.mpr ⟨visit, member, by simp [Visit.exchanges]⟩)
    have done : ⟨.await visit.handle visit.evaluation.patience, .ok visit.validator⟩ ∈
        exchangesOf index ((initial pool evaluation : System V).trace moves) := by
      rw [own]
      exact List.mem_cons_of_mem _ (List.mem_cons_of_mem _ asked)
    exact succeeded_of_awaited reached done
  refine ⟨generation, cut, current, orderly.corresponds, orderly.numbered, distinct, ?_, ?_, ?_, ?_⟩
  · rw [ended]
    cases outcome with
    | ok violations => exact .inl ⟨_, rfl⟩
    | error failure => exact .inr ⟨failure, rfl⟩
  · intro report same
    cases outcome with
    | error failure => cases ended.symm.trans same
    | ok violations =>
        cases ended.symm.trans same
        obtain ⟨visits, rfl, handles, rfl⟩ := visited
        exact ⟨visits, own, handles, delivered (List.Subset.refl _), rfl, rfl⟩
  · intro failure same
    cases outcome with
    | ok violations => cases ended.symm.trans same
    | error raised =>
        cases ended.symm.trans same
        obtain ⟨visits, failing, others, ending, rfl, handles, fails⟩ := visited
        refine ⟨visits, failing, others, ending, own, handles,
          delivered (List.subset_append_left _ _), fails, ?_⟩
        rintro early late middle rfl earlier superseded unasked
        have continued : middle.run late = some last := by
          rwa [run_append, earlier, Option.bind_some] at reached
        have done (exchange : Exchange V) (member : exchange ∈ ending) :
            exchange ∈ exchangesOf index
              ((initial pool evaluation : System V).trace (early ++ late)) := by
          rw [own]
          exact List.mem_cons_of_mem _ (List.mem_cons_of_mem _ (List.mem_append_right _ member))
        exact superseded_of_failedVisit fails earlier continued superseded done unasked
  · rintro early late middle rfl earlier handle member superseded report same
    have continued : middle.run late = some last := by
      rwa [run_append, earlier, Option.bind_some] at reached
    have final := (resolved_of_run continued superseded).1
    cases outcome with
    | error failure => cases ended.symm.trans same
    | ok violations =>
        obtain ⟨visits, rfl, handles, -⟩ := visited
        rw [← handles] at member
        obtain ⟨visit, visited, rfl⟩ := List.mem_map.mp member
        cases final.symm.trans (delivered (List.Subset.refl _) visit visited)

def interrupting : List (Move Unit) :=
  -- The rule sets are replaced while a validator runs.
  [.call .start, .advance 0,
    .call (.configure ⟨default, fun _ => none⟩ none [.resolved default]),
    .advance 1, .advance 1, .advance 1, .advance 1, .advance 1,
    .take 0, .begin 0 ⟨0, default, 1⟩, .advance 2, .compiled 2 (.ok ()) [], .advance 2, .advance 2,
    .call (.evaluate ⟨some [.ofNat 60], none, none, "metadata"⟩),
    .advance 3, .advance 3, .advance 3, .advance 3,
    .call (.configure ⟨default, fun _ => none⟩ none []),
    .advance 4, .advance 4, .advance 4, .advance 4, .ran 3 (.ok [])]

theorem interrupted_on_one_generation :
    ∃ pool last generation, Pool.create? 1 = .ok pool ∧
      (initial pool ⟨none, .unlimited⟩).run interrupting = some last ∧
      last.state.generation.number = 2 ∧ generation.number = 1 ∧
      EvaluatesOn generation ⟨some [.ofNat 60], none, none, "metadata"⟩ ⟨none, .unlimited⟩
        (initial pool ⟨none, .unlimited⟩) interrupting last 3 (.ok (.report ⟨[], some 1⟩)) := by
  obtain ⟨last, reached⟩ : ∃ last, (initial ⟨1, [], none, [], none⟩ ⟨none, .unlimited⟩).run
      interrupting = some last := ⟨_, rfl⟩
  have found : last.threads[3]? =
      some ⟨.call (.evaluate ⟨some [.ofNat 60], none, none, "metadata"⟩),
        .done (.ok (.report ⟨[], some 1⟩))⟩ := by
    cases reached
    rfl
  have number : last.state.generation.number = 2 := by
    cases reached
    rfl
  have judged : (exchangesOf 3 ((initial ⟨1, [], none, [], none⟩ ⟨none, .unlimited⟩).trace
      interrupting)).head? = some ⟨.evaluation, ⟨none, .unlimited⟩⟩ := rfl
  obtain ⟨generation, cut, -, evaluates⟩ :=
    evaluates_on_one_generation (rfl : Pool.create? 1 = _) reached found judged (by decide)
  obtain ⟨-, -, -, -, same, -⟩ := evaluates.reported _ rfl
  exact ⟨_, last, generation, rfl, reached, number, (Option.some.inj same).symm, evaluates⟩

end Runs

end System

end Schematron.Engine

import Schematron.Proofs.Engine.Completion

/-!
Failing fast: what comes of the positions of a generation that is evaluated. Main statement: the
report collects what there is to find at all positions in order, unless one of them fails; then the
evaluation fails as the first of these does, and nothing behind it has been looked at.
-/

namespace Schematron.Engine

open Program

variable {V : Type}

structure Position (V : Type) where
  handle : Handle
  delivery : Except Failure V
  outcome : Except Failure (List Diagnostic)

namespace Position

def failure? (position : Position V) : Option Failure :=
  match position.delivery, position.outcome with
  | .error failure, _ => some failure
  | .ok _, .error failure => some (executionFailure position.handle failure)
  | .ok _, .ok _ => none

def run? (document : Document) (position : Position V) : Option (V × Document) :=
  match position.delivery with
  | .error _ => none
  | .ok validator => some (validator, document)

def violations (document : Document) (position : Position V) : List Violation :=
  match position.outcome with
  | .error _ => []
  | .ok diagnostics => diagnostics.map fun diagnostic =>
      ⟨[document.contentAttribute], Text.sanitize diagnostic.message, diagnostic.severity⟩

end Position

namespace Exchange

def awaited? : Exchange V → Option Handle
  | ⟨.await handle _, _⟩ => some handle
  | _ => none

def delivery? : Exchange V → Option (Except Failure V)
  | ⟨.await _ _, reply⟩ => some reply
  | _ => none

def ran? : Exchange V → Option (V × Document)
  | ⟨.run validator document, _⟩ => some (validator, document)
  | _ => none

def outcome? : Exchange V → Option (Except Failure (List Diagnostic))
  | ⟨.run _ _, reply⟩ => some reply
  | _ => none

end Exchange

structure Bears (generation : Generation) (positions : List (Position V))
    (own : List (Exchange V)) : Prop where
  -- What has been seen of the positions of a generation is as it was given; whatever was not
  -- looked at may be anything.
  handles : positions.map (·.handle) = generation.handles
  deliveries : own.filterMap Exchange.delivery? <+: positions.map (·.delivery)
  outcomes : own.filterMap Exchange.outcome? <+: positions.map (·.outcome)

/-- What comes of evaluating positions in order, up to the first that fails. -/
structure FailsFast (document : Document) (number : Int) (positions : List (Position V))
    (own : List (Exchange V)) (result : Result V) : Prop where
  reported : (∀ position ∈ positions, position.failure? = none) →
    result = .ok (.report ⟨positions.flatMap (Position.violations document), some number⟩) ∧
      own.filterMap Exchange.awaited? = positions.map (·.handle) ∧
      own.filterMap Exchange.ran? = positions.filterMap (Position.run? document)
  failed : ∀ before position after failure, positions = before ++ position :: after →
    (∀ earlier ∈ before, earlier.failure? = none) → position.failure? = some failure →
    result = .error failure ∧
      own.filterMap Exchange.awaited? = (before ++ [position]).map (·.handle) ∧
      own.filterMap Exchange.ran? = (before ++ [position]).filterMap (Position.run? document)

theorem takeWhile_fine {before : List (Position V)} {position : Position V} {failure : Failure}
    (fine : ∀ earlier ∈ before, earlier.failure? = none) (fails : position.failure? = some failure)
    (after : List (Position V)) :
    (before ++ position :: after).takeWhile (·.failure?.isNone) = before := by
  rw [List.takeWhile_append_of_pos (by simpa using fine)]
  simp [fails]

/-- There is but one first position that fails. -/
theorem first_failing_unique {before others after rest : List (Position V)}
    {position other : Position V} {failure raised : Failure}
    (fine : ∀ earlier ∈ before, earlier.failure? = none) (fails : position.failure? = some failure)
    (alike : ∀ earlier ∈ others, earlier.failure? = none) (raises : other.failure? = some raised)
    (same : before ++ position :: after = others ++ other :: rest) :
    before = others ∧ position = other := by
  have equal : before = others := by
    rw [← takeWhile_fine fine fails after, same, takeWhile_fine alike raises]
  subst equal
  exact ⟨rfl, (List.cons.inj (List.append_cancel_left same)).1⟩

namespace Visit

def position (visit : Visit V) : Position V :=
  ⟨visit.handle, .ok visit.validator, .ok visit.diagnostics⟩

theorem fine_of_visited {visits : List (Visit V)} {found : Position V}
    (member : found ∈ visits.map position) : found.failure? = none := by
  obtain ⟨visit, -, rfl⟩ := List.mem_map.mp member
  rfl

/-- What is read off each visit is read off all of them in order. -/
theorem filterMap_exchanges {α : Type} {document : Document} {read : Exchange V → Option α}
    {single : Visit V → α}
    (reads : ∀ visit : Visit V, (visit.exchanges document).filterMap read = [single visit])
    (visits : List (Visit V)) :
    (visits.flatMap (exchanges document)).filterMap read = visits.map single := by
  induction visits with
  | nil => rfl
  | cons visit rest ih =>
      rw [List.flatMap_cons, List.filterMap_append, reads, ih]
      rfl

section Visits

variable (document : Document) (visits : List (Visit V))

theorem awaited_exchanges : (visits.flatMap (exchanges document)).filterMap Exchange.awaited? =
    (visits.map position).map (·.handle) := by
  rw [filterMap_exchanges fun _ => rfl, List.map_map]
  rfl

theorem delivery_exchanges : (visits.flatMap (exchanges document)).filterMap Exchange.delivery? =
    (visits.map position).map (·.delivery) := by
  rw [filterMap_exchanges fun _ => rfl, List.map_map]
  rfl

theorem outcome_exchanges : (visits.flatMap (exchanges document)).filterMap Exchange.outcome? =
    (visits.map position).map (·.outcome) := by
  rw [filterMap_exchanges fun _ => rfl, List.map_map]
  rfl

theorem ran_exchanges : (visits.flatMap (exchanges document)).filterMap Exchange.ran? =
    (visits.map position).filterMap (Position.run? document) := by
  rw [filterMap_exchanges fun _ => rfl, List.filterMap_map, ← List.filterMap_eq_map]
  rfl

end Visits

/-- Positions that were seen as they are come first among those that are given. -/
theorem prefix_of_seen {visits : List (Visit V)} {positions : List (Position V)}
    (handles : (visits.map position).map (·.handle) <+: positions.map (·.handle))
    (deliveries : (visits.map position).map (·.delivery) <+: positions.map (·.delivery))
    (outcomes : (visits.map position).map (·.outcome) <+: positions.map (·.outcome)) :
    visits.map position <+: positions := by
  induction visits generalizing positions with
  | nil => exact List.nil_prefix
  | cons visit rest ih =>
      cases positions with
      | nil => simp at handles
      | cons given others =>
          simp only [List.map_cons, List.cons_prefix_cons] at handles deliveries outcomes ⊢
          obtain ⟨handle, handles⟩ := handles
          obtain ⟨delivery, deliveries⟩ := deliveries
          obtain ⟨outcome, outcomes⟩ := outcomes
          obtain ⟨_, _, _⟩ := given
          subst handle delivery outcome
          exact ⟨rfl, ih handles deliveries outcomes⟩

end Visit

namespace FailedVisit

variable {document : Document} {handle : Handle} {ending : List (Exchange V)} {failure : Failure}

/-- A position that bears out a visit that failed is one that fails so. -/
theorem fails (failed : FailedVisit document handle ending failure) {position : Position V}
    (same : position.handle = handle) {deliveries : List (Except Failure V)}
    {outcomes : List (Except Failure (List Diagnostic))}
    (delivered : ending.filterMap Exchange.delivery? <+: position.delivery :: deliveries)
    (told : ending.filterMap Exchange.outcome? <+: position.outcome :: outcomes) :
    position.failure? = some failure ∧
      ending.filterMap Exchange.awaited? = [position.handle] ∧
      ending.filterMap Exchange.ran? = [position].filterMap (Position.run? document) := by
  obtain ⟨_, delivery, outcome⟩ := position
  subst same
  cases failed with
  | undelivered settings failure =>
      obtain rfl : Except.error failure = delivery := (List.cons_prefix_cons.mp delivered).1
      exact ⟨rfl, rfl, rfl⟩
  | raised settings validator raised =>
      obtain rfl : Except.ok validator = delivery := (List.cons_prefix_cons.mp delivered).1
      obtain rfl : Except.error raised = outcome := (List.cons_prefix_cons.mp told).1
      exact ⟨rfl, rfl, rfl⟩

/-- There is a position that bears out a visit that failed. -/
theorem exists_position (failed : FailedVisit document handle ending failure) :
    ∃ position : Position V, position.handle = handle ∧
      ending.filterMap Exchange.delivery? = [position.delivery] ∧
      ending.filterMap Exchange.outcome? <+: [position.outcome] := by
  cases failed with
  | undelivered settings failure =>
      exact ⟨⟨handle, .error failure, .ok []⟩, rfl, rfl, List.nil_prefix⟩
  | raised settings validator raised =>
      exact ⟨⟨handle, .ok validator, .error raised⟩, rfl, rfl, List.prefix_rfl⟩

end FailedVisit

section Visited

variable {document : Document} {generation : Generation} {own : List (Exchange V)}
  {found : Except Failure (List Violation)}

theorem Visited.borne (visited : Visited document generation.handles own found) :
    ∃ positions, Bears generation positions own := by
  cases found with
  | ok violations =>
      obtain ⟨visits, rfl, handles, -⟩ := visited
      refine ⟨visits.map Visit.position, ?_, ?_, ?_⟩
      · rw [← handles, List.map_map]
        rfl
      · exact (Visit.delivery_exchanges document visits).symm ▸ List.prefix_rfl
      · exact (Visit.outcome_exchanges document visits).symm ▸ List.prefix_rfl
  | error failure =>
      obtain ⟨visits, failing, others, ending, rfl, handles, failed⟩ := visited
      obtain ⟨position, same, delivered, told⟩ := failed.exists_position
      -- Behind the failure anything will do.
      refine ⟨visits.map Visit.position ++
        position :: others.map (⟨·, .error failure, .ok []⟩), ?_, ?_, ?_⟩
      · rw [← handles, ← same]
        simp [Visit.position, Function.comp_def]
      · rw [List.filterMap_append, Visit.delivery_exchanges, delivered, List.map_append,
          List.prefix_append_right_inj, List.map_cons]
        exact ⟨_, rfl⟩
      · rw [List.filterMap_append, Visit.outcome_exchanges, List.map_append,
          List.prefix_append_right_inj, List.map_cons]
        exact told.trans ⟨_, rfl⟩

theorem Visited.failsFast (visited : Visited document generation.handles own found)
    {positions : List (Position V)} (borne : Bears generation positions own) :
    FailsFast document generation.number positions own
      (found.map fun violations => .report ⟨violations, some generation.number⟩) := by
  obtain ⟨handles, deliveries, outcomes⟩ := borne
  cases found with
  | ok violations =>
      obtain ⟨visits, rfl, visited, rfl⟩ := visited
      rw [Visit.delivery_exchanges] at deliveries
      rw [Visit.outcome_exchanges] at outcomes
      have seen : (visits.map Visit.position).map (·.handle) = positions.map (·.handle) := by
        rw [handles, ← visited, List.map_map]
        rfl
      have known := Visit.prefix_of_seen (seen ▸ List.prefix_rfl) deliveries outcomes
      have length := congrArg List.length seen
      simp only [List.length_map] at length
      obtain rfl : visits.map Visit.position = positions :=
        known.eq_of_length (by simpa using length)
      constructor
      case reported =>
        intro _
        refine ⟨?_, Visit.awaited_exchanges document visits, Visit.ran_exchanges document visits⟩
        rw [List.flatMap_map]
        rfl
      case failed =>
        intro before position after failure split _ fails
        have member : position ∈ visits.map Visit.position := by simp [split]
        rw [Visit.fine_of_visited member] at fails
        cases fails
  | error failure =>
      obtain ⟨visits, failing, others, ending, rfl, visited, failed⟩ := visited
      rw [List.filterMap_append, Visit.delivery_exchanges] at deliveries
      rw [List.filterMap_append, Visit.outcome_exchanges] at outcomes
      have seen : (visits.map Visit.position).map (·.handle) <+: positions.map (·.handle) := by
        rw [handles, ← visited, List.map_map]
        exact ⟨_, rfl⟩
      obtain ⟨rest, rfl⟩ := Visit.prefix_of_seen seen
        ((List.prefix_append _ _).trans deliveries) ((List.prefix_append _ _).trans outcomes)
      rw [List.map_append, List.prefix_append_right_inj] at deliveries outcomes
      have remaining : rest.map (·.handle) = failing :: others := by
        rw [← visited, List.map_append, List.map_map] at handles
        exact List.append_cancel_left handles
      obtain ⟨position, after, rfl, same, -⟩ := List.map_eq_cons_iff.mp remaining
      obtain ⟨fails, awaited, ran⟩ := failed.fails same deliveries outcomes
      constructor
      case reported =>
        intro fine
        rw [fine position (by simp)] at fails
        cases fails
      case failed =>
        intro before other later raised split fine raises
        obtain ⟨rfl, rfl⟩ := first_failing_unique (fun _ => Visit.fine_of_visited) fails fine
          raises split
        obtain rfl := Option.some.inj (fails.symm.trans raises)
        refine ⟨rfl, ?_, ?_⟩
        · rw [List.filterMap_append, Visit.awaited_exchanges, awaited, List.map_append]
          rfl
        · rw [List.filterMap_append, Visit.ran_exchanges, ran, List.filterMap_append]

end Visited

namespace System

structure EvaluatesInOrder (document : Document) (settings : Evaluation) (generation : Generation)
    (own : List (Exchange V)) (start : System V) (moves : List (Move V)) (last : System V)
    (index : Nat) (result : Result V) : Prop where
  current : ∃ cut : Cut start moves last ⟨index, .snapshot, generation⟩,
    cut.moment.state.generation = generation
  does : exchangesOf index (start.trace moves) =
    ⟨.evaluation, settings⟩ :: ⟨.snapshot, generation⟩ :: own
  delivers : ∀ handle limit reply, ⟨.await handle limit, reply⟩ ∈ own →
    ∃ cut : Cut start moves last ⟨index, .await handle limit, reply⟩,
      (∃ outcome, cut.moment.state.condition handle = .resolved outcome ∧
        reply = outcome.result handle) ∨
      ((cut.moment.state.condition handle).isResolved = false ∧ limit ≠ .unlimited ∧
        reply = .error (.timeout handle.source.toString limit))
  borne : ∃ positions, Bears generation positions own
  failsFast : ∀ positions, Bears generation positions own →
    FailsFast document generation.number positions own result

section Runs

variable {pool : Pool} {evaluation : Evaluation} {moves : List (Move V)} {last : System V}
  {index : Nat}

/-- An evaluation of a document that applies goes through a generation up to the first failure. -/
theorem evaluation_fails_fast (reached : (initial pool evaluation : System V).run moves = some last)
    {document : Document} {program : Program V (Result V)}
    (found : last.threads[index]? = some ⟨.call (.evaluate document), program⟩)
    {settings : Evaluation}
    (judged : (exchangesOf index ((initial pool evaluation).trace moves)).head? =
      some ⟨.evaluation, settings⟩)
    (applies : settings.applies document = true) :
    (∃ more final, last.run more = some final ∧ LetsGoOn more ∧
      final.EndsOrWaits index (.evaluate document)) ∧
    ∀ result, program = .done result → ∃ generation own,
      EvaluatesInOrder document settings generation own (initial pool evaluation) moves last index
        result := by
  refine ⟨evaluation_ends_or_waits reached rfl found, ?_⟩
  rintro result rfl
  obtain ⟨generation, own, outcome, does, visited, rfl, current⟩ :=
    visitsCurrent_of_run reached found judged applies
  refine ⟨generation, own, current, does, ?_, visited.borne, fun _ => visited.failsFast⟩
  intro handle limit reply asked
  have done : ⟨.await handle limit, reply⟩ ∈
      exchangesOf index ((initial pool evaluation : System V).trace moves) := by
    rw [does]
    exact List.mem_cons_of_mem _ (List.mem_cons_of_mem _ asked)
  obtain ⟨cut⟩ := cut_of_mem reached (mem_exchangesOf.mp done)
  exact ⟨cut, cut.answer.awaited⟩

def impatient : List (Move Unit) :=
  -- Of three rule sets only the first is compiled in time.
  [.call .start, .advance 0,
    .call (.configure ⟨default, fun _ => none⟩ none
      [.resolved default, .resolved default, .resolved default]),
    .advance 1, .advance 1, .advance 1, .advance 1, .advance 1, .advance 1, .advance 1,
    .advance 1, .advance 1,
    .take 0, .begin 0 ⟨0, default, 1⟩, .advance 2, .compiled 2 (.ok ()) [], .advance 2,
    .call (.evaluate ⟨some [.ofNat 60], none, none, "metadata"⟩),
    .advance 3, .advance 3, .advance 3, .advance 3,
    .ran 3 (.ok [⟨Text.ofString "unknown code", .error, .assert, none, none⟩]),
    .advance 3, .expire 3]

theorem impatient_fails_fast :
    ∃ last own, (initial ⟨1, [], none, [], none⟩ ⟨none, .seconds 60⟩).run impatient = some last ∧
      EvaluatesInOrder ⟨some [.ofNat 60], none, none, "metadata"⟩ ⟨none, .seconds 60⟩
        ⟨1, [default, default, default], [⟨0, default, 1⟩, ⟨1, default, 1⟩, ⟨2, default, 1⟩]⟩ own
        (initial ⟨1, [], none, [], none⟩ ⟨none, .seconds 60⟩) impatient last 3
        (.error (.timeout (default : RuleSource).toString (.seconds 60))) ∧
      own.filterMap Exchange.awaited? = [⟨0, default, 1⟩, ⟨1, default, 1⟩] ∧
      own.filterMap Exchange.ran? = [((), ⟨some [.ofNat 60], none, none, "metadata"⟩)] := by
  obtain ⟨last, reached⟩ : ∃ last, (initial ⟨1, [], none, [], none⟩ ⟨none, .seconds 60⟩).run
      impatient = some last := ⟨_, rfl⟩
  have found : last.threads[3]? =
      some ⟨.call (.evaluate ⟨some [.ofNat 60], none, none, "metadata"⟩),
        .done (.error (.timeout (default : RuleSource).toString (.seconds 60)))⟩ := by
    cases reached
    rfl
  have judged : (exchangesOf 3 ((initial ⟨1, [], none, [], none⟩ ⟨none, .seconds 60⟩).trace
      impatient)).head? = some ⟨.evaluation, ⟨none, .seconds 60⟩⟩ := rfl
  obtain ⟨-, folds⟩ := evaluation_fails_fast reached found judged (by decide)
  obtain ⟨generation, own, evaluates⟩ := folds _ rfl
  cases evaluates.does
  exact ⟨last, _, reached, evaluates, rfl, rfl⟩

end Runs

end System

end Schematron.Engine

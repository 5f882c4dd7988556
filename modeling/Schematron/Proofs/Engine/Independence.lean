import Schematron.Engine.Schedule
import Schematron.Proofs.Engine.Containment
import Schematron.Proofs.Sequence

/-!
Independence: what does not depend on the schedule. Main statement: as long as every job finishes
and nobody withdraws anything or loses patience, how rule sets compile and what an evaluation comes
to are the same in all runs, with however many workers, and follow from the sources in their order.
-/

namespace Schematron.Engine

open Program

variable {V : Type}

def standIn (source : RuleSource) : Handle := ⟨0, source, 0⟩

namespace World

variable {world : World V} {document : Document}

def outcome (world : World V) (source : RuleSource) : Option (Outcome V) :=
  Outcome.ofCompiled (standIn source) (world.compile source).1

def condition (world : World V) (source : RuleSource) : Condition V :=
  (world.outcome source).elim .running .resolved

def visit (world : World V) (document : Document) (source : RuleSource) :
    Option (Except Failure (List Violation)) :=
  (world.outcome source).map fun outcome => do
    let validator ← outcome.result (standIn source)
    match world.run validator document with
    | .error failure => .error (executionFailure (standIn source) failure)
    | .ok diagnostics => .ok (diagnostics.map (Violation.ofDiagnostic document.contentAttribute))

def visitAll (world : World V) (document : Document) :
    List RuleSource → Option (Except Failure (List Violation))
  | [] => some (.ok [])
  | source :: rest =>
      match world.visit document source with
      | none => none
      | some (.error failure) => some (.error failure)
      | some (.ok found) => (world.visitAll document rest).map (·.map (found ++ ·))

def report (world : World V) (filter : Option String) (document : Document)
    (sources : List RuleSource) (number : Int) : Option (Except Failure Report) :=
  if (⟨filter, .unlimited⟩ : Evaluation).applies document then
    (world.visitAll document sources).map (·.map fun violations => ⟨violations, some number⟩)
  else some (.ok .empty)

theorem ofCompiled_eq (world : World V) (handle : Handle) :
    Outcome.ofCompiled handle (world.compile handle.source).1 = world.outcome handle.source := by
  cases compiled : (world.compile handle.source).1 with
  | ok validator => simp [outcome, compiled, Outcome.ofCompiled]
  | error failure => cases failure <;> simp [outcome, compiled, Outcome.ofCompiled, standIn]

theorem result_eq {handle : Handle} {outcome : Outcome V}
    (comes : world.outcome handle.source = some outcome) :
    outcome.result handle = outcome.result (standIn handle.source) := by
  -- Only what was superseded tells of a generation, and no compilation comes to that.
  have ends : Condition.Ends (standIn handle.source) (world.compile handle.source).1
      (.resolved outcome) := Condition.ends_of_eq_some comes
  generalize (world.compile handle.source).1 = result at ends
  cases ends <;> rfl

/-- The failure of several rule sets is that of the first that fails, in their order. -/
theorem visitAll_eq_error {sources : List RuleSource} {failure : Failure}
    (failed : world.visitAll document sources = some (.error failure)) :
    ∃ before source after, sources = before ++ source :: after ∧
      (∀ earlier ∈ before, ∃ found, world.visit document earlier = some (.ok found)) ∧
      world.visit document source = some (.error failure) := by
  induction sources with
  | nil => cases failed
  | cons source rest ih =>
      rw [visitAll] at failed
      split at failed
      next => cases failed
      next raised fails =>
        cases failed
        exact ⟨[], source, rest, rfl, by simp, fails⟩
      next found fine =>
        cases others : world.visitAll document rest with
        | none => simp [others] at failed
        | some outcome =>
            cases outcome with
            | ok violations => simp [others, Except.map] at failed
            | error raised =>
                simp only [others, Option.map_some, Except.map, Option.some.injEq,
                  Except.error.injEq] at failed
                subst failed
                obtain ⟨before, failing, after, rfl, earlier, fails⟩ := ih others
                exact ⟨source :: before, failing, after, rfl,
                  List.forall_mem_cons.mpr ⟨⟨found, fine⟩, earlier⟩, fails⟩

theorem report_eq_error {filter : Option String} {sources : List RuleSource} {number : Int}
    {failure : Failure}
    (failed : world.report filter document sources number = some (.error failure)) :
    world.visitAll document sources = some (.error failure) := by
  unfold report at failed
  split at failed
  next =>
    cases visited : world.visitAll document sources with
    | none => simp [visited] at failed
    | some found =>
        cases found with
        | ok violations => simp [visited, Except.map] at failed
        | error raised =>
            simp only [visited, Option.map_some, Except.map, Option.some.injEq,
              Except.error.injEq] at failed
            rw [failed]
  next => cases failed

def Tells (world : World V) (handles : List Handle) : Exchange V → Prop
  | ⟨.await handle _, reply⟩ => handle ∈ handles →
      ∃ outcome, world.outcome handle.source = some outcome ∧ reply = outcome.result handle
  | ⟨.run validator document, reply⟩ => reply = world.run validator document
  | _ => True

section Tells

variable {handles : List Handle}

theorem visit_of_tells {visit : Visit V} (included : visit.handle ∈ handles)
    (tells : ∀ exchange ∈ visit.exchanges document, world.Tells handles exchange) :
    world.visit document visit.handle.source = some (.ok (visit.violations document)) := by
  obtain ⟨outcome, comes, delivered⟩ :=
    tells ⟨.await visit.handle visit.evaluation.patience, .ok visit.validator⟩
      (by simp [Visit.exchanges]) included
  have ran : .ok visit.diagnostics = world.run visit.validator document :=
    tells ⟨.run visit.validator document, .ok visit.diagnostics⟩ (by simp [Visit.exchanges])
  rw [result_eq comes] at delivered
  simp [World.visit, comes, ← delivered, ← ran, Visit.violations, Violation.ofDiagnostic,
    Bind.bind, Except.bind]

theorem failedVisit_of_tells {handle : Handle} {ending : List (Exchange V)} {failure : Failure}
    (fails : FailedVisit document handle ending failure) (included : handle ∈ handles)
    (tells : ∀ exchange ∈ ending, world.Tells handles exchange) :
    world.visit document handle.source = some (.error failure) := by
  cases fails with
  | undelivered settings failure =>
      obtain ⟨outcome, comes, delivered⟩ :=
        tells ⟨.await handle settings.patience, .error failure⟩ (by simp) included
      rw [result_eq comes] at delivered
      simp [World.visit, comes, ← delivered, Bind.bind, Except.bind]
  | raised settings validator failure =>
      obtain ⟨outcome, comes, delivered⟩ :=
        tells ⟨.await handle settings.patience, .ok validator⟩ (by simp) included
      have ran : .error failure = world.run validator document :=
        tells ⟨.run validator document, .error failure⟩ (by simp)
      rw [result_eq comes] at delivered
      simp only [World.visit, comes, Option.map_some, ← delivered, ← ran, Bind.bind, Except.bind]
      rfl

/-- What was visited is found, whatever comes of the rest. -/
theorem visitAll_of_tells {visits : List (Visit V)} (rest : List RuleSource)
    (included : ∀ visit ∈ visits, visit.handle ∈ handles)
    (tells : ∀ exchange ∈ visits.flatMap (Visit.exchanges document),
      world.Tells handles exchange) :
    world.visitAll document (visits.map (·.handle.source) ++ rest) =
      (world.visitAll document rest).map
        (·.map (visits.flatMap (Visit.violations document) ++ ·)) := by
  induction visits with
  | nil =>
      rw [List.map_nil, List.nil_append, List.flatMap_nil]
      rcases world.visitAll document rest with _ | _ | _ <;> rfl
  | cons visit visits ih =>
      rw [List.flatMap_cons, List.forall_mem_append] at tells
      rw [List.forall_mem_cons] at included
      rw [List.map_cons, List.cons_append, visitAll, visit_of_tells included.1 tells.1,
        ih included.2 tells.2, List.flatMap_cons]
      rcases world.visitAll document rest with _ | _ | _ <;> simp [Except.map]

theorem visited_of_tells {own : List (Exchange V)} {found : Except Failure (List Violation)}
    (visited : Visited document handles own found)
    (tells : ∀ exchange ∈ own, world.Tells handles exchange) :
    world.visitAll document (handles.map (·.source)) = some found := by
  cases found with
  | ok violations =>
      obtain ⟨visits, rfl, rfl, rfl⟩ := visited
      have all := visitAll_of_tells [] (fun visit member => List.mem_map_of_mem member) tells
      simpa [visitAll, Except.map, Function.comp_def] using all
  | error failure =>
      obtain ⟨visits, failing, others, ending, rfl, rfl, fails⟩ := visited
      rw [List.forall_mem_append] at tells
      have before := visitAll_of_tells (failing.source :: others.map (·.source))
        (fun visit member => List.mem_append_left _ (List.mem_map_of_mem member)) tells.1
      have failed := failedVisit_of_tells fails
        (List.mem_append_right _ List.mem_cons_self) tells.2
      simpa [visitAll, failed, Except.map, Function.comp_def] using before

end Tells

end World

/-! Where an evaluation stands -/

-- An evaluation waits for a handle once it is through with those before it.
def inOrder (document : Document) : Rule V := fun past instruction =>
  match instruction with
  | .await handle _ => ∃ (settings : Evaluation) (generation : Generation)
      (visits : List (Visit V)) (judged : Evaluation) (others : List Handle),
      past = ⟨.evaluation, settings⟩ :: ⟨.snapshot, generation⟩ ::
        (visits.flatMap (Visit.exchanges document) ++ [⟨.evaluation, judged⟩]) ∧
      settings.applies document = true ∧
      visits.map (·.handle) ++ handle :: others = generation.handles
  | _ => True

theorem runAll_inOrder {document : Document} {settings : Evaluation} {generation : Generation}
    (applies : settings.applies document = true) (visits : List (Visit V)) {handles : List Handle}
    (whole : visits.map (·.handle) ++ handles = generation.handles) :
    (runAll document handles).Keeps (inOrder document) (fun _ _ => True)
      (⟨.evaluation, settings⟩ :: ⟨.snapshot, generation⟩ ::
        visits.flatMap (Visit.exchanges document)) := by
  induction handles generalizing visits with
  | nil => trivial
  | cons handle rest ih =>
      refine ⟨trivial, fun judged _ => ⟨?_, fun delivered _ => ?_⟩⟩
      · exact ⟨settings, generation, visits, judged, rest, rfl, applies, whole⟩
      cases delivered with
      | error failure => trivial
      | ok validator =>
          refine ⟨trivial, fun found _ => ?_⟩
          cases found with
          | error failure => trivial
          | ok diagnostics =>
              simp only [Program.bind, keeps_bind]
              have later := ih (visits ++ [⟨handle, judged, validator, diagnostics⟩])
                (by simpa using whole)
              simp only [List.flatMap_append, List.flatMap_cons, List.flatMap_nil,
                List.append_nil, Visit.exchanges] at later
              simp only [List.cons_append, List.append_assoc, List.nil_append]
              exact later.mono fun _ _ _ => trivial

theorem evaluate_inOrder (document : Document) :
    ((Call.evaluate document).program : Program V (Result V)).Keeps (inOrder document)
      (fun _ _ => True) [] := by
  simp only [Call.program, evaluate, keeps_bind]
  refine ⟨trivial, fun settings _ => ?_⟩
  simp only [Keeps]
  split
  next applies =>
    simp only [snapshot, keeps_bind]
    refine ⟨trivial, fun generation _ => ?_⟩
    exact (runAll_inOrder applies [] rfl).mono fun _ _ _ => trivial
  next => trivial

/-! What configuring comes to -/

/-- The sources of a new generation are those that it was asked for. -/
theorem replaceGeneration_publishes (sources : List RuleSource) (past : List (Exchange V)) :
    (replaceGeneration sources).Keeps anything (fun later found => ∀ number, found = .ok number →
      ∃ handles, ⟨.publish ⟨number, sources, handles⟩, ()⟩ ∈ later) past := by
  simp only [replaceGeneration, keeps_bind]
  refine ⟨trivial, fun replaced _ => ?_⟩
  refine ((submitAll (replaced.number + 1) sources).keeps_past _).mono ?_
  rintro _ ⟨handles, refusal⟩ ⟨submitting, rfl⟩
  cases refusal with
  | some failure =>
      simp only [keeps_bind]
      refine ((resolveAll .cancelled handles).keeps_past _).mono fun later _ _ => ?_
      refine ⟨trivial, fun _ _ number same => ?_⟩
      cases same
  | none =>
      simp only [keeps_bind]
      refine ⟨trivial, fun _ _ => ((watchAll handles).keeps_past _).mono ?_⟩
      rintro _ _ ⟨watching, rfl⟩
      refine ((resolveAll .superseded replaced.handles).keeps_past _).mono ?_
      rintro _ count ⟨asking, rfl⟩
      refine ((note _).keeps_past _).mono ?_
      rintro _ _ ⟨noting, rfl⟩ number same
      cases same
      exact ⟨handles, by simp⟩

theorem configure_publishes {surroundings : Surroundings} {base : Option String}
    {locations : List RuleLocation} {sources : List RuleSource}
    (resolved : RuleLocation.resolveAll surroundings base locations = .ok sources) :
    ((Call.configure surroundings base locations).program : Program V (Result V)).Keeps anything
      (fun past result => ∀ number, result = .ok (.number number) →
        ∃ handles, ⟨.publish ⟨number, sources, handles⟩, ()⟩ ∈ past) [] := by
  simp only [Call.program, configure, resolved, keeps_bind]
  refine (replaceGeneration_publishes sources []).mono fun past found publishes number same => ?_
  cases found with
  | error failure => cases same
  | ok given =>
      cases same
      exact publishes number rfl

namespace System

section Runs

variable {workers : Int} {pool : Pool} {evaluation : Evaluation} {moves : List (Move V)}
  {last : System V}

/-- Once nobody is inside a compilation any more, everything that was handed in has resolved, or
runs on because the failure of its compilation could not be written. -/
theorem Settled.ends_of_finished (settled : last.Settled)
    (finished : ∀ executor, last.compiling executor = [])
    (created : Pool.create? workers = .ok pool)
    (reached : (initial pool evaluation).run moves = some last) {handle : Handle}
    (submitted : handle ∈ submittedIn (exchanges ((initial pool evaluation).trace moves))) :
    (∃ outcome, last.state.condition handle = .resolved outcome) ∨
      last.state.condition handle = .running ∧
        ∃ index reply, ⟨index, .compile handle, reply⟩ ∈ (initial pool evaluation).trace moves ∧
          Outcome.ofCompiled handle reply.1 = none := by
  cases condition : last.state.condition handle with
  | resolved outcome => exact .inl ⟨outcome, rfl⟩
  | pending =>
      obtain ⟨executor, -, busy⟩ := settled.workers_busy created reached submitted condition
      rw [finished executor] at busy
      simp only [Pool.create?] at created
      split at created
      next => cases created
      next positive =>
        cases created
        simp only [List.length_nil] at busy
        omega
  | running =>
      obtain ⟨index, target, same, executor, program, found⟩ := works_of_running reached condition
      cases program with
      | step instruction rest =>
          have waits := settled.waits found
          have rule := (thread_keeps reached found (duty_keeps (.job executor target))).1
          cases waits with
          | compiler inside =>
              obtain rfl : inside = target := rule.1
              have compiling : inside ∈ last.compiling executor :=
                List.mem_filterMap.mpr ⟨_, List.mem_of_getElem? found, by
                  simp [Thread.compiling?, Thread.head?, Thread.begun?]⟩
              rw [finished executor] at compiling
              cases compiling
          | _ => exact rule.elim
      | done result =>
          have sound := sound_of_run created reached
          have works : last.Works index target := ⟨executor, _, found⟩
          have made := (submittedIn_sublist_madeIn _).subset submitted
          obtain rfl := sound.eq_of_id_eq (sound.begun index target works).1 made same
          obtain ⟨compiled, single, delivers⟩ :=
            thread_keeps reached found (job_delivers executor target)
          have member : compiled ∈
              compiledIn target (exchangesOf index ((initial pool evaluation).trace moves)) := by
            rw [single]
            exact List.mem_singleton_self compiled
          obtain ⟨reply, happened, rfl⟩ := compiled_of_worker reached works member
          cases ended : Outcome.ofCompiled target reply.1 with
          | none => exact .inr ⟨rfl, index, reply, happened, ended⟩
          | some outcome =>
              obtain ⟨answer, asked⟩ := delivers outcome ended
              have resolved := resolved_of_delivered created reached works (mem_exchangesOf.mp asked)
              rw [condition] at resolved
              cases resolved

/-! Which generation is which -/

theorem successiveNumbers_nodup (count : Nat) : (0 :: successiveNumbers count).Nodup := by
  have positive (before : Nat) : (before : Int) + 1 ≠ 0 := by omega
  have injective : Function.Injective fun before : Nat => (before : Int) + 1 := by
    intro first second same
    have same : (first : Int) + 1 = second + 1 := same
    omega
  refine List.nodup_cons.mpr ⟨?_, List.nodup_range.map injective⟩
  intro member
  obtain ⟨before, -, same⟩ := List.mem_map.mp member
  exact positive before same

/-- Generations are known by their numbers. -/
theorem eq_of_number_eq (reached : (initial pool evaluation : System V).run moves = some last)
    {generation other : Generation}
    (member : generation ∈ .initial ::
      publishedIn (exchanges ((initial pool evaluation).trace moves)))
    (also : other ∈ .initial :: publishedIn (exchanges ((initial pool evaluation).trace moves)))
    (same : generation.number = other.number) : generation = other := by
  have distinct : ((.initial :: publishedIn
      (exchanges ((initial pool evaluation : System V).trace moves))).map (·.number)).Nodup := by
    rw [List.map_cons, (registered_of_run reached).numbers]
    exact successiveNumbers_nodup _
  exact List.inj_on_of_nodup_map distinct member also same

theorem number_le_of_run {middle : System V} {later : List (Move V)}
    (reached : (initial pool evaluation).run moves = some middle)
    (continued : middle.run later = some last) :
    middle.state.generation.number ≤ last.state.generation.number := by
  have whole := (run_join reached continued).1
  rw [(registered_of_run reached).number_eq, (registered_of_run whole).number_eq,
    trace_append reached, exchanges_append, publishedIn_append, List.length_append]
  omega

theorem number_le_of_published
    (reached : (initial pool evaluation : System V).run moves = some last) {generation : Generation}
    (published : generation ∈ publishedIn (exchanges ((initial pool evaluation).trace moves))) :
    generation.number ≤ last.state.generation.number := by
  have registered := registered_of_run reached
  have member : generation.number ∈
      (publishedIn (exchanges ((initial pool evaluation).trace moves))).map (·.number) :=
    List.mem_map_of_mem published
  rw [registered.numbers, successiveNumbers] at member
  obtain ⟨before, below, same⟩ := List.mem_map.mp member
  have below := List.mem_range.mp below
  rw [registered.number_eq]
  omega

/-! Runs that nothing disturbs -/

def Permits (world : World V) (system : System V) : Event V → Prop
  -- Compilations and validators give what the world has, no wait times out, and nobody but
  -- workers resolves anything.
  | ⟨_, .compile handle, reply⟩ => reply.1 = (world.compile handle.source).1
  | ⟨_, .run validator document, reply⟩ => reply = world.run validator document
  | ⟨_, .await handle limit, reply⟩ => reply ≠ .error (.timeout handle.source.toString limit)
  | ⟨index, .resolve _ _, some _⟩ => ∃ handle, system.Works index handle
  | _ => True

variable {world : World V}

theorem outcome_of_permits (created : Pool.create? workers = .ok pool)
    (reached : (initial pool evaluation).run moves = some last)
    (permits : ∀ event ∈ (initial pool evaluation).trace moves, Permits world last event)
    {handle : Handle} (made : handle ∈ madeIn (exchanges ((initial pool evaluation).trace moves)))
    {outcome : Outcome V} (resolved : last.state.condition handle = .resolved outcome) :
    world.outcome handle.source = some outcome := by
  cases origin_of_resolved created reached made resolved with
  | withdrawn isSuperseded callbacks found same asked =>
      obtain ⟨target, executor, program, held⟩ := permits _ asked
      rw [found] at held
      cases held
  | compiled reply works compiled ended =>
      have given : reply.1 = (world.compile handle.source).1 := permits _ compiled
      rw [given, world.ofCompiled_eq] at ended
      exact ended

theorem tells_of_permits (created : Pool.create? workers = .ok pool)
    (reached : (initial pool evaluation).run moves = some last)
    (permits : ∀ event ∈ (initial pool evaluation).trace moves, Permits world last event)
    {handles : List Handle}
    (made : handles.Sublist (madeIn (exchanges ((initial pool evaluation).trace moves))))
    {index : Nat} {exchange : Exchange V}
    (done : exchange ∈ exchangesOf index ((initial pool evaluation).trace moves)) :
    world.Tells handles exchange := by
  obtain ⟨instruction, reply⟩ := exchange
  have permitted := permits _ (mem_exchangesOf.mp done)
  cases instruction with
  | run validator document => exact permitted
  | await handle limit =>
      intro included
      rcases told_of_awaited reached (mem_exchangesOf.mp done) with ⟨outcome, resolved, told⟩ |
        ⟨-, told⟩
      · exact ⟨outcome, outcome_of_permits created reached permits (made.subset included) resolved,
          told⟩
      · exact absurd told permitted
  | _ => trivial

theorem applies_of_judged {filter : Option String}
    (filtered : Throughout (fun settings => settings.filter = filter) evaluation moves)
    (reached : (initial pool evaluation : System V).run moves = some last) {index : Nat}
    {settings : Evaluation}
    (judged : ⟨.evaluation, settings⟩ ∈
      exchangesOf index ((initial pool evaluation).trace moves)) (document : Document) :
    settings.applies document = (⟨filter, .unlimited⟩ : Evaluation).applies document := by
  rw [← settings_of_judged filtered reached judged]
  rfl

theorem report_of_permits (created : Pool.create? workers = .ok pool)
    (reached : (initial pool evaluation).run moves = some last)
    (permits : ∀ event ∈ (initial pool evaluation).trace moves, Permits world last event)
    {filter : Option String}
    (filtered : Throughout (fun settings => settings.filter = filter) evaluation moves)
    {index : Nat} {document : Document} {found : Except Failure Report}
    (evaluated : Evaluated document
      (exchangesOf index ((initial pool evaluation).trace moves)) found)
    {generation : Generation}
    (orderly : generation.IsOrderly (madeIn (exchanges ((initial pool evaluation).trace moves))))
    (sees : ∀ seen, ⟨index, .snapshot, seen⟩ ∈ (initial pool evaluation).trace moves →
      seen = generation) :
    world.report filter document generation.sources generation.number = some found := by
  obtain ⟨settings, rest, own, comes⟩ := evaluated
  have judged : ⟨.evaluation, settings⟩ ∈
      exchangesOf index ((initial pool evaluation).trace moves) := by simp [own]
  rw [World.report, ← applies_of_judged filtered reached judged document]
  split at comes
  next applies =>
    obtain ⟨taken, visiting, outcome, rfl, visited, ended⟩ := comes
    obtain rfl := sees taken (mem_exchangesOf.mp (by simp [own]))
    have tells (exchange : Exchange V) (member : exchange ∈ visiting) :
        world.Tells taken.handles exchange :=
      tells_of_permits created reached permits orderly.made (by rw [own]; simp [member])
    rw [if_pos applies, ended, ← orderly.corresponds, World.visited_of_tells visited tells,
      Option.map_some]
  next skipped =>
    rw [if_neg skipped, comes.2]

end Runs

/-- A run, with any number of workers and in any order, that configures sources, evaluates a
document after that, and comes to its end with nothing to disturb it. -/
structure Trial (world : World V) (filter : Option String) (sources : List RuleSource)
    (number : Int) (document : Document) where
  workers : Int
  pool : Pool
  created : Pool.create? workers = .ok pool
  evaluation : Evaluation
  early : List (Move V)
  middle : System V
  reached : (initial pool evaluation).run early = some middle
  configurer : Nat
  surroundings : Surroundings
  base : Option String
  locations : List RuleLocation
  located : RuleLocation.resolveAll surroundings base locations = .ok sources
  configured : middle.threads[configurer]? =
    some ⟨.call (.configure surroundings base locations), .done (.ok (.number number))⟩
  late : List (Move V)
  last : System V
  continued : (middle.asked (.evaluate document)).run late = some last
  current : last.state.generation.number = number
  filtered : Throughout (fun settings => settings.filter = filter) evaluation
    (early ++ .call (.evaluate document) :: late)
  permits : ∀ event ∈ (initial pool evaluation).trace (early ++ .call (.evaluate document) :: late),
    Permits world last event
  settled : last.Settled
  finished : ∀ executor, last.compiling executor = []

namespace Trial

variable {world : World V} {filter : Option String} {sources : List RuleSource} {number : Int}
  {document : Document} (trial : Trial world filter sources number document)

def conditions : List (Condition V) :=
  trial.last.state.generation.handles.map trial.last.state.condition

def result? : Option (Result V) := trial.last.result? trial.middle.threads.length

def moves : List (Move V) := trial.early ++ .call (.evaluate document) :: trial.late

def events : List (Event V) := (initial trial.pool trial.evaluation).trace trial.moves

theorem reaches : (initial trial.pool trial.evaluation).run trial.moves = some trial.last :=
  asked_of_run trial.reached trial.continued

theorem continues :
    trial.middle.run (.call (.evaluate document) :: trial.late) = some trial.last :=
  trial.continued

theorem events_eq : trial.events = (initial trial.pool trial.evaluation).trace trial.early ++
    trial.middle.trace (.call (.evaluate document) :: trial.late) :=
  trace_append trial.reached _

theorem published : ∃ handles, ⟨number, sources, handles⟩ ∈
    publishedIn (exchanges ((initial trial.pool trial.evaluation).trace trial.early)) := by
  obtain ⟨handles, done⟩ := thread_keeps trial.reached trial.configured
    (configure_publishes trial.located) number rfl
  refine ⟨handles, List.mem_filterMap.mpr
    ⟨⟨.publish ⟨number, sources, handles⟩, ()⟩, ?_, rfl⟩⟩
  exact (exchangesOf_sublist trial.configurer _).subset done

theorem number_le_middle : number ≤ trial.middle.state.generation.number := by
  obtain ⟨handles, published⟩ := trial.published
  exact number_le_of_published trial.reached published

theorem sources_eq : trial.last.state.generation.sources = sources := by
  obtain ⟨handles, published⟩ := trial.published
  have member : ⟨number, sources, handles⟩ ∈ publishedIn (exchanges trial.events) := by
    rw [trial.events_eq, exchanges_append, publishedIn_append]
    exact List.mem_append_left _ published
  have same := eq_of_number_eq trial.reaches (mem_published_of_current trial.reaches)
    (List.mem_cons_of_mem _ member) trial.current
  rw [same]

/-- The evaluation looks at the generation that was configured. -/
theorem sees_current {seen : Generation}
    (happened : ⟨trial.middle.threads.length, .snapshot, seen⟩ ∈ trial.events) :
    seen = trial.last.state.generation := by
  have unborn := exchangesOf_trace_eq_nil trial.reached
    (Nat.le_refl trial.middle.threads.length)
  have done := mem_exchangesOf.mpr happened
  rw [trial.events_eq, exchangesOf_append, unborn, List.nil_append] at done
  obtain ⟨cut⟩ := cut_of_mem trial.continues (mem_exchangesOf.mp done)
  have newer := number_le_of_run trial.reached cut.reached
  have older := number_le_of_run (run_join trial.reached cut.reached).1 cut.rest
  rw [cut.answer.snapshotted] at newer older
  refine eq_of_number_eq trial.reaches (mem_published_of_snapshot trial.reaches happened)
    (mem_published_of_current trial.reaches) ?_
  have first := trial.number_le_middle
  have last := trial.current
  omega

theorem orderly : trial.last.state.generation.IsOrderly (madeIn (exchanges trial.events)) :=
  (registered_of_run trial.reaches).isOrderly

theorem condition_eq {handle : Handle}
    (included : handle ∈ trial.last.state.generation.handles) :
    trial.last.state.condition handle = world.condition handle.source := by
  have submitted := submitted_of_published trial.reaches
    (mem_published_of_current trial.reaches) included
  rcases trial.settled.ends_of_finished trial.finished trial.created trial.reaches submitted with
    ⟨outcome, resolved⟩ | ⟨running, index, reply, compiled, unended⟩
  · have comes := outcome_of_permits trial.created trial.reaches trial.permits
      (trial.orderly.made.subset included) resolved
    rw [resolved, World.condition, comes]
    rfl
  · have given : reply.1 = (world.compile handle.source).1 := trial.permits _ compiled
    rw [given, world.ofCompiled_eq] at unended
    rw [running, World.condition, unended]
    rfl

theorem conditions_eq : trial.conditions = sources.map world.condition := by
  calc
    trial.conditions = trial.last.state.generation.handles.map fun handle =>
        world.condition handle.source :=
      List.map_congr_left fun handle included => trial.condition_eq included
    _ = (trial.last.state.generation.handles.map (·.source)).map world.condition := by
      rw [List.map_map]
      rfl
    _ = sources.map world.condition := by rw [trial.orderly.corresponds, trial.sources_eq]

/-- Two trials have come to the same. -/
structure Agree (first second : Trial world filter sources number document) : Prop where
  conditions : first.conditions = second.conditions
  results : first.result? = second.result?
  -- Each handle ends by its own source alone.
  determined : first.conditions = sources.map world.condition
  reported : first.result? = (world.report filter document sources number).map (·.map .report)
  -- The first failure counts in the order of the sources, not in that of the compilations.
  failed : ∀ failure, first.result? = some (.error failure) →
    ∃ before source after, sources = before ++ source :: after ∧
      (∀ earlier ∈ before, ∃ found, world.visit document earlier = some (.ok found)) ∧
      world.visit document source = some (.error failure)

end Trial

def refusing : World Unit where
  -- Two rule sets that both fail, each in its own way.
  compile source :=
    match source.path.parts with
    | [] => (.error (.foreign "KeyError" "boom"), [])
    | _ :: _ => (.error (.compilation (.missing source.toString)), [])
  run _ _ := .ok []

def configuringBoth : List (Move Unit) :=
  [.call .start, .advance 0,
    .call (.configure ⟨default, fun _ => none⟩ none
      [.resolved default, .resolved ⟨⟨.slash, ["b"]⟩⟩]),
    .advance 1, .advance 1, .advance 1, .advance 1, .advance 1, .advance 1, .advance 1]

def inTurn : List (Move Unit) :=
  -- One worker compiles one rule set after the other, and the evaluation comes last.
  [.take 0, .begin 0 ⟨0, default, 1⟩, .advance 3,
    .compiled 3 (.error (.foreign "KeyError" "boom")) [], .advance 3, .advance 3, .advance 3,
    .take 0, .begin 0 ⟨1, ⟨⟨.slash, ["b"]⟩⟩, 1⟩, .advance 4,
    .compiled 4 (.error (.compilation (.missing "/b"))) [],
    .advance 4, .advance 4, .advance 4,
    .advance 2, .advance 2, .advance 2, .advance 2]

def crossed : List (Move Unit) :=
  -- Two workers compile both, the second rule set is the first to fail, and the evaluation
  -- waits.
  [.advance 2, .advance 2, .advance 2, .take 0, .take 0, .begin 0 ⟨0, default, 1⟩,
    .begin 0 ⟨1, ⟨⟨.slash, ["b"]⟩⟩, 1⟩, .advance 4, .advance 3,
    .compiled 4 (.error (.compilation (.missing "/b"))) [], .advance 4, .advance 4, .advance 4,
    .compiled 3 (.error (.foreign "KeyError" "boom")) [], .advance 3, .advance 3, .advance 3,
    .advance 2]

end System

end Schematron.Engine

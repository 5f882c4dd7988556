import Schematron.Proofs.Engine.Lifecycle

/-!
Refusal: what a call leaves behind that fails to configure. Main statement: it leaves the current
generation in place and has changed nothing about any handle of that or another generation, what it
has handed in itself is withdrawn, and numbers go on from where they were.
-/

namespace Schematron.Engine

open Program

variable {V : Type}

def accepted (number : Int) (handle : Handle) : Exchange V :=
  ⟨.submit handle.source number, .ok handle⟩

structure Refusal (sources : List RuleSource) (failure : Failure) (past : List (Exchange V)) where
  replaced : Generation
  handed : List Handle
  source : RuleSource
  rest : List RuleSource
  withdrawing : List (Exchange V)
  whole : sources = handed.map (·.source) ++ source :: rest
  did : past = ⟨.reserve, replaced⟩ :: (handed.map (accepted (replaced.number + 1)) ++
    [⟨.submit source (replaced.number + 1), .error failure⟩] ++ withdrawing ++ [⟨.release, ()⟩])
  settles : ∀ exchange ∈ withdrawing, exchange.instruction.Settles handed .cancelled

def HandedIn (number : Int) (sources : List RuleSource) (did : List (Exchange V))
    (handed : List Handle) : Option Failure → Prop
  | none => sources = handed.map (·.source) ∧ did = handed.map (accepted number)
  | some failure => ∃ source rest, sources = handed.map (·.source) ++ source :: rest ∧
      did = handed.map (accepted number) ++ [⟨.submit source number, .error failure⟩]

theorem HandedIn.cons {number : Int} {sources : List RuleSource} {did : List (Exchange V)}
    {handed : List Handle} {refusal : Option Failure}
    (others : HandedIn number sources did handed refusal) (handle : Handle) :
    HandedIn number (handle.source :: sources) (accepted number handle :: did) (handle :: handed)
      refusal := by
  cases refusal with
  | none =>
      obtain ⟨rfl, rfl⟩ := others
      exact ⟨rfl, rfl⟩
  | some failure =>
      obtain ⟨source, rest, rfl, rfl⟩ := others
      exact ⟨source, rest, rfl, rfl⟩

theorem submitAll_hands_in (number : Int) (sources : List RuleSource) (past : List (Exchange V)) :
    (submitAll number sources).Keeps anything (fun later found => ∃ did, later = past ++ did ∧
      HandedIn number sources did found.1 found.2) past := by
  induction sources generalizing past with
  | nil => exact ⟨[], by simp, rfl, rfl⟩
  | cons source rest ih =>
      simp only [submitAll, submit, keeps_bind]
      refine ⟨trivial, fun found possible => ?_⟩
      cases found with
      | error failure => exact ⟨_, rfl, source, rest, rfl, rfl⟩
      | ok handle =>
          obtain ⟨rfl, -⟩ := possible
          simp only [Keeps, keeps_bind]
          refine (ih _).mono ?_
          rintro later ⟨handles, refusal⟩ ⟨did, rfl, others⟩
          exact ⟨accepted number handle :: did, by simp [accepted], others.cons handle⟩

theorem replaceGeneration_refused (sources : List RuleSource) :
    (replaceGeneration sources : Program V (Except Failure Int)).Keeps anything
      (fun past found => ∀ failure, found = .error failure →
        Nonempty (Refusal sources failure past)) [] := by
  simp only [replaceGeneration, keeps_bind]
  refine ⟨trivial, fun replaced _ => ?_⟩
  refine (submitAll_hands_in (replaced.number + 1) sources _).mono ?_
  rintro _ ⟨handed, refusal⟩ ⟨did, rfl, handedIn⟩
  cases refusal with
  | none =>
      simp only [keeps_bind]
      refine ⟨trivial, fun _ _ => ?_⟩
      refine ((watchAll handed).keeps_past _).mono fun _ _ _ => ?_
      refine ((resolveAll .superseded replaced.handles).keeps_past _).mono fun _ _ _ => ?_
      refine ⟨trivial, fun _ _ => ?_⟩
      intro failure same
      cases same
  | some failure =>
      simp only [keeps_bind]
      have settles : (resolveAll .cancelled handed : Program V Nat).Uses
          (Instruction.Settles handed .cancelled) := resolveAll_settles _ fun _ member => member
      refine (settles.adds _).mono ?_
      rintro _ count ⟨withdrawing, rfl, settles⟩
      refine ⟨trivial, fun _ _ => ?_⟩
      intro given same
      cases same
      obtain ⟨source, rest, whole, rfl⟩ := handedIn
      exact ⟨⟨replaced, handed, source, rest, withdrawing, whole, by simp, settles⟩⟩

/-- Whoever has found a generation, and neither lets it go nor replaces it, is drafting. -/
theorem drafting_of_reserved (replaced : Generation) {others : List (Exchange V)}
    (unregistered : ∀ exchange ∈ others, ¬exchange.instruction.Registers) :
    ∃ handles, replacing (⟨.reserve, replaced⟩ :: others) = .drafting replaced handles := by
  induction others using List.reverseRecOn with
  | nil => exact ⟨[], rfl⟩
  | append_singleton others exchange ih =>
      obtain ⟨handles, drafting⟩ := ih fun other member =>
        unregistered other (List.mem_append_left _ member)
      have other := unregistered exchange (by simp)
      have alike := Replacing.after_alike (.drafting replaced handles) exchange.reply other
      obtain ⟨generation, more, same⟩ := alike.drafting_eq
      rw [same] at alike
      cases alike
      refine ⟨more, ?_⟩
      rw [← List.cons_append, replacing_concat, drafting]
      exact same

/-- A call whose locations do not all lead somewhere does nothing at all. -/
theorem configure_refused (surroundings : Surroundings) (base : Option String)
    (locations : List RuleLocation) :
    ((Call.configure surroundings base locations).program : Program V (Result V)).Keeps anything
      (fun past result => ∀ failure, result = .error failure →
        match RuleLocation.resolveAll surroundings base locations with
        | .error fault => failure = fault.failure ∧ past = []
        | .ok sources => Nonempty (Refusal sources failure past)) [] := by
  simp only [Call.program, configure]
  cases RuleLocation.resolveAll surroundings base locations with
  | error fault =>
      intro failure same
      cases same
      exact ⟨rfl, rfl⟩
  | ok sources =>
      refine keeps_bind.mpr ((replaceGeneration_refused sources).mono fun past found refused => ?_)
      intro failure same
      cases found with
      | ok number => cases same
      | error given =>
          cases same
          exact refused _ rfl

namespace Refusal

variable {sources : List RuleSource} {failure : Failure} {past : List (Exchange V)}

theorem submitted (refused : Refusal sources failure past) : submittedIn past = refused.handed := by
  have accepts (number : Int) :
      submittedIn (refused.handed.map (accepted (V := V) number)) = refused.handed := by
    simp [submittedIn, accepted, Exchange.submitted?, Function.comp_def]
  have nothing : submittedIn refused.withdrawing = [] := by
    refine submittedIn_eq_nil fun exchange member source generation same => ?_
    have settles := refused.settles exchange member
    rw [same] at settles
    exact settles
  refine (congrArg submittedIn refused.did).trans ?_
  rw [← List.singleton_append]
  simp only [submittedIn_append, accepts, nothing, List.append_nil]
  change [] ++ (refused.handed ++ [] ++ []) = refused.handed
  simp

theorem done_cases (refused : Refusal sources failure past) {exchange : Exchange V}
    (done : exchange ∈ past) :
    exchange = ⟨.reserve, refused.replaced⟩ ∨
      (∃ handle, exchange = accepted (refused.replaced.number + 1) handle) ∨
      exchange = ⟨.submit refused.source (refused.replaced.number + 1), .error failure⟩ ∨
      exchange ∈ refused.withdrawing ∨ exchange = ⟨.release, ()⟩ := by
  have done := refused.did ▸ done
  simp only [List.mem_cons, List.mem_append, List.mem_map, List.not_mem_nil, or_false] at done
  obtain begins | ((⟨handle, -, same⟩ | refuses) | withdraws) | ends := done
  · exact .inl begins
  · exact .inr (.inl ⟨handle, same.symm⟩)
  · exact .inr (.inr (.inl refuses))
  · exact .inr (.inr (.inr (.inl withdraws)))
  · exact .inr (.inr (.inr (.inr ends)))

theorem targets (refused : Refusal sources failure past) {exchange : Exchange V}
    (done : exchange ∈ past) {target : Handle}
    (targeted : exchange.instruction.target? = some target) : target ∈ refused.handed := by
  obtain rfl | ⟨handle, rfl⟩ | rfl | withdraws | rfl := refused.done_cases done
  · cases targeted
  · cases targeted
  · cases targeted
  · exact Instruction.Settles.concerns _ (refused.settles exchange withdraws) target targeted
  · cases targeted

theorem withdraws (refused : Refusal sources failure past) {target : Handle} {outcome : Outcome V}
    {reply : Option (List Callback)} (done : ⟨.resolve target outcome, reply⟩ ∈ past) :
    outcome = .cancelled := by
  obtain same | ⟨handle, same⟩ | same | withdraws | same := refused.done_cases done
  · cases same
  · cases same
  · cases same
  · exact (refused.settles _ withdraws).2
  · cases same

/-- Whenever the call does anything but to begin, it is drafting a generation to replace the one
that it has found. -/
theorem drafting (refused : Refusal sources failure past) {before after : List (Exchange V)}
    {exchange : Exchange V} (split : past = before ++ exchange :: after) :
    (before = [] ∧ exchange = ⟨.reserve, refused.replaced⟩) ∨
      ∃ handles, replacing before = .drafting refused.replaced handles := by
  have whole := split.symm.trans refused.did
  cases before with
  | nil =>
      rw [List.nil_append, List.cons.injEq] at whole
      exact .inl ⟨rfl, whole.1⟩
  | cons first others =>
      rw [List.cons_append, List.cons.injEq] at whole
      obtain ⟨rfl, whole⟩ := whole
      refine .inr ?_
      have inside : others ⊆ refused.handed.map (accepted (refused.replaced.number + 1)) ++
          [⟨.submit refused.source (refused.replaced.number + 1), .error failure⟩] ++
          refused.withdrawing := by
        have shorter := congrArg List.dropLast whole
        rw [List.dropLast_concat, List.dropLast_append_of_ne_nil (List.cons_ne_nil _ _)] at shorter
        rw [← shorter]
        exact List.subset_append_left _ _
      have unregistered : ∀ other ∈ others, ¬other.instruction.Registers := by
        intro other member registers
        have member := inside member
        simp only [List.mem_append, List.mem_map, List.mem_singleton] at member
        obtain (⟨handle, -, rfl⟩ | rfl) | withdraws := member
        · exact registers
        · exact registers
        · have settles := refused.settles other withdraws
          obtain ⟨instruction, reply⟩ := other
          cases instruction with
          | resolve | note | call => exact registers
          | _ => exact settles
      exact drafting_of_reserved refused.replaced unregistered

end Refusal

namespace System

theorem Answer.settled {thread : Nat} {state next : State V} {handle : Handle}
    {outcome : Outcome V} {reply : Option (List Callback)}
    (answer : Answer thread state (.resolve handle outcome) reply next)
    (known : state.Knows handle) :
    next.condition handle = .resolved ((state.condition handle).outcome?.getD outcome) := by
  cases answer with
  | tooLate _ late =>
      obtain ⟨earlier, condition⟩ := Condition.isResolved_iff.mp late
      rw [condition]
      rfl
  | resolve _ unresolved =>
      have unsettled : (state.condition handle).outcome? = none := by
        simpa [Condition.isResolved] using unresolved
      rw [State.condition_update, if_pos ⟨rfl, known⟩, unsettled]
      rfl

theorem Answer.keeps_generation {thread : Nat} {state next : State V}
    {instruction : Instruction V} {reply : instruction.Reply}
    (answer : Answer thread state instruction reply next)
    (other : ∀ generation, instruction ≠ .publish generation) :
    next.generation = state.generation := by
  by_cases registers : instruction.Registers
  · cases answer with
    | reserve | release => rfl
    | publish generation => exact absurd rfl (other generation)
    | _ => exact registers.elim
  · exact (answer.unregistered registers).1

theorem Cut.mem_own {start last : System V} {moves : List (Move V)} {event : Event V}
    (cut : Cut start moves last event) :
    event.exchange ∈ exchangesOf event.thread (start.trace moves) := by
  rw [cut.own]
  exact List.mem_append_right _ List.mem_cons_self

/-- A handle that somebody has asked to resolve has come to that, or to what it was before. -/
theorem Cut.settled {start last : System V} {moves : List (Move V)} {index : Nat}
    {handle : Handle} {outcome : Outcome V} {reply : Option (List Callback)}
    (cut : Cut start moves last ⟨index, .resolve handle outcome, reply⟩)
    (known : cut.moment.state.Knows handle) :
    last.state.condition handle =
      .resolved ((cut.moment.state.condition handle).outcome?.getD outcome) :=
  (resolved_of_run cut.continued (cut.answer.settled known)).1

section Runs

variable {workers : Int} {pool : Pool} {evaluation : Evaluation} {moves later : List (Move V)}
  {last final : System V} {index : Nat} {call : Call} {failure : Failure} {handle : Handle}

/-- The generation that is current is the latest that was put in place since a call was made. -/
theorem Birth.current (birth : Birth (initial pool evaluation) moves last index call)
    (reached : (initial pool evaluation).run moves = some last) :
    last.state.generation =
      (publishedIn (exchanges ((birth.moment.asked call).trace birth.late))).getLastD
        birth.moment.state.generation := by
  rw [(registered_of_run reached).current, (registered_of_run birth.reached).current, birth.trace,
    exchanges_append, publishedIn_append]
  simp only [List.getLastD_eq_getLast?, List.getLast?_append, Option.getD_or]

/-- What is put in place has the number that follows, one for each that was put in place before. -/
theorem number_of_published (reached : (initial pool evaluation).run moves = some last)
    {next : Generation} (cut : Cut last later final ⟨index, .publish next, ()⟩) :
    next.number = last.state.generation.number +
      (publishedIn (exchanges (last.trace cut.early))).length + 1 := by
  obtain ⟨whole, events⟩ := run_join reached cut.reached
  have registered := registered_of_run whole
  obtain ⟨duty, rest, found, rule⟩ := event_rule whole cut.stepped cut.happens
  cases duty with
  | job => exact rule.elim
  | call call =>
      obtain ⟨replaced, handles, drafting, rfl, -⟩ := rule
      have current := (registered.drafting index replaced handles drafting).2
      have before := (registered_of_run reached).number_eq
      have count := registered.number_eq
      rw [current, events, exchanges_append, publishedIn_append, List.length_append] at count
      simp only [Generation.succeeding]
      omega

/-- Whoever configures after a moment puts in place what has the number that it is given. -/
theorem published_after (reached : (initial pool evaluation).run moves = some last)
    (continued : last.run later = some final)
    (unpublished : publishedIn (exchangesOf index ((initial pool evaluation).trace moves)) = [])
    {surroundings : Surroundings} {base : Option String} {locations : List RuleLocation}
    {number : Int} (found : final.threads[index]? =
      some ⟨.call (.configure surroundings base locations), .done (.ok (.number number))⟩) :
    ∃ (next : Generation) (_ : Cut last later final ⟨index, .publish next, ()⟩),
      next.number = number := by
  obtain ⟨whole, events⟩ := run_join reached continued
  obtain ⟨given, same, configured⟩ := leaves_of_done whole found
  cases given with
  | error failure => cases same
  | ok given =>
      cases same
      obtain ⟨replaced, handles, next, before, after, own, -, -, rfl, -⟩ := configured
      have published : next ∈ publishedIn (exchangesOf index
          ((initial pool evaluation : System V).trace (moves ++ later))) := by
        rw [own]
        simp [publishedIn, Exchange.published?]
      rw [events, exchangesOf_append, publishedIn_append, unpublished, List.nil_append] at published
      obtain ⟨cut⟩ := cut_of_mem continued (mem_exchangesOf.mp (mem_publishedIn.mp published))
      exact ⟨next, cut, rfl⟩

/-- What a refused call has handed in is cancelled, or had resolved before it came to that. -/
theorem withdrawn_of_refused (created : Pool.create? workers = .ok pool)
    (reached : (initial pool evaluation).run moves = some last) {sources : List RuleSource}
    (supplied : Supplied (exchangesOf index ((initial pool evaluation : System V).trace moves))
      (.error failure : Result V))
    (refused : Refusal sources failure
      (exchangesOf index ((initial pool evaluation : System V).trace moves)))
    (submitted : handle ∈ submittedIn
      (exchangesOf index ((initial pool evaluation : System V).trace moves))) :
    ∃ (reply : _) (cut : Cut (initial pool evaluation) moves last
        ⟨index, .resolve handle .cancelled, reply⟩),
      last.state.condition handle =
        .resolved ((cut.moment.state.condition handle).outcome?.getD .cancelled) := by
  obtain ⟨before, outcome, reply, after, own, earlier⟩ := supplied handle submitted
  have asked : ⟨.resolve handle outcome, reply⟩ ∈
      exchangesOf index ((initial pool evaluation : System V).trace moves) := by
    rw [own]
    exact List.mem_append_right _ List.mem_cons_self
  cases refused.withdraws asked
  obtain ⟨cut, same, -⟩ := exists_cut reached own
  have known := cut.knows created (mem_submittedIn_exchanges (same ▸ earlier))
  exact ⟨reply, cut, cut.settled known⟩

/-- Nobody else has put in place what a call has handed in that put nothing in place. -/
theorem unshared_of_unpublished (created : Pool.create? workers = .ok pool)
    (reached : (initial pool evaluation : System V).run moves = some last)
    (unpublished : publishedIn (exchangesOf index ((initial pool evaluation).trace moves)) = [])
    {target : Handle} (submitted : target ∈ submittedIn
      (exchangesOf index ((initial pool evaluation : System V).trace moves)))
    {generation : Generation} (member : generation ∈ .initial ::
      publishedIn (exchanges ((initial pool evaluation : System V).trace moves)))
    (included : handle ∈ generation.handles) : target.id ≠ handle.id := by
  intro same
  rcases List.mem_cons.mp member with rfl | published
  · cases included
  · obtain ⟨⟨place, exchange⟩, happened, rfl⟩ := List.mem_map.mp (mem_publishedIn.mp published)
    obtain ⟨cut⟩ := cut_of_mem reached happened
    obtain ⟨-, -, -, -, supplied⟩ := publisher_of_cut cut
    have there : handle ∈ submittedIn
        (exchangesOf place ((initial pool evaluation : System V).trace moves)) := by
      rw [cut.own, submittedIn_append]
      exact List.mem_append_left _ (supplied included)
    cases submitter_unique created reached submitted there same
    have own := mem_publishedIn.mpr (mem_exchangesOf.mpr happened)
    rw [unpublished] at own
    cases own

/-- While a call is at work that is refused, the generation stays that it has found. -/
theorem found_of_refused {sources : List RuleSource} {event : Event V}
    (cut : Cut (initial pool evaluation) moves last event)
    (refused : Refusal sources failure
      (exchangesOf event.thread ((initial pool evaluation : System V).trace moves)))
    (unpublished : publishedIn
      (exchangesOf event.thread ((initial pool evaluation).trace moves)) = []) :
    cut.moment.state.generation = refused.replaced ∧
      cut.next.state.generation = refused.replaced := by
  have answer := cut.transition.event.1
  have others : ∀ generation, event.exchange.instruction ≠ .publish generation := by
    intro generation publishes
    obtain ⟨index, instruction, reply⟩ := event
    cases publishes
    have own := mem_publishedIn.mpr cut.mem_own
    rw [unpublished] at own
    cases own
  have kept := answer.keeps_generation others
  have current : cut.moment.state.generation = refused.replaced := by
    obtain ⟨-, begins⟩ | ⟨handles, drafting⟩ := refused.drafting cut.own
    · rw [begins] at answer
      exact answer.reserved.2.1.symm
    · exact ((registered_of_run cut.reached).drafting event.thread _ _ drafting).2
  exact ⟨current, kept.trans current⟩

/-- What is left of a call that failed to configure. -/
structure Harmless (start : System V) (moves : List (Move V)) (last : System V) (index : Nat)
    (surroundings : Surroundings) (base : Option String) (locations : List RuleLocation)
    (failure : Failure) : Prop where
  unresolved : ∀ fault, RuleLocation.resolveAll surroundings base locations = .error fault →
    failure = fault.failure ∧ exchangesOf index (start.trace moves) = []
  refused : ∀ sources, RuleLocation.resolveAll surroundings base locations = .ok sources →
    ∃ refused : Refusal sources failure (exchangesOf index (start.trace moves)),
      ∀ event (cut : Cut start moves last event), event.thread = index →
        cut.moment.state.generation = refused.replaced ∧
          cut.next.state.generation = refused.replaced
  unpublished : publishedIn (exchangesOf index (start.trace moves)) = []
  -- Since the call was made the generation has changed only as it was put in place by others.
  current : ∀ birth : Birth start moves last index (.configure surroundings base locations),
    last.state.generation = (publishedIn (exchanges
      ((birth.moment.asked (.configure surroundings base locations)).trace birth.late))).getLastD
        birth.moment.state.generation
  spared : ∀ event (cut : Cut start moves last event), event.thread = index →
    ∀ generation ∈ .initial :: publishedIn (exchanges (start.trace moves)),
      ∀ handle ∈ generation.handles,
        cut.next.state.compilation handle = cut.moment.state.compilation handle
  -- What the call has handed in is cancelled, unless it had resolved before the call asked.
  withdrawn : ∀ handle ∈ submittedIn (exchangesOf index (start.trace moves)),
    ∃ (reply : _) (cut : Cut start moves last ⟨index, .resolve handle .cancelled, reply⟩),
      last.state.condition handle =
        .resolved ((cut.moment.state.condition handle).outcome?.getD .cancelled)
  numbers : ∀ later final, last.run later = some final →
    ∀ other surroundings base locations number,
      publishedIn (exchangesOf other (start.trace moves)) = [] →
      final.threads[other]? =
        some ⟨.call (.configure surroundings base locations), .done (.ok (.number number))⟩ →
      ∃ (next : Generation) (cut : Cut last later final ⟨other, .publish next, ()⟩),
        next.number = number ∧ number = last.state.generation.number +
          (publishedIn (exchanges (last.trace cut.early))).length + 1

def overreaching : List (Move Unit) :=
  -- Rule sets are configured, and then others, the last of which is refused. By then the first
  -- of these has been compiled, and one of the old ones is being compiled.
  [.call .start, .advance 0,
    .call (.configure ⟨default, fun _ => none⟩ none [.resolved default]),
    .advance 1, .advance 1, .advance 1, .advance 1, .advance 1, .limit (some 2),
    .call (.configure ⟨default, fun _ => none⟩ none
      [.resolved default, .resolved default, .resolved default]),
    .advance 2, .advance 2, .advance 2, .take 0, .take 0, .begin 0 ⟨0, default, 1⟩,
    .begin 0 ⟨1, default, 2⟩, .advance 4, .compiled 4 (.ok ()) [], .advance 4,
    .advance 2, .advance 2, .advance 2, .advance 2]

def resuming : List (Move Unit) :=
  [.limit none, .call (.configure ⟨default, fun _ => none⟩ none []),
    .advance 5, .advance 5, .advance 5, .advance 5]

end Runs

end System

end Schematron.Engine

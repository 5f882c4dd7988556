import Schematron.Proofs.Engine.Resolution

/-!
Registry: what holds of the current generation in every run. Main statement: its handles are those
of its sources and carry its number, the numbers of successive generations follow one another
without a gap, and what a generation leaves unfinished is superseded by the one that replaces it.
-/

namespace Schematron.Engine

variable {V α β : Type}

def Exchange.published? : Exchange V → Option Generation
  | ⟨.publish next, _⟩ => some next
  | _ => none

def publishedIn (past : List (Exchange V)) : List Generation :=
  past.filterMap Exchange.published?

@[simp] theorem publishedIn_nil : publishedIn ([] : List (Exchange V)) = [] := rfl

@[simp] theorem publishedIn_append (first second : List (Exchange V)) :
    publishedIn (first ++ second) = publishedIn first ++ publishedIn second := by
  simp [publishedIn]

theorem mem_publishedIn {past : List (Exchange V)} {next : Generation} :
    next ∈ publishedIn past ↔ ⟨.publish next, ()⟩ ∈ past := by
  simp only [publishedIn, List.mem_filterMap]
  constructor
  · rintro ⟨⟨instruction, reply⟩, member, publishes⟩
    cases instruction with
    | publish =>
        cases publishes
        exact member
    | _ => cases publishes
  · intro member
    exact ⟨_, member, rfl⟩

theorem publishedIn_eq_nil {past : List (Exchange V)}
    (others : ∀ exchange ∈ past, ∀ next, exchange.instruction ≠ .publish next) :
    publishedIn past = [] := by
  refine List.eq_nil_iff_forall_not_mem.mpr fun next member => ?_
  exact others _ (mem_publishedIn.mp member) next rfl

def Instruction.Registers : Instruction V → Prop
  | .reserve => True
  | .release => True
  | .publish _ => True
  | _ => False

namespace Replacing

def next? : Replacing → Option Generation
  | published _ next => some next
  | _ => none

def Alike : Replacing → Replacing → Prop
  | drafting replaced _, drafting same _ => replaced = same
  | before, after => before = after

namespace Alike

variable {before after : Replacing} {replaced next : Generation} {handles : List Handle}

theorem same (stage : Replacing) : stage.Alike stage := by
  cases stage <;> rfl

theorem next?_eq (alike : before.Alike after) : after.next? = before.next? := by
  cases before with
  | drafting =>
      cases after with
      | drafting => rfl
      | _ => cases alike
  | _ =>
      cases alike
      rfl

theorem eq_drafting (alike : before.Alike (.drafting replaced handles)) :
    ∃ earlier, before = .drafting replaced earlier := by
  cases before with
  | drafting first earlier =>
      cases alike
      exact ⟨earlier, rfl⟩
  | _ => cases alike

theorem drafting_eq (alike : (drafting replaced handles).Alike after) :
    ∃ generation more, after = .drafting generation more := by
  cases after with
  | drafting generation more => exact ⟨generation, more, rfl⟩
  | _ => cases alike

theorem eq_published (alike : (published replaced next).Alike after) :
    after = published replaced next := by
  cases alike
  rfl

end Alike

theorem after_alike (stage : Replacing) {instruction : Instruction V} (reply : instruction.Reply)
    (other : ¬ instruction.Registers) : stage.Alike (stage.after ⟨instruction, reply⟩) := by
  cases instruction with
  | reserve | release | publish => exact absurd trivial other
  | submit =>
      cases reply with
      | ok handle => cases stage <;> rfl
      | error failure => exact .same stage
  | _ => exact .same stage

end Replacing

def Exchange.submitted? : Exchange V → Option Handle
  | ⟨.submit _ _, .ok handle⟩ => some handle
  | _ => none

def submittedIn (past : List (Exchange V)) : List Handle := past.filterMap Exchange.submitted?

@[simp] theorem submittedIn_nil : submittedIn ([] : List (Exchange V)) = [] := rfl

@[simp] theorem submittedIn_append (first second : List (Exchange V)) :
    submittedIn (first ++ second) = submittedIn first ++ submittedIn second := by
  simp [submittedIn]

theorem mem_submittedIn {past : List (Exchange V)} {handle : Handle} :
    handle ∈ submittedIn past ↔
      ∃ source generation, ⟨.submit source generation, .ok handle⟩ ∈ past := by
  simp only [submittedIn, List.mem_filterMap]
  constructor
  · rintro ⟨⟨instruction, reply⟩, member, submitted⟩
    cases instruction with
    | submit source generation =>
        cases reply with
        | ok made =>
            cases submitted
            exact ⟨source, generation, member⟩
        | error failure => cases submitted
    | _ => cases submitted
  · rintro ⟨source, generation, member⟩
    exact ⟨_, member, rfl⟩

theorem submittedIn_eq_nil {past : List (Exchange V)}
    (others : ∀ exchange ∈ past, ∀ source generation,
      exchange.instruction ≠ .submit source generation) :
    submittedIn past = [] := by
  refine List.eq_nil_iff_forall_not_mem.mpr fun handle member => ?_
  obtain ⟨source, generation, submitted⟩ := mem_submittedIn.mp member
  exact others _ submitted source generation rfl

theorem submittedIn_sublist_madeIn (past : List (Exchange V)) :
    (submittedIn past).Sublist (madeIn past) := by
  refine filterMap_sublist_filterMap (fun exchange handle submitted => ?_) past
  obtain ⟨instruction, reply⟩ := exchange
  cases instruction with
  | submit source generation =>
      cases reply with
      | ok made => exact submitted
      | error failure => cases submitted
  | _ => cases submitted

/-- What is drafted for a generation was handed in for it. -/
theorem drafted_submitted {past : List (Exchange V)} {replaced : Generation} {handles : List Handle}
    (drafting : replacing past = .drafting replaced handles) :
    handles.Sublist (submittedIn past) := by
  induction past using List.reverseRecOn generalizing replaced handles with
  | nil => simp at drafting
  | append_singleton past exchange ih =>
      rw [replacing_concat] at drafting
      rw [submittedIn_append]
      have grown {stage : Replacing} (same : replacing past = stage)
          (drafting : stage = .drafting replaced handles) :
          handles.Sublist (submittedIn past ++ submittedIn [exchange]) :=
        (ih (same.trans drafting)).trans (List.sublist_append_left _ _)
      obtain ⟨instruction, reply⟩ := exchange
      cases instruction with
      | reserve =>
          cases drafting
          exact List.nil_sublist _
      | submit source generation =>
          cases reply with
          | error failure => exact grown rfl drafting
          | ok handle =>
              cases stage : replacing past with
              | drafting before earlier =>
                  rw [stage] at drafting
                  cases drafting
                  exact (ih stage).append (List.Sublist.refl _)
              | _ => simp [stage, Replacing.after, Replacing.handIn] at drafting
      | publish next =>
          cases stage : replacing past <;>
            simp [stage, Replacing.after, Replacing.publish] at drafting
      | release =>
          cases stage : replacing past <;>
            simp [stage, Replacing.after, Replacing.release] at drafting
      | _ => exact grown rfl drafting

theorem drafted_sublist {past : List (Exchange V)} {replaced : Generation} {handles : List Handle}
    (drafting : replacing past = .drafting replaced handles) : handles.Sublist (madeIn past) :=
  (drafted_submitted drafting).trans (submittedIn_sublist_madeIn past)

theorem reserved_of_replacing {past : List (Exchange V)} (begun : replacing past ≠ .idle) :
    ∃ before replaced after, past = before ++ ⟨.reserve, replaced⟩ :: after := by
  induction past using List.reverseRecOn with
  | nil => exact absurd rfl begun
  | append_singleton past exchange ih =>
      by_cases idle : replacing past = .idle
      · rw [replacing_concat, idle] at begun
        obtain ⟨instruction, reply⟩ := exchange
        cases instruction with
        | reserve => exact ⟨past, reply, [], rfl⟩
        | submit => cases reply <;> exact absurd rfl begun
        | _ => exact absurd rfl begun
      · obtain ⟨before, replaced, after, rfl⟩ := ih idle
        exact ⟨before, replaced, after ++ [exchange], by simp⟩

structure Generation.IsOrderly (generation : Generation) (made : List Handle) : Prop where
  corresponds : generation.handles.map (·.source) = generation.sources
  numbered : ∀ handle ∈ generation.handles, handle.generation = generation.number
  made : generation.handles.Sublist made

theorem Generation.IsOrderly.mono {generation : Generation} {made more : List Handle}
    (orderly : generation.IsOrderly made) (grows : made.Sublist more) :
    generation.IsOrderly more :=
  ⟨orderly.corresponds, orderly.numbered, orderly.made.trans grows⟩

theorem Generation.initial_isOrderly (made : List Handle) : initial.IsOrderly made :=
  ⟨rfl, fun _ member => absurd member List.not_mem_nil, List.nil_sublist made⟩

def successiveNumbers (count : Nat) : List Int :=
  (List.range count).map fun before : Nat => (before : Int) + 1

namespace System

/-! What one move does to the registry -/

theorem Answer.reserved {thread : Nat} {state next : State V} {replaced : Generation}
    (answer : Answer thread state .reserve replaced next) :
    state.configuring = none ∧ replaced = state.generation ∧
      next.generation = state.generation ∧ next.configuring = some thread := by
  cases answer with
  | reserve free => exact ⟨free, rfl, rfl, rfl⟩

theorem Answer.unregistered {thread : Nat} {state next : State V} {instruction : Instruction V}
    {reply : instruction.Reply} (answer : Answer thread state instruction reply next)
    (other : ¬ instruction.Registers) :
    next.generation = state.generation ∧ next.configuring = state.configuring := by
  cases answer with
  | reserve | release | publish => exact absurd trivial other
  | submit source generation =>
      simp only [State.submit]
      split
      · exact ⟨rfl, rfl⟩
      · split <;> exact ⟨rfl, rfl⟩
  | register target callback =>
      simp only [State.register]
      split <;> exact ⟨rfl, rfl⟩
  | openPool =>
      simp only [State.openPool]
      split <;> exact ⟨rfl, rfl⟩
  | _ => exact ⟨rfl, rfl⟩

theorem Transition.unregistered {system next : System V} {move : Move V}
    (transition : Transition system move none next) :
    next.state.generation = system.state.generation ∧
      next.state.configuring = system.state.configuring := by
  cases transition with
  | take taken =>
      obtain ⟨pool, rfl, -⟩ := State.take?_queues taken
      exact ⟨rfl, rfl⟩
  | drop begun =>
      obtain ⟨pool, rfl, -⟩ := State.begin?_drops begun
      exact ⟨rfl, rfl⟩
  | begin begun =>
      obtain ⟨-, -, pool, rfl, -⟩ := State.begin?_starts begun
      exact ⟨rfl, rfl⟩
  | _ => exact ⟨rfl, rfl⟩

theorem replacing_next (events : List (Event V)) (event : Event V) (index : Nat) :
    replacing (exchangesOf index (events ++ [event])) =
      if event.thread = index then (replacing (exchangesOf index events)).after event.exchange
      else replacing (exchangesOf index events) := by
  rw [exchangesOf_append]
  split
  next same => rw [← same, exchangesOf_single_self, replacing_concat]
  next different => rw [exchangesOf_single_other different, List.append_nil]

theorem published_next {events : List (Event V)} {event : Event V} {index : Nat}
    {generation latest : Generation}
    (stage : replacing (exchangesOf index events) = .published generation latest)
    (unpublished : (replacing (exchangesOf event.thread events)).next? = none) :
    replacing (exchangesOf index (events ++ [event])) = .published generation latest := by
  rw [replacing_next, if_neg, stage]
  rintro rfl
  rw [stage] at unpublished
  cases unpublished

structure Registered (events : List (Event V)) (system : System V) : Prop where
  drafting : ∀ index replaced handles,
    replacing (exchangesOf index events) = .drafting replaced handles →
    system.state.configuring = some index ∧ system.state.generation = replaced
  own : ∀ index, publishedIn (exchangesOf index events) =
    (replacing (exchangesOf index events)).next?.toList
  current : system.state.generation =
    (publishedIn (exchanges events)).getLastD .initial
  numbers : (publishedIn (exchanges events)).map (·.number) =
    successiveNumbers (publishedIn (exchanges events)).length
  orderly : ∀ generation ∈ publishedIn (exchanges events),
    generation.IsOrderly (madeIn (exchanges events))
  replaced : ∀ generation ∈ .initial :: publishedIn (exchanges events),
    generation ≠ system.state.generation →
    ∃ index next, replacing (exchangesOf index events) = .published generation next

namespace Registered

variable {events : List (Event V)} {system next : System V} {move : Move V}

theorem initial (pool : Pool) (evaluation : Evaluation) :
    Registered [] (System.initial pool evaluation : System V) := by
  refine ⟨by simp, fun _ => rfl, rfl, rfl, by simp, ?_⟩
  intro generation member different
  simp only [exchanges_nil, publishedIn_nil, List.mem_singleton] at member
  exact absurd member different

theorem number_eq (registered : Registered events system) :
    system.state.generation.number = (publishedIn (exchanges events)).length := by
  rw [registered.current]
  rcases List.eq_nil_or_concat' (publishedIn (exchanges events)) with empty | ⟨before, latest, same⟩
  · rw [empty]
    rfl
  · have numbers := registered.numbers
    rw [same] at numbers ⊢
    simp only [List.map_append, List.length_append, List.map_cons, List.map_nil,
      List.length_singleton, successiveNumbers, List.range_succ] at numbers
    have ends := (List.append_inj numbers (by simp)).2
    simpa using ends

theorem isOrderly (registered : Registered events system) :
    system.state.generation.IsOrderly (madeIn (exchanges events)) := by
  rw [registered.current]
  rcases List.eq_nil_or_concat' (publishedIn (exchanges events)) with empty | ⟨before, latest, same⟩
  · rw [empty]
    exact Generation.initial_isOrderly _
  · rw [same, List.getLastD_concat]
    exact registered.orderly latest (by simp [same])

theorem own_next (registered : Registered events system) {event : Event V}
    (follows : (replacing (exchangesOf event.thread events)).next?.toList ++
      publishedIn [event.exchange] =
        ((replacing (exchangesOf event.thread events)).after event.exchange).next?.toList)
    (index : Nat) :
    publishedIn (exchangesOf index (events ++ [event])) =
      (replacing (exchangesOf index (events ++ [event]))).next?.toList := by
  rw [replacing_next, exchangesOf_append, publishedIn_append, registered.own]
  split
  next own =>
    subst own
    rw [exchangesOf_single_self]
    exact follows
  next other =>
    rw [exchangesOf_single_other other, publishedIn_nil, List.append_nil]

theorem orderly_next (registered : Registered events system) (more : List (Event V))
    {generation : Generation} (member : generation ∈ publishedIn (exchanges events)) :
    generation.IsOrderly (madeIn (exchanges (events ++ more))) := by
  rw [exchanges_append, madeIn_append]
  exact (registered.orderly generation member).mono (List.sublist_append_left _ _)

theorem undrafted_next (registered : Registered events system) {event : Event V}
    {replaced : Generation} {handles : List Handle}
    (drafted : replacing (exchangesOf event.thread events) = .drafting replaced handles)
    (ends : ∀ before earlier,
      (Replacing.drafting replaced handles).after event.exchange ≠ .drafting before earlier)
    (index : Nat) (before : Generation) (earlier : List Handle) :
    replacing (exchangesOf index (events ++ [event])) ≠ .drafting before earlier := by
  intro drafting
  rw [replacing_next] at drafting
  split at drafting
  next own =>
    rw [← own, drafted] at drafting
    exact ends before earlier drafting
  next other =>
    have taken := (registered.drafting event.thread replaced handles drafted).1
    have also := (registered.drafting index before earlier drafting).1
    rw [taken, Option.some.injEq] at also
    exact other also

theorem unregistered (registered : Registered events system) {event : Option (Event V)}
    (silent : publishedIn (exchanges event.toList) = [])
    (alike : ∀ index, (replacing (exchangesOf index events)).Alike
      (replacing (exchangesOf index (events ++ event.toList))))
    (quiet : ∀ index, publishedIn (exchangesOf index event.toList) = [])
    (same : next.state.generation = system.state.generation ∧
      next.state.configuring = system.state.configuring) :
    Registered (events ++ event.toList) next := by
  have published : publishedIn (exchanges (events ++ event.toList)) =
      publishedIn (exchanges events) := by
    rw [exchanges_append, publishedIn_append, silent, List.append_nil]
  constructor
  case drafting =>
    intro index replaced handles drafting
    have related := alike index
    rw [drafting] at related
    obtain ⟨earlier, stage⟩ := related.eq_drafting
    rw [same.1, same.2]
    exact registered.drafting index replaced earlier stage
  case own =>
    intro index
    rw [(alike index).next?_eq, exchangesOf_append, publishedIn_append, quiet, List.append_nil,
      registered.own]
  case current => rw [same.1, published, registered.current]
  case numbers => rw [published, registered.numbers]
  case orderly =>
    rw [published]
    exact fun generation => registered.orderly_next _
  case replaced =>
    rw [published, same.1]
    intro generation member different
    obtain ⟨index, next, stage⟩ := registered.replaced generation member different
    have related := alike index
    rw [stage] at related
    exact ⟨index, next, related.eq_published⟩

variable {thread : Nat}

theorem reserve (registered : Registered events system) {replaced : Generation}
    (answer : Answer thread system.state .reserve replaced next.state)
    (idle : replacing (exchangesOf thread events) = .idle) :
    Registered (events ++ [⟨thread, .reserve, replaced⟩]) next := by
  obtain ⟨free, rfl, same, reserved⟩ := answer.reserved
  have published :
      publishedIn (exchanges (events ++ [⟨thread, .reserve, system.state.generation⟩])) =
        publishedIn (exchanges events) := by
    rw [exchanges_append, publishedIn_append]
    exact List.append_nil _
  constructor
  case drafting =>
    intro index replaced handles drafting
    rw [replacing_next] at drafting
    split at drafting
    next own =>
      cases drafting
      exact ⟨reserved.trans (congrArg some own), same⟩
    next =>
      have taken := (registered.drafting index replaced handles drafting).1
      simp [free] at taken
  case own =>
    refine registered.own_next ?_
    rw [idle]
    rfl
  case current => rw [same, published, registered.current]
  case numbers => rw [published, registered.numbers]
  case orderly =>
    rw [published]
    exact fun generation => registered.orderly_next _
  case replaced =>
    rw [published, same]
    intro generation member different
    obtain ⟨index, latest, stage⟩ := registered.replaced generation member different
    refine ⟨index, latest, published_next stage ?_⟩
    rw [idle]
    rfl

theorem release (registered : Registered events system)
    (answer : Answer thread system.state .release () next.state) {replaced : Generation}
    {handles : List Handle}
    (drafted : replacing (exchangesOf thread events) = .drafting replaced handles) :
    Registered (events ++ [⟨thread, .release, ()⟩]) next := by
  have same : next.state.generation = system.state.generation := by
    generalize next.state = after at answer
    cases answer
    rfl
  have published : publishedIn (exchanges (events ++ [⟨thread, .release, ()⟩])) =
      publishedIn (exchanges events) := by
    rw [exchanges_append, publishedIn_append]
    exact List.append_nil _
  constructor
  case drafting =>
    intro index before earlier drafting
    refine absurd drafting (registered.undrafted_next drafted ?_ index before earlier)
    simp [Replacing.after, Replacing.release]
  case own =>
    refine registered.own_next ?_
    rw [drafted]
    rfl
  case current => rw [same, published, registered.current]
  case numbers => rw [published, registered.numbers]
  case orderly =>
    rw [published]
    exact fun generation => registered.orderly_next _
  case replaced =>
    rw [published, same]
    intro generation member different
    obtain ⟨index, latest, stage⟩ := registered.replaced generation member different
    refine ⟨index, latest, published_next stage ?_⟩
    rw [drafted]
    rfl

theorem publish (registered : Registered events system) {replaced : Generation}
    {handles : List Handle}
    (answer : Answer thread system.state (.publish (replaced.succeeding handles)) () next.state)
    (drafted : replacing (exchangesOf thread events) = .drafting replaced handles)
    (numbered : ∀ handle ∈ handles, handle.generation = replaced.number + 1) :
    Registered (events ++ [⟨thread, .publish (replaced.succeeding handles), ()⟩]) next := by
  obtain ⟨-, rfl⟩ := registered.drafting thread replaced handles drafted
  have same : next.state.generation = system.state.generation.succeeding handles := by
    generalize next.state = after at answer
    cases answer
    rfl
  have published : publishedIn (exchanges
      (events ++ [⟨thread, .publish (system.state.generation.succeeding handles), ()⟩])) =
      publishedIn (exchanges events) ++ [system.state.generation.succeeding handles] := by
    rw [exchanges_append, publishedIn_append]
    rfl
  constructor
  case drafting =>
    intro index before earlier drafting
    refine absurd drafting (registered.undrafted_next drafted ?_ index before earlier)
    simp [Replacing.after, Replacing.publish]
  case own =>
    refine registered.own_next ?_
    rw [drafted]
    rfl
  case current => rw [same, published, List.getLastD_concat]
  case numbers =>
    rw [published, List.map_append, registered.numbers]
    simp [successiveNumbers, List.range_succ, Generation.succeeding, registered.number_eq]
  case orderly =>
    rw [published]
    intro generation member
    rcases List.mem_append.mp member with old | new
    · exact registered.orderly_next _ old
    · rw [List.mem_singleton.mp new, exchanges_append, madeIn_append]
      refine ⟨rfl, numbered, ?_⟩
      have own := (exchangesOf_sublist thread events).filterMap Exchange.made?
      exact ((drafted_sublist drafted).trans own).trans (List.sublist_append_left _ _)
  case replaced =>
    rw [published, same]
    intro generation member different
    by_cases current : generation = system.state.generation
    · subst current
      refine ⟨thread, system.state.generation.succeeding handles, ?_⟩
      rw [replacing_next, if_pos rfl, drafted]
      rfl
    · have earlier : generation ∈ .initial :: publishedIn (exchanges events) := by
        rw [← List.cons_append, List.mem_append, List.mem_singleton] at member
        exact member.resolve_right different
      obtain ⟨index, latest, stage⟩ := registered.replaced generation earlier current
      refine ⟨index, latest, published_next stage ?_⟩
      rw [drafted]
      rfl

theorem other (registered : Registered events system) {instruction : Instruction V}
    {reply : instruction.Reply} (others : ¬ instruction.Registers)
    (answer : Answer thread system.state instruction reply next.state) :
    Registered (events ++ [⟨thread, instruction, reply⟩]) next := by
  have silent : publishedIn [(⟨instruction, reply⟩ : Exchange V)] = [] := by
    cases instruction with
    | publish => exact absurd trivial others
    | _ => rfl
  change Registered (events ++ (some ⟨thread, instruction, reply⟩ : Option (Event V)).toList) next
  refine registered.unregistered silent (fun index => ?_) (fun index => ?_)
    (answer.unregistered others)
  · rw [Option.toList_some, replacing_next]
    split
    · exact Replacing.after_alike _ reply others
    · exact .same _
  · by_cases same : thread = index
    · rw [same, Option.toList_some, exchangesOf_single_self]
      exact silent
    · rw [Option.toList_some, exchangesOf_single_other same, publishedIn_nil]

theorem step (registered : Registered events system) {event : Option (Event V)}
    (transition : Transition system move event next)
    (lawful : ∀ happened, event = some happened → Lawful events system happened) :
    Registered (events ++ event.toList) next := by
  cases event with
  | none =>
      refine registered.unregistered rfl (fun index => ?_) (fun _ => rfl) transition.unregistered
      rw [Option.toList_none, List.append_nil]
      exact .same _
  | some happened =>
      obtain ⟨thread, instruction, reply⟩ := happened
      obtain ⟨duty, rest, found, rule⟩ := lawful _ rfl
      have answer := transition.event.1
      cases instruction with
      | reserve =>
          cases duty with
          | call call => exact registered.reserve answer rule.2
          | job => exact rule.elim
      | release =>
          cases duty with
          | call call =>
              obtain ⟨replaced, handles, drafted⟩ := rule
              exact registered.release answer drafted
          | job => exact rule.elim
      | publish generation =>
          cases duty with
          | call call =>
              obtain ⟨replaced, handles, drafted, rfl, numbered⟩ := rule
              exact registered.publish answer drafted numbered
          | job => exact rule.elim
      | _ => exact registered.other id answer

end Registered

section Runs

variable {workers : Int} {pool : Pool} {evaluation : Evaluation} {moves : List (Move V)}
  {last : System V}

theorem registered_of_run (reached : (initial pool evaluation).run moves = some last) :
    Registered ((initial pool evaluation).trace moves) last := by
  refine run_induction (motive := fun moves system =>
    Registered ((initial pool evaluation).trace moves) system) (.initial pool evaluation) ?_ reached
  intro moves middle move next reached before stepped
  rw [trace_concat reached stepped]
  exact before.step (step_transition stepped) (lawful_of_event? reached stepped)

theorem configures_of_replacing (reached : (initial pool evaluation).run moves = some last)
    {index : Nat}
    (begun : replacing (exchangesOf index ((initial pool evaluation).trace moves)) ≠ .idle) :
    ∃ call program, last.threads[index]? = some ⟨.call call, program⟩ ∧ call.configures = true := by
  obtain ⟨before, replaced, after, own⟩ := reserved_of_replacing begun
  obtain ⟨cut, -⟩ := exists_cut reached own
  obtain ⟨duty, program, held, rule⟩ := performer_of_cut cut
  cases duty with
  | job => exact rule.elim
  | call call => exact ⟨call, program, held, rule.1⟩

theorem mem_published_of_current (reached : (initial pool evaluation).run moves = some last) :
    last.state.generation ∈ .initial ::
      publishedIn (exchanges ((initial pool evaluation).trace moves)) := by
  rw [(registered_of_run reached).current]
  exact List.getLastD_mem_cons

theorem mem_published_of_cut {event : Event V}
    (cut : Cut (initial pool evaluation) moves last event) :
    cut.moment.state.generation ∈ .initial ::
      publishedIn (exchanges ((initial pool evaluation).trace moves)) := by
  have member := mem_published_of_current cut.reached
  rw [cut.trace, exchanges_append, publishedIn_append, ← List.cons_append]
  exact List.mem_append_left _ member

/-- Whoever puts a generation in place is to configure, and has handed in its handles. -/
theorem publisher_of_cut {index : Nat} {next : Generation}
    (cut : Cut (initial pool evaluation) moves last ⟨index, .publish next, ()⟩) :
    ∃ call program, last.threads[index]? = some ⟨.call call, program⟩ ∧ call.configures = true ∧
      next.handles ⊆
        submittedIn (exchangesOf index ((initial pool evaluation).trace cut.early)) := by
  obtain ⟨duty, program, held, rule⟩ := performer_of_cut cut
  cases duty with
  | job => exact rule.elim
  | call call =>
      obtain ⟨replaced, handles, drafting, rfl, -⟩ := rule
      have begun : replacing (exchangesOf index ((initial pool evaluation).trace cut.early)) ≠
          .idle := by
        rw [drafting]
        exact Replacing.noConfusion
      obtain ⟨same, latest, found, configures⟩ := configures_of_replacing cut.reached begun
      obtain ⟨⟨duty, later⟩, there, rfl⟩ := duty_of_run cut.rest found
      rw [held] at there
      cases there
      exact ⟨call, program, held, configures, (drafted_submitted drafting).subset⟩

/-- The handles of a generation have been handed in by whoever has put it in place. -/
theorem supplier_of_published (reached : (initial pool evaluation).run moves = some last)
    {generation : Generation}
    (member : generation ∈ .initial ::
      publishedIn (exchanges ((initial pool evaluation).trace moves)))
    {handle : Handle} (included : handle ∈ generation.handles) :
    ∃ index call program, last.threads[index]? = some ⟨.call call, program⟩ ∧
      call.configures = true ∧
      handle ∈ submittedIn (exchangesOf index ((initial pool evaluation).trace moves)) := by
  rcases List.mem_cons.mp member with rfl | published
  · cases included
  · obtain ⟨⟨index, exchange⟩, happened, rfl⟩ := List.mem_map.mp (mem_publishedIn.mp published)
    obtain ⟨cut⟩ := cut_of_mem reached happened
    obtain ⟨call, program, found, configures, submitted⟩ := publisher_of_cut cut
    refine ⟨index, call, program, found, configures, ?_⟩
    rw [cut.own, submittedIn_append]
    exact List.mem_append_left _ (submitted included)

theorem submitted_of_published (reached : (initial pool evaluation).run moves = some last)
    {generation : Generation}
    (member : generation ∈ .initial ::
      publishedIn (exchanges ((initial pool evaluation).trace moves)))
    {handle : Handle} (included : handle ∈ generation.handles) :
    handle ∈ submittedIn (exchanges ((initial pool evaluation).trace moves)) := by
  obtain ⟨index, -, -, -, -, submitted⟩ := supplier_of_published reached member included
  exact ((exchangesOf_sublist index _).filterMap Exchange.submitted?).subset submitted

structure Superseded (index : Nat) (handle : Handle) (moment : System V) (moves : List (Move V))
    (last : System V) : Prop where
  kept : ∀ outcome, moment.state.condition handle = .resolved outcome →
    last.state.condition handle = .resolved outcome
  settled : (moment.state.condition handle).isResolved = false →
    (∃ callbacks, ⟨index, .resolve handle .superseded, some callbacks⟩ ∈ moment.trace moves ∧
      last.state.condition handle = .resolved .superseded) ∨
    (⟨index, .resolve handle .superseded, none⟩ ∈ moment.trace moves ∧
      ∃ event ∈ moment.trace moves, ∃ outcome,
        event.exchange.resolution? handle = some outcome ∧
        last.state.condition handle = .resolved outcome)

theorem Superseded.isResolved {index : Nat} {handle : Handle} {moment : System V}
    (superseded : Superseded index handle moment moves last) :
    (last.state.condition handle).isResolved = true := by
  cases condition : moment.state.condition handle with
  | resolved outcome =>
      rw [superseded.kept outcome condition]
      rfl
  | _ =>
      rcases superseded.settled (by rw [condition]; rfl) with ⟨_, -, settled⟩ |
        ⟨-, _, -, _, -, settled⟩ <;>
      · rw [settled]
        rfl

theorem superseded_of_asked {index : Nat} {handle : Handle} {moment : System V}
    (known : moment.state.Knows handle) (continued : moment.run moves = some last)
    {reply : Option (List Callback)}
    (asked : ⟨index, .resolve handle .superseded, reply⟩ ∈ moment.trace moves) :
    Superseded index handle moment moves last := by
  refine ⟨fun outcome resolved => (resolved_of_run continued resolved).1,
    fun unresolved => ?_⟩
  cases reply with
  | some callbacks =>
      refine .inl ⟨callbacks, asked, resolved_of_given known continued ?_⟩
      exact List.mem_filterMap.mpr ⟨_, List.mem_map.mpr ⟨_, asked, rfl⟩, by
        simp [Exchange.resolution?]⟩
  | none =>
      obtain ⟨cut⟩ := cut_of_mem continued asked
      have late : (cut.moment.state.condition handle).isResolved = true := by
        have answer := cut.transition.event.1
        simp only at answer
        generalize cut.next.state = later at answer
        cases answer with
        | tooLate _ late => exact late
      obtain ⟨outcome, condition⟩ := Condition.isResolved_iff.mp late
      have settled := (resolved_of_run cut.rest condition).1
      obtain ⟨event, happened, gives⟩ := given_of_run known continued unresolved settled
      exact .inr ⟨asked, event, happened, outcome, gives, settled⟩

def Replaces (start : System V) (moves : List (Move V)) (last : System V) (index : Nat)
    (number : Int) : Prop :=
  ∃ next, publishedIn (exchangesOf index (start.trace moves)) = [next] ∧ next.number = number ∧
    ∃ cut : Cut start moves last ⟨index, .publish next, ()⟩,
      number = cut.moment.state.generation.number + 1 ∧
      ∀ handle ∈ cut.moment.state.generation.handles,
        Superseded index handle cut.moment (cut.move :: cut.late) last

/-- A thread that was given a number has replaced a generation. -/
theorem replaces_of_configured (created : Pool.create? workers = .ok pool)
    (reached : (initial pool evaluation).run moves = some last) {index : Nat} {number : Int}
    (configured : Configured (exchangesOf index ((initial pool evaluation).trace moves))
      (.ok number)) :
    Replaces (initial pool evaluation) moves last index number ∧
      ∃ replaced next, replacing (exchangesOf index ((initial pool evaluation).trace moves)) =
          .published replaced next ∧
        ∀ handle ∈ replaced.handles, (last.state.condition handle).isResolved = true := by
  obtain ⟨replaced, handles, next, before, after, own, drafted, published, rfl, asked⟩ := configured
  obtain ⟨cut, earlier, following⟩ := exists_cut reached own
  have registered := registered_of_run cut.reached
  have current := (registered.drafting index replaced handles (earlier ▸ drafted)).2
  have superseded (handle : Handle) (member : handle ∈ cut.moment.state.generation.handles) :
      Superseded index handle cut.moment (cut.move :: cut.late) last := by
    obtain ⟨reply, done⟩ := asked handle (current ▸ member)
    have known := (sound_of_run created cut.reached).knows (registered.isOrderly.made.subset member)
    have asked : ⟨index, .resolve handle .superseded, reply⟩ ∈
        cut.moment.trace (cut.move :: cut.late) := by
      rw [cut.rest_trace]
      exact List.mem_cons_of_mem _ (mem_exchangesOf.mp (following ▸ done))
    exact superseded_of_asked known cut.rest asked
  refine ⟨⟨next, ?_, rfl, cut, ?_, superseded⟩, replaced, next, published, ?_⟩
  · rw [(registered_of_run reached).own, published]
    rfl
  · obtain ⟨duty, rest, found, rule⟩ := lawful_of_event? cut.reached cut.stepped _ cut.happens
    cases duty with
    | job => exact rule.elim
    | call call =>
        obtain ⟨other, more, also, rfl, -⟩ := rule
        rw [current, earlier, drafted] at *
        cases also
        rfl
  · exact fun handle member => (superseded handle (current ▸ member)).isResolved

theorem leaves_of_done (reached : (initial pool evaluation).run moves = some last) {index : Nat}
    {duty : Duty} {result : Result V} (found : last.threads[index]? = some ⟨duty, .done result⟩) :
    duty.Leaves (exchangesOf index ((initial pool evaluation).trace moves)) result :=
  thread_keeps reached found (duty_keeps duty)

theorem configured_of_done (reached : (initial pool evaluation).run moves = some last)
    {index : Nat} {call : Call} {result : Result V}
    (found : last.threads[index]? = some ⟨.call call, .done result⟩)
    (configures : call.configures = true) :
    ∃ given : Except Failure Int,
      Configured (exchangesOf index ((initial pool evaluation).trace moves)) given ∧
      ∀ failure, result = .error failure ↔ given = .error failure := by
  have leaves := leaves_of_done reached found
  cases call with
  | configure | openService =>
      obtain ⟨given, rfl, configured⟩ := leaves
      exact ⟨given, configured, fun failure => by cases given <;> simp [Except.map]⟩
  | _ => simp [Call.configures] at configures

/-- A call that fails puts no generation in place. -/
theorem unpublished_of_failed (reached : (initial pool evaluation).run moves = some last)
    {index : Nat} {call : Call} {failure : Failure}
    (found : last.threads[index]? = some ⟨.call call, .done (.error failure)⟩) :
    publishedIn (exchangesOf index ((initial pool evaluation).trace moves)) = [] := by
  rw [(registered_of_run reached).own]
  by_contra published
  have begun : replacing (exchangesOf index ((initial pool evaluation : System V).trace moves)) ≠
      .idle := by
    intro idle
    simp [idle, Replacing.next?] at published
  obtain ⟨same, program, held, configures⟩ := configures_of_replacing reached begun
  rw [found] at held
  cases held
  obtain ⟨given, configured, same⟩ := configured_of_done reached found configures
  rw [(same failure).mp rfl] at configured
  cases stage :
    replacing (exchangesOf index ((initial pool evaluation : System V).trace moves)) with
  | published replaced next => exact configured replaced next stage
  | _ => simp [stage, Replacing.next?] at published

/-- What was replaced has resolved once whoever has replaced it has come to its end. -/
theorem resolved_of_replaced (created : Pool.create? workers = .ok pool)
    (reached : (initial pool evaluation).run moves = some last) {generation : Generation}
    (member : generation ∈ .initial ::
      publishedIn (exchanges ((initial pool evaluation).trace moves)))
    (different : generation ≠ last.state.generation)
    (ended : ∀ index call program next, last.threads[index]? = some ⟨.call call, program⟩ →
      call.configures = true → replacing (exchangesOf index
        ((initial pool evaluation).trace moves)) = .published generation next →
      ∃ result, program = .done result)
    {handle : Handle} (included : handle ∈ generation.handles) :
    (last.state.condition handle).isResolved = true := by
  obtain ⟨index, next, stage⟩ := (registered_of_run reached).replaced generation member different
  have begun : replacing (exchangesOf index ((initial pool evaluation : System V).trace moves)) ≠
      .idle := by
    simp [stage]
  obtain ⟨call, program, found, configures⟩ := configures_of_replacing reached begun
  obtain ⟨result, rfl⟩ := ended index call program next found configures stage
  obtain ⟨given, configured, -⟩ := configured_of_done reached found configures
  cases given with
  | error failure => exact absurd stage (configured generation next)
  | ok number =>
      obtain ⟨-, replaced, latest, same, resolved⟩ :=
        replaces_of_configured created reached configured
      rw [stage] at same
      cases same
      exact resolved handle included

/-- How the registry of a system stands after a run. -/
structure InOrder (start : System V) (moves : List (Move V)) (last : System V) : Prop where
  corresponds : last.state.generation.handles.map (·.source) = last.state.generation.sources
  numbered : ∀ handle ∈ last.state.generation.handles,
    handle.generation = last.state.generation.number
  distinct : (last.state.generation.handles.map (·.id)).Nodup
  current : last.state.generation =
    (publishedIn (exchanges (start.trace moves))).getLastD .initial
  numbers : (publishedIn (exchanges (start.trace moves))).map (·.number) =
    successiveNumbers (publishedIn (exchanges (start.trace moves))).length
  configured : ∀ index surroundings base locations number,
    last.threads[index]? =
      some ⟨.call (.configure surroundings base locations), .done (.ok (.number number))⟩ →
    Replaces start moves last index number
  opened : ∀ index ownsPool surroundings base locations answer,
    last.threads[index]? =
      some ⟨.call (.openService ownsPool surroundings base locations), .done (.ok answer)⟩ →
    ∃ number, Replaces start moves last index number
  refused : ∀ index call failure,
    last.threads[index]? = some ⟨.call call, .done (.error failure)⟩ →
    publishedIn (exchangesOf index (start.trace moves)) = []
  -- While nobody configures, whatever is not current any more has come to its end.
  retired : (∀ thread ∈ last.threads, ∀ call, thread.duty = .call call →
      call.configures = true → thread.result?.isSome) →
    ∀ generation ∈ .initial :: publishedIn (exchanges (start.trace moves)),
      generation ≠ last.state.generation →
      ∀ handle ∈ generation.handles, (last.state.condition handle).isResolved = true

def reconfiguring : List (Move Unit) :=
  -- One rule set is configured, and then none.
  [.call .start, .advance 0,
    .call (.configure ⟨default, fun _ => none⟩ none [.resolved default]),
    .advance 1, .advance 1, .advance 1, .advance 1, .advance 1,
    .take 0, .begin 0 ⟨0, default, 1⟩, .advance 2,
    .call (.configure ⟨default, fun _ => none⟩ none []),
    .advance 3, .advance 3, .advance 3, .advance 3]

end Runs

end System

end Schematron.Engine

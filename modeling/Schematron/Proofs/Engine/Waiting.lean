import Schematron.Proofs.Engine.Evaluation
import Schematron.Proofs.Engine.Scheduling

/-!
Waiting: what an evaluation can still be waiting for when everybody who can go on has gone on. Main
statement: it is a handle of the current generation that a running pool has not come to the end of,
and never one that was replaced, closed or abandoned.
-/

namespace Schematron.Engine

open Program

variable {V : Type}

def Call.evaluates : Call → Bool
  | evaluate _ => true
  | validate .. => true
  | reportOnly _ => true
  | _ => false

def visitRule : Rule V := fun past instruction =>
  match instruction with
  | .await handle limit =>
      (∃ generation, ⟨.snapshot, generation⟩ ∈ past ∧ handle ∈ generation.handles) ∧
        ∃ settings, ⟨.evaluation, settings⟩ ∈ past ∧ limit = settings.patience
  | .drain _ => False
  | .reserve => False
  | .compile _ => False
  | _ => True

theorem runAll_visits (document : Document) {generation : Generation} {handles : List Handle}
    (included : ∀ handle ∈ handles, handle ∈ generation.handles) {past : List (Exchange V)}
    (seen : ⟨.snapshot, generation⟩ ∈ past) :
    (runAll document handles).Keeps visitRule (fun _ _ => True) past := by
  induction handles generalizing past with
  | nil => trivial
  | cons handle rest ih =>
      have others (handle : Handle) (member : handle ∈ rest) : handle ∈ generation.handles :=
        included handle (List.mem_cons_of_mem _ member)
      refine ⟨trivial, fun settings _ => ⟨⟨?_, settings, ?_, rfl⟩, fun delivered _ => ?_⟩⟩
      · exact ⟨generation, List.mem_append_left _ seen, included handle List.mem_cons_self⟩
      · exact List.mem_append_right _ (List.mem_singleton_self _)
      cases delivered with
      | error failure => trivial
      | ok validator =>
          refine ⟨trivial, fun found _ => ?_⟩
          cases found with
          | error failure => trivial
          | ok diagnostics =>
              simp only [Program.bind, keeps_bind]
              refine (ih others ?_).mono fun _ _ _ => trivial
              simp [seen]

theorem evaluate_visits (document : Document) :
    (evaluate document : Program V (Except Failure Report)).Keeps visitRule (fun _ _ => True)
      [] := by
  simp only [evaluate, keeps_bind]
  refine ⟨trivial, fun evaluation _ => ?_⟩
  simp only [Keeps]
  split
  · simp only [snapshot, keeps_bind]
    refine ⟨trivial, fun generation _ => ?_⟩
    refine (runAll_visits document (fun _ member => member) ?_).mono fun _ _ _ => trivial
    simp
  · trivial

theorem call_visits {call : Call} (evaluates : call.evaluates = true) :
    (call.program : Program V (Result V)).Keeps visitRule (fun _ _ => True) [] := by
  cases call with
  | evaluate document =>
      simp only [Call.program, keeps_bind]
      exact (evaluate_visits document).mono fun _ _ _ => trivial
  | validate document suppresses =>
      simp only [Call.program, validate, keeps_bind]
      exact (evaluate_visits document).mono fun _ _ _ => trivial
  | reportOnly document =>
      simp only [Call.program, reportOnly, keeps_bind]
      refine (evaluate_visits document).mono fun past found _ => ?_
      cases found with
      | ok report => trivial
      | error failure =>
          change Keeps _ _ _ (if failure.isForeign then _ else _)
          split
          · trivial
          · split
            · trivial
            · exact ⟨trivial, fun _ _ => trivial⟩
  | _ => cases evaluates

namespace System

section Runs

variable {workers : Int} {pool : Pool} {evaluation : Evaluation} {moves : List (Move V)}
  {last : System V}

/-- Whoever looks at a generation sees the initial one, or one that was put in place. -/
theorem mem_published_of_snapshot (reached : (initial pool evaluation).run moves = some last)
    {index : Nat} {generation : Generation}
    (seen : ⟨index, .snapshot, generation⟩ ∈ (initial pool evaluation).trace moves) :
    generation ∈ .initial :: publishedIn (exchanges ((initial pool evaluation).trace moves)) := by
  obtain ⟨cut⟩ := cut_of_mem reached seen
  have member := mem_published_of_cut cut
  rwa [cut.answer.snapshotted] at member

theorem knows_of_seen (created : Pool.create? workers = .ok pool) {index : Nat}
    {generation : Generation}
    (cut : Cut (initial pool evaluation) moves last ⟨index, .snapshot, generation⟩)
    {handle : Handle} (included : handle ∈ generation.handles) :
    cut.moment.state.Knows handle := by
  have member := mem_published_of_current cut.reached
  rw [cut.answer.snapshotted] at member
  have submitted := submitted_of_published cut.reached member included
  exact (sound_of_run created cut.reached).knows ((submittedIn_sublist_madeIn _).subset submitted)

/-- Whatever a call has closed has resolved. -/
theorem Settled.resolved_of_seen (settled : last.Settled)
    (created : Pool.create? workers = .ok pool)
    (reached : (initial pool evaluation).run moves = some last) {index : Nat} {call : Call}
    {program : Program V (Result V)} (found : last.threads[index]? = some ⟨.call call, program⟩)
    (closes : call.closes = true) {generation : Generation}
    (seen : ⟨index, .snapshot, generation⟩ ∈ (initial pool evaluation).trace moves)
    {handle : Handle} (included : handle ∈ generation.handles) :
    (last.state.condition handle).isResolved = true := by
  refine settled.resolved_of_burden reached found seen ?_ fun cut => ?_
  · simpa [Exchange.burden, Duty.closes, closes] using included
  · exact knows_of_seen created cut included

/-- A handle that an evaluation of a settled system is waiting for. -/
structure AwaitsCurrent (start : System V) (moves : List (Move V)) (last : System V) (index : Nat)
    (handle : Handle) : Prop where
  unresolved : last.state.condition handle = .pending ∨ last.state.condition handle = .running
  current : handle ∈ last.state.generation.handles
  serves : last.state.pool.isRunning = true
  seen : ⟨index, .snapshot, last.state.generation⟩ ∈ start.trace moves
  unreplaced : ∀ generation ∈ .initial :: publishedIn (exchanges (start.trace moves)),
    generation ≠ last.state.generation → handle ∉ generation.handles
  unclosed : ∀ closer call program generation,
    last.threads[closer]? = some ⟨.call call, program⟩ → call.closes = true →
    ⟨closer, .snapshot, generation⟩ ∈ start.trace moves → handle ∉ generation.handles
  unabandoned : ∀ thread executor outstanding,
    ⟨thread, .closePool, (executor, outstanding)⟩ ∈ start.trace moves → handle ∉ outstanding

def outwaiting : List (Move Unit) :=
  -- An evaluation waits for a rule set inside its compilation, which is then replaced; another
  -- one waits for what replaced it.
  [.call .start, .advance 0,
    .call (.configure ⟨default, fun _ => none⟩ none [.resolved default]),
    .advance 1, .advance 1, .advance 1, .advance 1, .advance 1,
    .take 0, .begin 0 ⟨0, default, 1⟩, .advance 2,
    .call (.evaluate ⟨some [.ofNat 60], none, none, "metadata"⟩),
    .advance 3, .advance 3, .advance 3,
    .call (.configure ⟨default, fun _ => none⟩ none [.resolved default]),
    .advance 4, .advance 4, .advance 4, .advance 4, .advance 4, .advance 4, .advance 3,
    .call (.evaluate ⟨some [.ofNat 60], none, none, "metadata"⟩),
    .advance 5, .advance 5, .advance 5]

end Runs

end System

end Schematron.Engine

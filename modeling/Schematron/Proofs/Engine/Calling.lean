import Schematron.Proofs.Engine.Duties

/-!
Calling: what a thread does about callbacks. Main statement: it calls what it has taken over by
resolving a handle, and what it has registered too late, in order and before it does anything else.
-/

namespace Schematron.Engine

open Program

variable {V α β : Type}

def Callback.host? : Callback → Option Nat
  | noteFailure => none
  | host id => some id

namespace Exchange

variable (handle : Handle)

def taken : Exchange V → List Callback
  | ⟨.resolve target _, some callbacks⟩ => if target.id = handle.id then callbacks else []
  | _ => []

def kept : Exchange V → List Callback
  | ⟨.register target callback, none⟩ => if target.id = handle.id then [callback] else []
  | _ => []

def late : Exchange V → List Callback
  | ⟨.register target callback, some _⟩ => if target.id = handle.id then [callback] else []
  | _ => []

def due (exchange : Exchange V) : List Nat :=
  (exchange.taken handle ++ exchange.late handle).filterMap Callback.host?

def called : Exchange V → List Nat
  | ⟨.call id target, _⟩ => if target.id = handle.id then [id] else []
  | _ => []

end Exchange

def Instruction.IsSilent : Instruction V → Prop
  | .resolve .. => False
  | .register .. => False
  | .call .. => False
  | _ => True

def hostsOf (handle target : Handle) (callbacks : List Callback) : List Nat :=
  if target.id = handle.id then callbacks.filterMap Callback.host? else []

theorem hostsOf_cons (handle target : Handle) (callback : Callback) (callbacks : List Callback) :
    hostsOf handle target (callback :: callbacks) =
      hostsOf handle target [callback] ++ hostsOf handle target callbacks := by
  simp only [hostsOf]
  split
  · rw [← List.filterMap_append, List.singleton_append]
  · rfl

def Owes (handle : Handle) (past : List (Exchange V)) (owed : List Nat) : Prop :=
  past.flatMap (Exchange.due handle) = past.flatMap (Exchange.called handle) ++ owed

namespace Owes

variable {handle target : Handle} {past : List (Exchange V)} {owed : List Nat}

theorem ahead (owes : Owes handle past owed) :
    past.flatMap (Exchange.called handle) <+: past.flatMap (Exchange.due handle) :=
  ⟨owed, owes.symm⟩

theorem concat (owes : Owes handle past owed) {exchange : Exchange V} {more : List Nat}
    (follows : owed ++ exchange.due handle = exchange.called handle ++ more) :
    Owes handle (past ++ [exchange]) more := by
  unfold Owes at owes ⊢
  rw [List.flatMap_append, List.flatMap_append, List.flatMap_singleton, List.flatMap_singleton,
    owes, List.append_assoc, follows, List.append_assoc]

theorem silent (owes : Owes handle past owed) (instruction : Instruction V)
    (silent : instruction.IsSilent) (reply : instruction.Reply) :
    Owes handle (past ++ [⟨instruction, reply⟩]) owed := by
  refine owes.concat ?_
  cases instruction with
  | resolve | register | call => exact silent.elim
  | _ => exact List.append_nil owed

theorem called {id : Nat} (owes : Owes handle past (hostsOf handle target [.host id] ++ owed))
    (raised : Option Failure) : Owes handle (past ++ [⟨.call id target, raised⟩]) owed :=
  owes.concat (List.append_nil _)

theorem taken (owes : Owes handle past []) (target : Handle) (outcome : Outcome V)
    (callbacks : List Callback) :
    Owes handle (past ++ [⟨.resolve target outcome, some callbacks⟩])
      (hostsOf handle target callbacks) := by
  refine owes.concat ?_
  simp only [Exchange.due, Exchange.taken, Exchange.late, Exchange.called, hostsOf]
  split <;> simp

theorem late (owes : Owes handle past []) (target : Handle) (callback : Callback)
    (outcome : Outcome V) :
    Owes handle (past ++ [⟨.register target callback, some outcome⟩])
      (hostsOf handle target [callback]) := by
  refine owes.concat ?_
  simp only [Exchange.due, Exchange.taken, Exchange.late, Exchange.called, hostsOf]
  split <;> simp

end Owes

/-! How callbacks are called -/

def failedRecord (handle : Handle) (failure : CompilationFailure) : LogRecord :=
  ⟨.warning, .registry,
    "Rule set " ++ handle.source.toString ++ " failed to compile: " ++ failure.message⟩

def raisedRecord (handle : Handle) : LogRecord :=
  ⟨.error, .pool, "Callback for compilation of " ++ handle.source.toString ++ " raised"⟩

inductive Invoked (handle : Handle) (outcome : Outcome V) :
    Callback → Option Failure → List (Exchange V) → Prop
  | noted {failure : CompilationFailure} : outcome = .failed failure →
      Invoked handle outcome .noteFailure none [⟨.note (failedRecord handle failure), ()⟩]
  | silent : (∀ failure, outcome ≠ .failed failure) →
      Invoked handle outcome .noteFailure none []
  | called (id : Nat) (raised : Option Failure) :
      Invoked handle outcome (.host id) raised [⟨.call id handle, raised⟩]

inductive Notified (handle : Handle) (outcome : Outcome V) :
    List Callback → List (Exchange V) → Prop
  | nil : Notified handle outcome [] []
  | returned {callback : Callback} {callbacks : List Callback} {script after : List (Exchange V)} :
      Invoked handle outcome callback none script → Notified handle outcome callbacks after →
      Notified handle outcome (callback :: callbacks) (script ++ after)
  | raised {callback : Callback} {callbacks : List Callback} {failure : Failure}
      {script after : List (Exchange V)} :
      Invoked handle outcome callback (some failure) script →
      Notified handle outcome callbacks after →
      Notified handle outcome (callback :: callbacks)
        (script ++ ⟨.note (raisedRecord handle), ()⟩ :: after)

def Exchange.Answered : Exchange V → List (Exchange V) → Prop
  | ⟨.resolve handle outcome, some callbacks⟩, rest =>
      ∃ script after, rest = script ++ after ∧ Notified handle outcome callbacks script
  | ⟨.register handle callback, some outcome⟩, rest =>
      ∃ raised script after, rest = script ++ after ∧
        Invoked handle outcome callback raised script
  | _, _ => True

theorem Exchange.Answered.append {exchange : Exchange V} {rest : List (Exchange V)}
    (answered : exchange.Answered rest) (more : List (Exchange V)) :
    exchange.Answered (rest ++ more) := by
  obtain ⟨instruction, reply⟩ := exchange
  cases instruction with
  | resolve handle outcome =>
      cases reply with
      | none => trivial
      | some callbacks =>
          obtain ⟨script, after, rfl, notified⟩ := answered
          exact ⟨script, after ++ more, List.append_assoc .., notified⟩
  | register handle callback =>
      cases reply with
      | none => trivial
      | some outcome =>
          obtain ⟨raised, script, after, rfl, invoked⟩ := answered
          exact ⟨raised, script, after ++ more, List.append_assoc .., invoked⟩
  | _ => trivial

def Answered : List (Exchange V) → Prop
  | [] => True
  | exchange :: rest => exchange.Answered rest ∧ Answered rest

theorem Answered.append {first second : List (Exchange V)} (answered : Answered first)
    (also : Answered second) : Answered (first ++ second) := by
  induction first with
  | nil => exact also
  | cons exchange rest ih => exact ⟨answered.1.append second, ih answered.2⟩

theorem Answered.of_append {first second : List (Exchange V)}
    (answered : Answered (first ++ second)) : Answered second := by
  induction first with
  | nil => exact answered
  | cons exchange rest ih => exact ih answered.2

theorem answered_of_silent {past : List (Exchange V)}
    (silent : ∀ exchange ∈ past, exchange.instruction.IsSilent) : Answered past := by
  induction past with
  | nil => trivial
  | cons exchange rest ih =>
      refine ⟨?_, ih fun other member => silent other (List.mem_cons_of_mem _ member)⟩
      have quiet := silent exchange List.mem_cons_self
      obtain ⟨instruction, reply⟩ := exchange
      cases instruction with
      | resolve | register | call => exact quiet.elim
      | _ => trivial

theorem Instruction.CallsBack.answered {handle : Handle} {past : List (Exchange V)}
    (callsBack : ∀ exchange ∈ past, exchange.instruction.CallsBack handle) : Answered past := by
  induction past with
  | nil => trivial
  | cons exchange rest ih =>
      refine ⟨?_, ih fun other member => callsBack other (List.mem_cons_of_mem _ member)⟩
      have calls := callsBack exchange List.mem_cons_self
      obtain ⟨instruction, reply⟩ := exchange
      cases instruction with
      | note | call => trivial
      | _ => exact calls.elim

/-! What programs call -/

def callRule (handle : Handle) : Rule V := fun past instruction =>
  past.flatMap (Exchange.called handle) <+: past.flatMap (Exchange.due handle) ∧
    ∀ id target, instruction = .call id target → target.id = handle.id →
      past.flatMap (Exchange.called handle) ++ [id] <+: past.flatMap (Exchange.due handle)

def Program.Calls (handle : Handle) (program : Program V α) : Prop :=
  ∀ past, Owes handle past [] → program.Keeps (callRule handle)
    (fun later _ => ∃ after, later = past ++ after ∧ Answered after ∧ Owes handle later []) past

def Program.Absorbs : Program V α → Prop
  | .done _ => True
  | .step (.call _ handle) next =>
      (∀ failure, next (some failure) = .step (.note (raisedRecord handle)) fun _ => next none) ∧
        ∀ raised, (next raised).Absorbs
  | .step _ next => ∀ reply, (next reply).Absorbs

structure Program.Answers (handle : Handle) (program : Program V α) : Prop where
  calls : program.Calls handle
  absorbs : program.Absorbs

theorem Program.Absorbs.next {instruction : Instruction V} {rest : instruction.Reply → Program V α}
    (absorbs : (Program.step instruction rest).Absorbs) (reply : instruction.Reply) :
    (rest reply).Absorbs := by
  cases instruction with
  | call id handle => exact absorbs.2 reply
  | _ => exact absorbs reply

theorem absorbs_step {instruction : Instruction V} {rest : instruction.Reply → Program V α}
    (other : ∀ id handle, instruction ≠ .call id handle)
    (absorbs : ∀ reply, (rest reply).Absorbs) : (Program.step instruction rest).Absorbs := by
  cases instruction with
  | call id handle => exact absurd rfl (other id handle)
  | _ => exact absorbs

theorem Program.Absorbs.bind {program : Program V α} {next : α → Program V β}
    (first : program.Absorbs) (rest : ∀ answer, (next answer).Absorbs) :
    (program >>= next).Absorbs := by
  change (program.bind next).Absorbs
  induction program with
  | done answer => exact rest answer
  | step instruction program ih =>
      cases instruction with
      | call id handle =>
          refine ⟨fun failure => ?_, fun raised => ih raised (first.2 raised)⟩
          change (program (some failure)).bind next = _
          rw [first.1 failure]
          rfl
      | _ => exact fun reply => ih reply (first reply)

section Programs

variable {handle : Handle} {past : List (Exchange V)}

theorem calls_pure (answer : α) : (pure answer : Program V α).Calls handle :=
  fun past even => ⟨[], (List.append_nil past).symm, trivial, even⟩

theorem answers_pure (answer : α) : (pure answer : Program V α).Answers handle :=
  ⟨calls_pure answer, trivial⟩

theorem Program.Calls.bind {program : Program V α} {next : α → Program V β}
    (first : program.Calls handle) (rest : ∀ answer, (next answer).Calls handle) :
    (program >>= next).Calls handle := by
  intro past even
  rw [keeps_bind]
  refine (first past even).mono ?_
  rintro _ answer ⟨before, rfl, answered, even⟩
  refine (rest answer _ even).mono ?_
  rintro _ _ ⟨after, rfl, also, even⟩
  exact ⟨before ++ after, List.append_assoc .., answered.append also, even⟩

theorem Program.Answers.bind {program : Program V α} {next : α → Program V β}
    (first : program.Answers handle) (rest : ∀ answer, (next answer).Answers handle) :
    (program >>= next).Answers handle :=
  ⟨first.calls.bind fun answer => (rest answer).calls,
    first.absorbs.bind fun answer => (rest answer).absorbs⟩

theorem Program.Uses.absorbs {program : Program V α} (uses : program.Uses Instruction.IsSilent) :
    program.Absorbs := by
  induction program with
  | done answer => trivial
  | step instruction program ih =>
      refine absorbs_step ?_ fun reply => ih reply (uses.2 reply)
      rintro id target rfl
      exact uses.1

theorem Program.Uses.answers {program : Program V α} (uses : program.Uses Instruction.IsSilent) :
    program.Answers handle := by
  refine ⟨fun past even => ?_, uses.absorbs⟩
  have keeps : program.Keeps (callRule handle) (fun later _ => Owes handle later []) past := by
    refine uses.keeps (fun later instruction silent even => ⟨even.ahead, ?_⟩)
      (fun later instruction reply silent even => even.silent instruction silent reply) even
    rintro id target rfl
    exact silent.elim
  refine (keeps.and (uses.adds past)).mono ?_
  rintro _ _ ⟨even, after, rfl, silent⟩
  exact ⟨after, rfl, answered_of_silent silent, even⟩

theorem invoke_calls {target : Handle} (outcome : Outcome V) (callback : Callback)
    {owed : List Nat} (owes : Owes handle past (hostsOf handle target [callback] ++ owed)) :
    (invoke target outcome callback).Keeps (callRule handle) (fun later raised =>
      (∃ script, later = past ++ script ∧ Invoked target outcome callback raised script) ∧
      Owes handle later owed) past := by
  cases callback with
  | noteFailure =>
      have nothing : hostsOf handle target [.noteFailure] = [] := by simp [hostsOf, Callback.host?]
      rw [nothing, List.nil_append] at owes
      cases outcome with
      | failed failure =>
          refine ⟨⟨owes.ahead, by simp⟩, fun reply _ => ⟨⟨[_], rfl, .noted rfl⟩, ?_⟩⟩
          exact owes.silent (.note _) trivial reply
      | _ => exact ⟨⟨[], by simp, .silent (by simp)⟩, owes⟩
  | host id =>
      refine ⟨⟨owes.ahead, ?_⟩, fun raised _ => ⟨⟨[_], rfl, .called id raised⟩, owes.called raised⟩⟩
      rintro _ _ ⟨rfl, rfl⟩ same
      unfold Owes at owes
      rw [owes, hostsOf, if_pos same]
      exact ⟨owed, by simp [Callback.host?]⟩

theorem notify_calls {target : Handle} (outcome : Outcome V) (callbacks : List Callback)
    (owes : Owes handle past (hostsOf handle target callbacks)) :
    (notify target outcome callbacks).Keeps (callRule handle) (fun later _ =>
      (∃ script, later = past ++ script ∧ Notified target outcome callbacks script) ∧
      Owes handle later []) past := by
  induction callbacks generalizing past with
  | nil =>
      have nothing : hostsOf handle target [] = [] := by simp [hostsOf]
      exact ⟨⟨[], by simp, .nil⟩, nothing ▸ owes⟩
  | cons callback rest ih =>
      rw [hostsOf_cons] at owes
      simp only [notify, keeps_bind]
      refine (invoke_calls outcome callback owes).mono ?_
      rintro _ raised ⟨⟨script, rfl, invoked⟩, owes⟩
      cases raised with
      | none =>
          refine (ih owes).mono ?_
          rintro _ _ ⟨⟨after, rfl, notified⟩, even⟩
          exact ⟨⟨script ++ after, List.append_assoc .., .returned invoked notified⟩, even⟩
      | some failure =>
          refine ⟨⟨owes.ahead, by simp⟩, fun reply _ => ?_⟩
          refine (ih (owes.silent (.note _) trivial reply)).mono ?_
          rintro _ _ ⟨⟨after, rfl, notified⟩, even⟩
          refine ⟨⟨script ++ ⟨.note (raisedRecord target), ()⟩ :: after, ?_,
            .raised invoked notified⟩, even⟩
          simp [raisedRecord]

theorem notify_absorbs (target : Handle) (outcome : Outcome V) (callbacks : List Callback) :
    (notify target outcome callbacks).Absorbs := by
  induction callbacks with
  | nil => trivial
  | cons callback rest ih =>
      cases callback with
      | host id =>
          refine ⟨fun failure => rfl, fun raised => ?_⟩
          cases raised with
          | none => exact ih
          | some failure => exact absorbs_step (by simp) fun _ => ih
      | noteFailure =>
          cases outcome with
          | failed failure => exact absorbs_step (by simp) fun _ => ih
          | _ => exact ih

theorem resolve_answers (target : Handle) (outcome : Outcome V) :
    (resolve target outcome).Answers handle := by
  constructor
  case absorbs =>
    refine absorbs_step (by simp) fun found => ?_
    cases found with
    | none => trivial
    | some callbacks => exact (notify_absorbs target outcome callbacks).bind fun _ => trivial
  intro past even
  simp only [resolve, keeps_bind]
  refine ⟨⟨even.ahead, by simp⟩, fun found _ => ?_⟩
  cases found with
  | none =>
      refine ⟨[⟨.resolve target outcome, none⟩], rfl, ⟨trivial, trivial⟩, ?_⟩
      exact even.concat rfl
  | some callbacks =>
      have owes := even.taken target outcome callbacks
      simp only [Keeps, keeps_bind]
      refine ((notify_calls outcome callbacks owes).and
        ((notify_uses target outcome callbacks).adds _)).mono ?_
      rintro _ _ ⟨⟨⟨script, rfl, notified⟩, even⟩, after, same, callsBack⟩
      obtain rfl := List.append_cancel_left same
      refine ⟨⟨.resolve target outcome, some callbacks⟩ :: script, by simp, ⟨?_, ?_⟩, even⟩
      · exact ⟨script, [], by simp, notified⟩
      · exact Instruction.CallsBack.answered callsBack

theorem onDone_calls (target : Handle) (callback : Callback) :
    (onDone target callback : Program V (Option Failure)).Calls handle := by
  intro past even
  simp only [onDone, keeps_bind]
  refine ⟨⟨even.ahead, by simp⟩, fun found _ => ?_⟩
  cases found with
  | none =>
      refine ⟨[⟨.register target callback, none⟩], rfl, ⟨trivial, trivial⟩, ?_⟩
      exact even.concat rfl
  | some outcome =>
      have owes := even.late target callback outcome
      rw [← List.append_nil (hostsOf handle target [callback])] at owes
      refine ((invoke_calls outcome callback owes).and
        ((invoke_uses target outcome callback).adds _)).mono ?_
      rintro _ raised ⟨⟨⟨script, rfl, invoked⟩, even⟩, after, same, callsBack⟩
      obtain rfl := List.append_cancel_left same
      refine ⟨⟨.register target callback, some outcome⟩ :: script, by simp, ⟨?_, ?_⟩, even⟩
      · exact ⟨raised, script, [], by simp, invoked⟩
      · exact Instruction.CallsBack.answered callsBack

theorem resolveAll_answers (outcome : Outcome V) (handles : List Handle) :
    (resolveAll outcome handles).Answers handle := by
  induction handles with
  | nil => exact answers_pure 0
  | cons target rest ih =>
      exact (resolve_answers target outcome).bind fun isFirst => ih.bind fun _ => answers_pure _

/-- The registry is never called by raising. -/
theorem onDone_answers (target : Handle) :
    (onDone target .noteFailure : Program V (Option Failure)).Answers handle := by
  refine ⟨onDone_calls target .noteFailure, absorbs_step (by simp) fun found => ?_⟩
  cases found with
  | none => trivial
  | some outcome =>
      cases outcome with
      | failed failure => exact absorbs_step (by simp) fun _ => trivial
      | _ => trivial

theorem watchAll_answers (handles : List Handle) :
    (watchAll handles : Program V Unit).Answers handle := by
  induction handles with
  | nil => exact answers_pure ()
  | cons target rest ih => exact (onDone_answers target).bind fun _ => ih

theorem send_answers (instruction : Instruction V) (silent : instruction.IsSilent) :
    (send instruction).Answers handle :=
  (uses_send instruction silent).answers

theorem noteAll_answers (records : List LogRecord) :
    (noteAll records : Program V Unit).Answers handle := by
  induction records with
  | nil => exact answers_pure ()
  | cons record rest ih => exact (send_answers (.note record) trivial).bind fun _ => ih

theorem close_answers : (close : Program V Unit).Answers handle :=
  (send_answers .snapshot trivial).bind fun generation =>
    (resolveAll_answers .cancelled generation.handles).bind fun _ => answers_pure ()

theorem shutdown_answers (waits : Bool) : (shutdown waits : Program V Unit).Answers handle := by
  refine (send_answers .closePool trivial).bind fun closed => ?_
  refine (resolveAll_answers .cancelled closed.2).bind fun _ => ?_
  cases closed.1 with
  | none => exact answers_pure ()
  | some executor =>
      refine (send_answers (.abandon executor) trivial).bind fun _ => ?_
      cases waits with
      | false => exact answers_pure ()
      | true => exact send_answers (.drain executor) trivial

theorem replaceGeneration_answers (sources : List RuleSource) :
    (replaceGeneration sources : Program V (Except Failure Int)).Answers handle := by
  refine (send_answers .reserve trivial).bind fun replaced => ?_
  have submits : (submitAll (replaced.number + 1) sources : Program V _).Uses
      Instruction.IsSilent := by
    refine (submitAll_uses (replaced.number + 1) sources).mono ?_
    rintro _ ⟨source, generation, rfl⟩
    trivial
  refine submits.answers.bind fun submitted => ?_
  obtain ⟨handles, refusal⟩ := submitted
  cases refusal with
  | some failure =>
      refine (resolveAll_answers .cancelled handles).bind fun _ => ?_
      exact (send_answers .release trivial).bind fun _ => answers_pure _
  | none =>
      refine (send_answers (.publish _) trivial).bind fun _ => ?_
      refine (watchAll_answers handles).bind fun _ => ?_
      refine (resolveAll_answers .superseded replaced.handles).bind fun _ => ?_
      exact (send_answers (.note _) trivial).bind fun _ => answers_pure _

theorem configure_answers (surroundings : Surroundings) (base : Option String)
    (locations : List RuleLocation) :
    (configure surroundings base locations : Program V _).Answers handle := by
  simp only [configure]
  split
  · exact answers_pure _
  · exact replaceGeneration_answers _

theorem Instruction.Evaluates.isSilent (instruction : Instruction V)
    (evaluates : instruction.Evaluates) : instruction.IsSilent := by
  cases instruction with
  | evaluation | await | run | snapshot | note => trivial
  | _ => exact evaluates.elim

theorem openService_answers (ownsPool : Bool) (surroundings : Surroundings) (base : Option String)
    (locations : List RuleLocation) :
    (openService ownsPool surroundings base locations : Program V _).Answers handle := by
  have configures : (configure surroundings base locations : Program V _).Answers handle :=
    configure_answers surroundings base locations
  cases ownsPool with
  | false =>
      refine configures.bind fun found => ?_
      cases found <;> exact answers_pure _
  | true =>
      refine (send_answers .openPool trivial).bind fun _ => configures.bind fun found => ?_
      cases found with
      | ok number => exact answers_pure _
      | error failure => exact (shutdown_answers true).bind fun _ => answers_pure _

theorem closeService_answers (ownsPool : Bool) :
    (closeService ownsPool : Program V Unit).Answers handle := by
  refine close_answers.bind fun _ => ?_
  cases ownsPool with
  | false => exact answers_pure ()
  | true => exact shutdown_answers true

def Call.registers : Call → Bool
  | onDone .. => true
  | _ => false

theorem call_answers {call : Call} (other : call.registers = false) :
    (call.program : Program V (Result V)).Answers handle := by
  cases call with
  | create source generation =>
      exact (send_answers (.create source generation) trivial).bind fun _ => answers_pure _
  | start => exact (send_answers .openPool trivial).bind fun _ => answers_pure _
  | shutdown waits => exact (shutdown_answers waits).bind fun _ => answers_pure _
  | submit source generation =>
      exact (send_answers (.submit source generation) trivial).bind fun _ => answers_pure _
  | cancel target isSuperseded => exact (resolve_answers target _).bind fun _ => answers_pure _
  | onDone => cases other
  | await target limit =>
      exact (send_answers (.await target limit) trivial).bind fun _ => answers_pure _
  | configure surroundings base locations =>
      exact (configure_answers surroundings base locations).bind fun _ => answers_pure _
  | close => exact close_answers.bind fun _ => answers_pure _
  | snapshot => exact (send_answers .snapshot trivial).bind fun _ => answers_pure _
  | evaluate document =>
      exact ((evaluate_uses document).mono Instruction.Evaluates.isSilent).answers.bind
        fun _ => answers_pure _
  | validate document suppresses =>
      exact ((validate_uses document suppresses).mono Instruction.Evaluates.isSilent).answers.bind
        fun _ => answers_pure _
  | reportOnly document =>
      exact ((reportOnly_uses document).mono Instruction.Evaluates.isSilent).answers.bind
        fun _ => answers_pure _
  | openService ownsPool surroundings base locations =>
      exact (openService_answers ownsPool surroundings base locations).bind fun _ => answers_pure _
  | closeService ownsPool => exact (closeService_answers ownsPool).bind fun _ => answers_pure _

theorem deliver_answers (target : Handle) (ended : Option (Outcome V)) :
    (deliver target ended).Answers handle := by
  cases ended with
  | none => exact answers_pure ()
  | some outcome => exact (resolve_answers target outcome).bind fun _ => answers_pure ()

theorem work_answers (executor : Nat) (target : Handle) :
    (work executor target : Program V Unit).Answers handle := by
  refine (send_answers (.enter executor target) trivial).bind fun _ => ?_
  refine (send_answers (.compile target) trivial).bind fun compiled => ?_
  exact (noteAll_answers compiled.2).bind fun _ => deliver_answers target _

theorem job_answers (executor : Nat) (target : Handle) :
    ((Duty.job executor target).program : Program V (Result V)).Answers handle := by
  refine Program.Answers.bind ?_ fun _ => answers_pure _
  exact (work_answers executor target).bind fun _ =>
    send_answers (.retire executor target) trivial

/-- Every thread that has come to its end has called whatever was due. -/
theorem duty_calls (handle : Handle) (duty : Duty) :
    (duty.program : Program V (Result V)).Keeps (callRule handle)
      (fun later _ => Answered later ∧ Owes handle later []) [] := by
  have calls : (duty.program : Program V (Result V)).Calls handle := by
    cases duty with
    | job executor target => exact (job_answers executor target).calls
    | call call =>
        cases registers : call.registers with
        | false => exact (call_answers registers).calls
        | true =>
            cases call with
            | onDone target callback =>
                refine (onDone_calls target callback).bind fun raised => ?_
                cases raised <;> exact calls_pure _
            | _ => cases registers
  refine (calls [] rfl).mono ?_
  rintro _ _ ⟨after, rfl, answered, even⟩
  exact ⟨answered, even⟩

end Programs

/-- Whoever does not register a callback heeds nothing that one raises. -/
theorem duty_absorbs {duty : Duty}
    (other : ∀ target callback, duty ≠ .call (.onDone target callback)) :
    (duty.program : Program V (Result V)).Absorbs := by
  cases duty with
  | job executor target =>
      have answers : ((Duty.job executor target).program : Program V (Result V)).Answers target :=
        job_answers executor target
      exact answers.absorbs
  | call call =>
      have registers : call.registers = false := by
        cases call with
        | onDone target callback => exact absurd rfl (other target callback)
        | _ => rfl
      have answers : (call.program : Program V (Result V)).Answers default := call_answers registers
      exact answers.absorbs

end Schematron.Engine

import Schematron.Proofs.Engine.Conduct

/-!
Duties: the rules that callers and workers keep. A caller only ever withdraws compilations, and
replaces the generation only while it keeps others out; a worker resolves its own handle alone, as
its own compilation came out.
-/

namespace Schematron.Engine

open Program

variable {V α β : Type}

/-! Replacing the generation -/

/-- How far a thread has come in replacing the generation. -/
inductive Replacing
  | idle
  | drafting (replaced : Generation) (handles : List Handle)
  | withdrawn
  | published (replaced next : Generation)

namespace Replacing

def handIn (handle : Handle) : Replacing → Replacing
  | drafting replaced handles => drafting replaced (handles ++ [handle])
  | stage => stage

def publish (next : Generation) : Replacing → Replacing
  | drafting replaced _ => published replaced next
  | stage => stage

def release : Replacing → Replacing
  | drafting _ _ => withdrawn
  | stage => stage

def after (stage : Replacing) : Exchange V → Replacing
  | ⟨.reserve, replaced⟩ => drafting replaced []
  | ⟨.submit _ _, .ok handle⟩ => stage.handIn handle
  | ⟨.publish next, _⟩ => stage.publish next
  | ⟨.release, _⟩ => stage.release
  | _ => stage

end Replacing

def replacing (past : List (Exchange V)) : Replacing := past.foldl Replacing.after .idle

@[simp] theorem replacing_nil : replacing ([] : List (Exchange V)) = .idle := rfl

@[simp] theorem replacing_concat (past : List (Exchange V)) (exchange : Exchange V) :
    replacing (past ++ [exchange]) = (replacing past).after exchange := by
  simp [replacing]

def Generation.succeeding (replaced : Generation) (handles : List Handle) : Generation :=
  ⟨replaced.number + 1, handles.map (·.source), handles⟩

/-! The rules -/

def Call.configures : Call → Bool
  | configure .. => true
  | openService .. => true
  | _ => false

def callerRule (configures : Bool) : Rule V := fun past instruction =>
  match instruction with
  | .reserve => configures = true ∧ replacing past = .idle
  | .release => ∃ replaced handles, replacing past = .drafting replaced handles
  | .publish next => ∃ replaced handles, replacing past = .drafting replaced handles ∧
      next = replaced.succeeding handles ∧
      ∀ handle ∈ handles, handle.generation = replaced.number + 1
  | .resolve _ outcome => ∃ isSuperseded, outcome = .withdrawn isSuperseded
  | .enter _ _ => False
  | .compile _ => False
  | .retire _ _ => False
  | _ => True

def Exchange.compiled? (handle : Handle) : Exchange V → Option (Except Failure V)
  | ⟨.compile target, reply⟩ => if target.id = handle.id then some reply.1 else none
  | _ => none

def compiledIn (handle : Handle) (past : List (Exchange V)) : List (Except Failure V) :=
  past.filterMap (Exchange.compiled? handle)

@[simp] theorem compiledIn_nil (handle : Handle) :
    compiledIn handle ([] : List (Exchange V)) = [] := rfl

@[simp] theorem compiledIn_append (handle : Handle) (first second : List (Exchange V)) :
    compiledIn handle (first ++ second) = compiledIn handle first ++ compiledIn handle second := by
  simp [compiledIn]

theorem compiledIn_single_none {handle : Handle} {exchange : Exchange V}
    (silent : exchange.compiled? handle = none) : compiledIn handle [exchange] = [] := by
  simp [compiledIn, silent]

def workerRule (executor : Nat) (handle : Handle) : Rule V := fun past instruction =>
  match instruction with
  | .enter place target => place = executor ∧ target = handle ∧ past = []
  | .compile target => target = handle ∧ compiledIn handle past = []
  | .resolve target outcome => target = handle ∧
      ∃ result, compiledIn handle past = [result] ∧ Outcome.ofCompiled handle result = some outcome
  | .note _ => True
  | .call _ target => target = handle
  | .retire place target => place = executor ∧ target = handle
  | _ => False

def Duty.rule : Duty → Rule V
  | .call request => callerRule request.configures
  | .job executor handle => workerRule executor handle

/-! Programs that have nothing to do with replacing -/

def Instruction.IsQuiet : Instruction V → Prop
  | .submit .. => False
  | .resolve _ outcome => ∃ isSuperseded, outcome = .withdrawn isSuperseded
  | .retire .. => False
  | .reserve => False
  | .release => False
  | .publish _ => False
  | .enter .. => False
  | .compile _ => False
  | _ => True

abbrev Program.IsQuiet (program : Program V α) : Prop := program.Uses Instruction.IsQuiet

theorem Program.Uses.leaves {program : Program V α} (quiet : program.IsQuiet)
    (configures : Bool) (past : List (Exchange V)) :
    program.Keeps (callerRule configures) (fun later _ => replacing later = replacing past)
      past := by
  refine quiet.keeps (fun later instruction permitted _ => ?_)
    (fun later instruction reply permitted same => ?_) rfl
  · cases instruction with
    | submit | retire | reserve | release | publish | enter | compile => exact permitted.elim
    | resolve => exact permitted
    | _ => trivial
  · cases instruction with
    | submit | retire | reserve | release | publish | enter | compile => exact permitted.elim
    | _ => simpa [Replacing.after] using same

def Instruction.CallsBack (handle : Handle) : Instruction V → Prop
  | .note _ => True
  | .call _ target => target = handle
  | _ => False

theorem Instruction.CallsBack.isQuiet {handle : Handle} (instruction : Instruction V)
    (callsBack : instruction.CallsBack handle) : instruction.IsQuiet := by
  cases instruction with
  | note | call => trivial
  | _ => exact callsBack.elim

theorem invoke_uses (handle : Handle) (outcome : Outcome V) (callback : Callback) :
    (invoke handle outcome callback).Uses (Instruction.CallsBack handle) := by
  cases callback with
  | noteFailure =>
      simp only [invoke]
      split
      · exact (uses_send (.note _) trivial).bind fun _ => uses_pure none
      · exact uses_pure none
  | host id => exact uses_send (.call id handle) rfl

theorem notify_uses (handle : Handle) (outcome : Outcome V) (callbacks : List Callback) :
    (notify handle outcome callbacks).Uses (Instruction.CallsBack handle) := by
  induction callbacks with
  | nil => exact uses_pure ()
  | cons callback rest ih =>
      refine (invoke_uses handle outcome callback).bind fun raised => ?_
      split
      · exact (uses_send (.note _) trivial).bind fun _ => ih
      · exact ih

theorem noteAll_uses (handle : Handle) (records : List LogRecord) :
    (noteAll records : Program V Unit).Uses (Instruction.CallsBack handle) := by
  induction records with
  | nil => exact uses_pure ()
  | cons record rest ih => exact (uses_send (.note record) trivial).bind fun _ => ih

theorem note_isQuiet (record : LogRecord) : (note record : Program V Unit).IsQuiet :=
  uses_send (.note record) trivial

def Instruction.Tends (permitted : Outcome V → Prop) : Instruction V → Prop
  | .resolve _ outcome => permitted outcome
  | .register .. => True
  | .note _ => True
  | .call .. => True
  | _ => False

theorem Instruction.CallsBack.tends {handle : Handle} {permitted : Outcome V → Prop}
    (instruction : Instruction V) (callsBack : instruction.CallsBack handle) :
    instruction.Tends permitted := by
  cases instruction with
  | note | call => trivial
  | _ => exact callsBack.elim

theorem Instruction.Tends.isQuiet {permitted : Outcome V → Prop}
    (withdraws : ∀ outcome, permitted outcome → ∃ isSuperseded, outcome = .withdrawn isSuperseded)
    (instruction : Instruction V) (tends : instruction.Tends permitted) : instruction.IsQuiet := by
  cases instruction with
  | resolve handle outcome => exact withdraws outcome tends
  | register | note | call => trivial
  | _ => exact tends.elim

def Instruction.Settles (handles : List Handle) (outcome : Outcome V) : Instruction V → Prop
  | .resolve handle given => handle ∈ handles ∧ given = outcome
  | .note _ => True
  | .call _ handle => handle ∈ handles
  | _ => False

theorem Instruction.Settles.tends {handles : List Handle} {outcome : Outcome V}
    (instruction : Instruction V) (settles : instruction.Settles handles outcome) :
    instruction.Tends (· = outcome) := by
  cases instruction with
  | resolve => exact settles.2
  | note | call => trivial
  | _ => exact settles.elim

theorem resolve_settles {handle : Handle} {handles : List Handle} (outcome : Outcome V)
    (member : handle ∈ handles) :
    (resolve handle outcome).Uses (Instruction.Settles handles outcome) := by
  refine (uses_send (.resolve handle outcome) ⟨member, rfl⟩).bind fun found => ?_
  cases found with
  | none => exact uses_pure false
  | some callbacks =>
      refine ((notify_uses handle outcome callbacks).mono fun instruction callsBack => ?_).bind
        fun _ => uses_pure true
      cases instruction with
      | note => trivial
      | call id target => exact callsBack ▸ member
      | _ => exact callsBack.elim

theorem resolveAll_settles (outcome : Outcome V) {handles all : List Handle}
    (within : ∀ handle ∈ handles, handle ∈ all) :
    (resolveAll outcome handles).Uses (Instruction.Settles all outcome) := by
  induction handles with
  | nil => exact uses_pure 0
  | cons handle rest ih =>
      refine (resolve_settles outcome (within handle List.mem_cons_self)).bind fun isFirst => ?_
      have others := ih fun target member => within target (List.mem_cons_of_mem _ member)
      exact others.bind fun count => uses_pure _

theorem resolve_uses (handle : Handle) (outcome : Outcome V) :
    (resolve handle outcome).Uses (Instruction.Tends (· = outcome)) :=
  (resolve_settles outcome (List.mem_singleton_self handle)).mono Instruction.Settles.tends

theorem resolveAll_uses (outcome : Outcome V) (handles : List Handle) :
    (resolveAll outcome handles).Uses (Instruction.Tends (· = outcome)) :=
  (resolveAll_settles outcome fun _ member => member).mono Instruction.Settles.tends

theorem onDone_uses (handle : Handle) (callback : Callback) :
    (onDone handle callback : Program V (Option Failure)).Uses
      (Instruction.Tends fun _ => False) := by
  refine (uses_send (.register handle callback) trivial).bind fun found => ?_
  cases found with
  | none => exact uses_pure none
  | some outcome => exact (invoke_uses handle outcome callback).mono Instruction.CallsBack.tends

theorem watchAll_uses (handles : List Handle) :
    (watchAll handles : Program V Unit).Uses (Instruction.Tends fun _ => False) := by
  induction handles with
  | nil => exact uses_pure ()
  | cons handle rest ih => exact (onDone_uses handle .noteFailure).bind fun _ => ih

theorem cancel_isQuiet (handle : Handle) (isSuperseded : Bool) :
    (cancel handle isSuperseded : Program V Bool).IsQuiet :=
  (resolve_uses handle (.withdrawn isSuperseded)).mono
    (Instruction.Tends.isQuiet fun _ same => ⟨isSuperseded, same⟩)

theorem resolveAll_isQuiet (isSuperseded : Bool) (handles : List Handle) :
    (resolveAll (.withdrawn isSuperseded) handles : Program V Nat).IsQuiet :=
  (resolveAll_uses (.withdrawn isSuperseded) handles).mono
    (Instruction.Tends.isQuiet fun _ same => ⟨isSuperseded, same⟩)

theorem onDone_isQuiet (handle : Handle) (callback : Callback) :
    (onDone handle callback : Program V (Option Failure)).IsQuiet :=
  (onDone_uses handle callback).mono (Instruction.Tends.isQuiet fun _ => False.elim)

theorem watchAll_isQuiet (handles : List Handle) :
    (watchAll handles : Program V Unit).IsQuiet :=
  (watchAll_uses handles).mono (Instruction.Tends.isQuiet fun _ => False.elim)

theorem shutdown_isQuiet (waits : Bool) : (shutdown waits : Program V Unit).IsQuiet := by
  refine (uses_send (.closePool) trivial).bind fun closed => ?_
  refine (resolveAll_isQuiet false closed.2).bind fun _ => ?_
  cases closed.1 with
  | none => exact uses_pure ()
  | some executor =>
      refine (uses_send (.abandon executor) trivial).bind fun _ => ?_
      split
      · exact uses_send (.drain executor) trivial
      · exact uses_pure ()

theorem close_isQuiet : (close : Program V Unit).IsQuiet :=
  (uses_send .snapshot trivial).bind fun generation =>
    (resolveAll_isQuiet false generation.handles).bind fun _ => uses_pure ()

def Instruction.Visits : Instruction V → Prop
  | .evaluation => True
  | .await .. => True
  | .run .. => True
  | _ => False

def Instruction.Evaluates : Instruction V → Prop
  | .evaluation => True
  | .await .. => True
  | .run .. => True
  | .snapshot => True
  | .note _ => True
  | _ => False

theorem Instruction.Visits.evaluates (instruction : Instruction V) (visits : instruction.Visits) :
    instruction.Evaluates := by
  cases instruction with
  | evaluation | await | run => trivial
  | _ => exact visits.elim

theorem Instruction.Evaluates.isQuiet (instruction : Instruction V)
    (evaluates : instruction.Evaluates) : instruction.IsQuiet := by
  cases instruction with
  | evaluation | await | run | snapshot | note => trivial
  | _ => exact evaluates.elim

theorem runAll_uses (document : Document) (handles : List Handle) :
    (runAll document handles : Program V _).Uses Instruction.Visits := by
  induction handles with
  | nil => exact uses_pure _
  | cons handle rest ih =>
      refine (uses_send .evaluation trivial).bind fun evaluation => ?_
      refine (uses_send (.await handle evaluation.patience) trivial).bind fun delivered => ?_
      cases delivered with
      | error failure => exact uses_pure _
      | ok validator =>
          refine (uses_send (.run validator document) trivial).bind fun found => ?_
          cases found with
          | error failure => exact uses_pure _
          | ok diagnostics => exact ih.bind fun others => uses_pure _

theorem evaluate_uses (document : Document) :
    (evaluate document : Program V (Except Failure Report)).Uses Instruction.Evaluates := by
  refine (uses_send .evaluation trivial).bind fun evaluation => ?_
  split
  · refine (uses_send .snapshot trivial).bind fun generation => ?_
    have visited := (runAll_uses (V := V) document generation.handles).mono
      Instruction.Visits.evaluates
    exact visited.bind fun found => uses_pure _
  · exact uses_pure _

theorem validate_uses (document : Document) (suppresses : Bool) :
    (validate document suppresses : Program V (Except Failure Unit)).Uses Instruction.Evaluates :=
  (evaluate_uses document).bind fun _ => uses_pure _

theorem reportOnly_uses (document : Document) :
    (reportOnly document : Program V _).Uses Instruction.Evaluates := by
  refine (evaluate_uses document).bind fun found => ?_
  cases found with
  | ok report => exact uses_pure _
  | error failure =>
      change (if failure.isForeign then _ else _ : Program V _).Uses Instruction.Evaluates
      split
      · exact uses_pure _
      · split
        · exact uses_pure _
        · exact (uses_send (.note _) trivial).bind fun _ => uses_pure _

theorem closeService_isQuiet (ownsPool : Bool) :
    (closeService ownsPool : Program V Unit).IsQuiet := by
  refine close_isQuiet.bind fun _ => ?_
  split
  · exact shutdown_isQuiet true
  · exact uses_pure ()

/-! Programs that replace the generation -/

theorem resolveAll_asks (outcome : Outcome V) (handles : List Handle) (past : List (Exchange V)) :
    (resolveAll outcome handles).Keeps anything (fun later _ => ∃ after, later = past ++ after ∧
      ∀ handle ∈ handles, ∃ reply, ⟨.resolve handle outcome, reply⟩ ∈ after) past := by
  induction handles generalizing past with
  | nil => exact ⟨[], by simp⟩
  | cons handle rest ih =>
      simp only [resolveAll, resolve, keeps_bind]
      refine ⟨trivial, fun found _ => ?_⟩
      -- The rest of the program only adds to what has been asked already.
      have asked (program : Program V Bool) :
          program.Keeps anything (fun later answer =>
            (resolveAll outcome rest).Keeps anything (fun later _ =>
              ∃ after, later = past ++ after ∧ ∀ target ∈ handle :: rest,
                ∃ reply, ⟨.resolve target outcome, reply⟩ ∈ after) later)
            (past ++ [⟨.resolve handle outcome, found⟩]) := by
        refine (program.keeps_past _).mono fun later answer longer => ?_
        obtain ⟨between, rfl⟩ := longer
        refine (ih _).mono ?_
        rintro last _ ⟨after, rfl, others⟩
        refine ⟨⟨.resolve handle outcome, found⟩ :: (between ++ after), by simp, ?_⟩
        intro target member
        rcases List.mem_cons.mp member with rfl | member
        · exact ⟨found, by simp⟩
        · obtain ⟨reply, found⟩ := others target member
          exact ⟨reply, by simp [found]⟩
      exact asked _

theorem submit_keeps (source : RuleSource) (generation : Int) (configures : Bool)
    (past : List (Exchange V)) :
    (submit source generation).Keeps (callerRule configures) (fun later found =>
      match found with
      | .ok handle => handle.source = source ∧ handle.generation = generation ∧
          replacing later = (replacing past).handIn handle
      | .error _ => replacing later = replacing past) past := by
  refine ⟨trivial, fun found possible => ?_⟩
  cases found with
  | ok handle => exact ⟨possible.1, possible.2, by simp [Replacing.after]⟩
  | error failure => simp [Keeps, Replacing.after]

theorem submitAll_keeps {replaced : Generation} (number : Int) (sources : List RuleSource)
    {handles : List Handle} {past : List (Exchange V)}
    (drafting : replacing past = .drafting replaced handles) :
    (submitAll number sources).Keeps (callerRule true) (fun later found =>
      replacing later = .drafting replaced (handles ++ found.1) ∧
      (∀ handle ∈ found.1, handle.generation = number) ∧
      (found.2 = none → found.1.map (·.source) = sources)) past := by
  induction sources generalizing handles past with
  | nil => simp [submitAll, drafting]
  | cons source rest ih =>
      simp only [submitAll, keeps_bind]
      refine (submit_keeps source number true past).mono fun later found submitted => ?_
      cases found with
      | error failure => simp [submitted, drafting]
      | ok handle =>
          obtain ⟨sourceSame, numberSame, stage⟩ := submitted
          rw [drafting] at stage
          simp only [keeps_bind]
          refine (ih stage).mono ?_
          rintro last ⟨others, refusal⟩ ⟨stage, numbers, complete⟩
          refine ⟨by simpa using stage, ?_, ?_⟩
          · intro target member
            rcases List.mem_cons.mp member with rfl | member
            · exact numberSame
            · exact numbers target member
          · intro accepted
            simp [sourceSame, complete accepted]

def Configured (past : List (Exchange V)) : Except Failure Int → Prop
  | .ok number => ∃ replaced handles next before after,
      past = before ++ ⟨.publish next, ()⟩ :: after ∧
      replacing before = .drafting replaced handles ∧
      replacing past = .published replaced next ∧ number = next.number ∧
      ∀ handle ∈ replaced.handles, ∃ reply, ⟨.resolve handle .superseded, reply⟩ ∈ after
  | .error _ => ∀ replaced next, replacing past ≠ .published replaced next

theorem replaceGeneration_keeps (sources : List RuleSource) {past : List (Exchange V)}
    (idle : replacing past = .idle) :
    (replaceGeneration sources).Keeps (callerRule true) Configured past := by
  simp only [replaceGeneration, keeps_bind]
  refine ⟨⟨rfl, idle⟩, fun replaced _ => ?_⟩
  have drafting : replacing (past ++ [⟨.reserve, replaced⟩]) = .drafting replaced [] := by
    simp [Replacing.after]
  refine (submitAll_keeps (replaced.number + 1) sources drafting).mono ?_
  rintro later ⟨handles, refusal⟩ ⟨drafted, numbers, complete⟩
  simp only [List.nil_append] at drafted numbers complete
  cases refusal with
  | some failure =>
      simp only [keeps_bind]
      refine ((resolveAll_isQuiet false handles).leaves true later).mono fun later _ same => ?_
      refine ⟨⟨replaced, handles, same.trans drafted⟩, fun _ _ => ?_⟩
      change ∀ replaced next, replacing (later ++ [⟨.release, ()⟩]) ≠ .published replaced next
      simp [Replacing.after, Replacing.release, same, drafted]
  | none =>
      simp only [keeps_bind]
      let next : Generation := ⟨replaced.number + 1, sources, handles⟩
      have succeeding : next = replaced.succeeding handles := by
        simp [next, Generation.succeeding, complete rfl]
      refine ⟨⟨replaced, handles, drafted, succeeding, numbers⟩, fun _ _ => ?_⟩
      refine (((watchAll_isQuiet handles).leaves true _).and
        ((watchAll handles).keeps_past _)).mono ?_
      rintro _ _ ⟨watched, watching, rfl⟩
      refine (((resolveAll_isQuiet true replaced.handles).leaves true _).and
        (resolveAll_asks .superseded replaced.handles _)).mono ?_
      rintro _ count ⟨same, asking, rfl, asked⟩
      refine (((note_isQuiet _).leaves true _).and ((note _).keeps_past _)).mono ?_
      rintro _ _ ⟨unchanged, noting, rfl⟩
      refine ⟨replaced, handles, next, later, watching ++ asking ++ noting, by simp [next], drafted,
        ?_, rfl, fun handle member => ?_⟩
      · rw [unchanged, same, watched, replacing_concat, drafted]
        rfl
      · obtain ⟨reply, found⟩ := asked handle member
        exact ⟨reply, by simp [found]⟩

theorem configure_keeps (surroundings : Surroundings) (base : Option String)
    (locations : List RuleLocation) {past : List (Exchange V)} (idle : replacing past = .idle) :
    (configure surroundings base locations).Keeps (callerRule true) Configured past := by
  simp only [configure]
  split
  · simp [Configured, idle]
  · exact replaceGeneration_keeps _ idle

theorem openService_keeps (ownsPool : Bool) (surroundings : Surroundings) (base : Option String)
    (locations : List RuleLocation) :
    (openService ownsPool surroundings base locations : Program V _).Keeps (callerRule true)
      (fun past opened => ∃ found, opened = found.map (fun _ => ()) ∧ Configured past found)
      [] := by
  have configures (aftermath : Program V Unit) (quiet : aftermath.IsQuiet)
      (past : List (Exchange V)) (idle : replacing past = .idle) :
      (configure surroundings base locations >>= fun found =>
        match found with
        | .ok _ => pure (.ok ())
        | .error failure => aftermath >>= fun _ => pure (.error failure)).Keeps (callerRule true)
        (fun past (opened : Except Failure Unit) =>
          ∃ found, opened = found.map (fun _ => ()) ∧ Configured past found) past := by
    rw [keeps_bind]
    refine (configure_keeps surroundings base locations idle).mono fun later found configured => ?_
    cases found with
    | ok number => exact ⟨.ok number, rfl, configured⟩
    | error failure =>
        rw [keeps_bind]
        refine (quiet.leaves true later).mono fun last _ same => ⟨.error failure, rfl, ?_⟩
        intro replaced next
        exact same ▸ configured replaced next
  cases ownsPool with
  | false => exact configures (pure ()) (uses_pure ()) [] replacing_nil
  | true =>
      exact ⟨trivial, fun _ _ => configures (shutdown true) (shutdown_isQuiet true) _ rfl⟩

theorem submitAll_uses (number : Int) (sources : List RuleSource) :
    (submitAll number sources : Program V _).Uses fun instruction =>
      ∃ source generation, instruction = .submit source generation := by
  induction sources with
  | nil => exact uses_pure _
  | cons source rest ih =>
      refine (uses_send (.submit source number) ⟨source, number, rfl⟩).bind fun found => ?_
      cases found with
      | error failure => exact uses_pure _
      | ok handle => exact ih.bind fun others => uses_pure _

def Instruction.Configures : Instruction V → Prop
  | .submit .. => True
  | .resolve _ outcome => ∃ isSuperseded, outcome = .withdrawn isSuperseded
  | .register .. => True
  | .reserve => True
  | .release => True
  | .publish _ => True
  | .note _ => True
  | .call .. => True
  | _ => False

theorem Instruction.Tends.configures {permitted : Outcome V → Prop}
    (withdraws : ∀ outcome, permitted outcome → ∃ isSuperseded, outcome = .withdrawn isSuperseded)
    (instruction : Instruction V) (tends : instruction.Tends permitted) :
    instruction.Configures := by
  cases instruction with
  | resolve handle outcome => exact withdraws outcome tends
  | register | note | call => trivial
  | _ => exact tends.elim

theorem resolveAll_configures (isSuperseded : Bool) (handles : List Handle) :
    (resolveAll (.withdrawn isSuperseded) handles : Program V Nat).Uses Instruction.Configures :=
  (resolveAll_uses (.withdrawn isSuperseded) handles).mono
    (Instruction.Tends.configures fun _ same => ⟨isSuperseded, same⟩)

theorem replaceGeneration_uses (sources : List RuleSource) :
    (replaceGeneration sources : Program V (Except Failure Int)).Uses Instruction.Configures := by
  refine (uses_send .reserve trivial).bind fun replaced => ?_
  refine ((submitAll_uses (replaced.number + 1) sources).mono ?_).bind fun submitted => ?_
  · rintro _ ⟨source, generation, rfl⟩
    trivial
  obtain ⟨handles, refusal⟩ := submitted
  cases refusal with
  | some failure =>
      refine (resolveAll_configures false handles).bind fun _ => ?_
      exact (uses_send .release trivial).bind fun _ => uses_pure _
  | none =>
      refine (uses_send (.publish _) trivial).bind fun _ => ?_
      refine ((watchAll_uses handles).mono ?_).bind fun _ => ?_
      · exact Instruction.Tends.configures fun _ => False.elim
      refine (resolveAll_configures true replaced.handles).bind fun _ => ?_
      exact (uses_send (.note _) trivial).bind fun _ => uses_pure _

theorem configure_uses (surroundings : Surroundings) (base : Option String)
    (locations : List RuleLocation) :
    (configure surroundings base locations : Program V _).Uses Instruction.Configures := by
  simp only [configure]
  split
  · exact uses_pure _
  · exact replaceGeneration_uses _

/-! Workers -/

def Instruction.Compiles (handle : Handle) : Instruction V → Prop
  | .enter _ target => target = handle
  | .compile target => target = handle
  | .resolve target _ => target = handle
  | .note _ => True
  | .call _ target => target = handle
  | _ => False

theorem Instruction.CallsBack.compiles {handle : Handle} (instruction : Instruction V)
    (callsBack : instruction.CallsBack handle) : instruction.Compiles handle := by
  cases instruction with
  | note | call => exact callsBack
  | _ => exact callsBack.elim

theorem deliver_uses (handle : Handle) (ended : Option (Outcome V)) :
    (deliver handle ended).Uses (Instruction.Compiles handle) := by
  cases ended with
  | none => exact uses_pure ()
  | some outcome =>
      refine ((resolve_settles outcome (List.mem_singleton_self handle)).mono
        fun instruction settles => ?_).bind fun _ => uses_pure ()
      cases instruction with
      | resolve => exact List.mem_singleton.mp settles.1
      | note => trivial
      | call => exact List.mem_singleton.mp settles
      | _ => exact settles.elim

theorem work_uses (executor : Nat) (handle : Handle) :
    (work executor handle : Program V Unit).Uses (Instruction.Compiles handle) := by
  have enters : Instruction.Compiles handle (.enter executor handle : Instruction V) := rfl
  have compiles : Instruction.Compiles handle (.compile handle : Instruction V) := rfl
  refine (uses_send _ enters).bind fun _ => (uses_send _ compiles).bind fun compiled => ?_
  refine ((noteAll_uses handle compiled.2).mono Instruction.CallsBack.compiles).bind fun _ => ?_
  exact deliver_uses handle _

theorem Program.Uses.sets_aside {program : Program V α} {executor : Nat} {handle : Handle}
    (uses : program.Uses (Instruction.CallsBack handle)) {past : List (Exchange V)} :
    program.Keeps (workerRule executor handle) (fun later _ => replacing later = replacing past ∧
      compiledIn handle later = compiledIn handle past) past := by
  refine uses.keeps (fun later instruction permitted _ => ?_)
    (fun later instruction reply permitted same => ?_) ⟨rfl, rfl⟩
  · cases instruction with
    | note | call => exact permitted
    | _ => exact permitted.elim
  · cases instruction with
    | note | call =>
        refine ⟨by simpa [Replacing.after] using same.1, ?_⟩
        rw [compiledIn_append, compiledIn_single_none rfl, List.append_nil]
        exact same.2
    | _ => exact permitted.elim

def Delivered (handle : Handle) (past : List (Exchange V)) : Prop :=
  ∃ result, compiledIn handle past = [result] ∧
    ∀ outcome, Outcome.ofCompiled handle result = some outcome →
      ∃ reply, ⟨.resolve handle outcome, reply⟩ ∈ past

theorem deliver_keeps {executor : Nat} {handle : Handle} {result : Except Failure V}
    {past : List (Exchange V)} (compiled : compiledIn handle past = [result]) :
    (deliver handle (Outcome.ofCompiled handle result) : Program V Unit).Keeps
      (workerRule executor handle)
      (fun later _ => replacing later = replacing past ∧ Delivered handle later) past := by
  cases ended : Outcome.ofCompiled handle result with
  | none => exact ⟨rfl, result, compiled, by simp [ended]⟩
  | some outcome =>
      simp only [deliver, resolve, keeps_bind]
      refine ⟨⟨rfl, result, compiled, ended⟩, fun found _ => ?_⟩
      have asked : (⟨.resolve handle outcome, found⟩ : Exchange V) ∈
          past ++ [⟨.resolve handle outcome, found⟩] := by simp
      have delivered {later : List (Exchange V)} (longer : past ++ [⟨_, found⟩] <+: later)
          (same : compiledIn handle later = compiledIn handle (past ++ [⟨_, found⟩])) :
          Delivered handle later := by
        refine ⟨result, ?_, fun given came => ⟨found, ?_⟩⟩
        · rw [same, compiledIn_append, compiled]
          rfl
        · cases ended.symm.trans came
          exact longer.subset asked
      have resolved : replacing (past ++ [⟨.resolve handle outcome, found⟩]) = replacing past := by
        rw [replacing_concat]
        rfl
      cases found with
      | none => exact ⟨resolved, delivered (List.prefix_refl _) rfl⟩
      | some callbacks =>
          simp only [Keeps, keeps_bind, keeps_pure]
          refine ((notify_uses _ _ callbacks).sets_aside.and (Program.keeps_past _ _)).mono ?_
          rintro last _ ⟨⟨same, compiled⟩, longer⟩
          exact ⟨same.trans resolved, delivered longer compiled⟩

theorem job_keeps (executor : Nat) (handle : Handle) :
    (job executor handle : Program V Unit).Keeps (workerRule executor handle)
      (fun later _ => replacing later = .idle ∧ Delivered handle later) [] := by
  simp only [job, work, keeps_bind]
  refine ⟨⟨rfl, rfl, rfl⟩, fun _ _ => ⟨⟨rfl, rfl⟩, ?_⟩⟩
  rintro ⟨result, records⟩ _
  refine ((noteAll_uses handle records).sets_aside).mono ?_
  rintro later _ ⟨idle, compiled⟩
  have compiled : compiledIn handle later = [result] := by
    rw [compiled]
    simp [compiledIn, List.filterMap_cons, Exchange.compiled?]
  refine (deliver_keeps compiled).mono ?_
  rintro last _ ⟨same, found, compiled, delivered⟩
  refine ⟨⟨rfl, rfl⟩, fun _ _ => ⟨?_, found, ?_, fun outcome ended => ?_⟩⟩
  · rw [replacing_concat, same, idle]
    rfl
  · rw [compiledIn_append, compiled]
    rfl
  · obtain ⟨reply, asked⟩ := delivered outcome ended
    exact ⟨reply, List.mem_append_left _ asked⟩

/-! All threads -/

def Duty.Leaves : Duty → List (Exchange V) → Result V → Prop
  | .call (.configure ..), past, result =>
      ∃ found, result = found.map .number ∧ Configured past found
  | .call (.openService ..), past, result =>
      ∃ found : Except Failure Int, result = found.map (fun _ => .nothing) ∧ Configured past found
  | _, past, _ => replacing past = .idle

theorem call_keeps (call : Call) :
    (call.program : Program V (Result V)).Keeps (callerRule call.configures)
      (Duty.call call).Leaves [] := by
  have idle {α : Type} {program : Program V α} (quiet : program.IsQuiet) (answer : α → Result V) :
      (program >>= fun value => pure (answer value)).Keeps (callerRule false)
        (fun past _ => replacing past = .idle) [] :=
    (quiet.bind fun value => uses_pure (answer value)).leaves false []
  cases call with
  | create source generation => exact idle (uses_send (.create source generation) trivial) _
  | start => exact idle (uses_send .openPool trivial) _
  | shutdown waits => exact idle (shutdown_isQuiet waits) _
  | submit source generation =>
      simp only [Call.program, keeps_bind]
      refine (submit_keeps source generation false []).mono fun later found submitted => ?_
      cases found with
      | ok handle => exact submitted.2.2
      | error failure => exact submitted
  | cancel handle isSuperseded => exact idle (cancel_isQuiet handle isSuperseded) _
  | onDone handle callback =>
      refine ((onDone_isQuiet handle callback).bind fun raised => ?_).leaves false []
      cases raised <;> exact uses_pure _
  | await handle limit => exact idle (uses_send (.await handle limit) trivial) _
  | configure surroundings base locations =>
      simp only [Call.program, keeps_bind]
      exact (configure_keeps surroundings base locations replacing_nil).mono
        fun past found configured => ⟨found, rfl, configured⟩
  | close => exact idle close_isQuiet _
  | snapshot => exact idle (uses_send .snapshot trivial) _
  | evaluate document =>
      exact idle ((evaluate_uses document).mono Instruction.Evaluates.isQuiet) _
  | validate document suppresses =>
      exact idle ((validate_uses document suppresses).mono Instruction.Evaluates.isQuiet) _
  | reportOnly document =>
      exact idle ((reportOnly_uses document).mono Instruction.Evaluates.isQuiet) _
  | openService ownsPool surroundings base locations =>
      simp only [Call.program, keeps_bind]
      refine (openService_keeps ownsPool surroundings base locations).mono ?_
      rintro past opened ⟨found, same, configured⟩
      refine ⟨found, ?_, configured⟩
      rw [same]
      cases found <;> rfl
  | closeService ownsPool => exact idle (closeService_isQuiet ownsPool) _

theorem duty_keeps (duty : Duty) :
    (duty.program : Program V (Result V)).Keeps duty.rule duty.Leaves [] := by
  cases duty with
  | call call => exact call_keeps call
  | job executor handle =>
      simp only [Duty.program, keeps_bind]
      exact (job_keeps executor handle).mono fun past _ ended => ended.1

namespace System

variable {pool : Pool} {evaluation : Evaluation} {moves : List (Move V)} {middle next : System V}
  {move : Move V}

theorem event_rule (reached : (initial pool evaluation).run moves = some middle)
    (stepped : middle.step move = some next) {event : Event V}
    (happens : middle.event? move = some event) :
    ∃ duty rest, middle.threads[event.thread]? =
        some ⟨duty, .step event.exchange.instruction rest⟩ ∧
      duty.rule (exchangesOf event.thread ((initial pool evaluation).trace moves))
        event.exchange.instruction := by
  have transition := step_transition stepped
  rw [happens] at transition
  obtain ⟨-, duty, rest, found⟩ := transition.event
  exact ⟨duty, rest, found, (thread_keeps reached found (duty_keeps duty)).1⟩

theorem performer_of_cut {event : Event V} {last : System V}
    (cut : Cut (initial pool evaluation) moves last event) :
    ∃ duty program, last.threads[event.thread]? = some ⟨duty, program⟩ ∧
      duty.rule (exchangesOf event.thread ((initial pool evaluation).trace cut.early))
        event.exchange.instruction :=
  keeper_of_cut duty_keeps cut

end System

end Schematron.Engine

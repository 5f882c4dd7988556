import Schematron.Proofs.Engine.Registry

/-!
Supplies: what becomes of the handles that a service hands in. Main statements: a call that
configures puts them all in place, or withdraws them all when it fails; and no call of a service
changes anything about a handle that it has neither handed in nor found in the registry.
-/

namespace Schematron.Engine

open Program

variable {V α : Type}

def Call.serves (ownsPool : Bool) : Call → Bool
  | configure .. => true
  | evaluate _ => true
  | validate .. => true
  | reportOnly _ => true
  | openService owns .. => owns == ownsPool
  | closeService owns => owns == ownsPool
  | _ => false

/-! What is handed in -/

/-- Without a submission nothing is handed in. -/
theorem Program.Uses.hands_in_nothing {allowed : Instruction V → Prop} {program : Program V α}
    (uses : program.Uses allowed)
    (others : ∀ source generation, ¬ allowed (.submit source generation))
    (past : List (Exchange V)) :
    program.Keeps anything (fun later _ => ∃ after, later = past ++ after ∧ submittedIn after = [])
      past := by
  refine (uses.adds past).mono ?_
  rintro _ answer ⟨after, rfl, all⟩
  refine ⟨after, rfl, submittedIn_eq_nil fun exchange member source generation same => ?_⟩
  exact others source generation (same ▸ all exchange member)

theorem submitAll_submits (number : Int) (sources : List RuleSource) (past : List (Exchange V)) :
    (submitAll number sources).Keeps anything
      (fun later found => submittedIn later = submittedIn past ++ found.1) past := by
  induction sources generalizing past with
  | nil => exact (List.append_nil _).symm
  | cons source rest ih =>
      simp only [submitAll, submit, keeps_bind]
      refine ⟨trivial, fun found _ => ?_⟩
      cases found with
      | error failure => exact submittedIn_append past _
      | ok handle =>
          simp only [Keeps, keeps_bind]
          refine (ih _).mono fun later others submitted => ?_
          refine submitted.trans ?_
          rw [submittedIn_append, List.append_assoc]
          rfl

def Supplied (past : List (Exchange V)) : Except Failure α → Prop
  | .ok _ => ∃ next, ⟨.publish next, ()⟩ ∈ past ∧ submittedIn past ⊆ next.handles
  | .error _ => ∀ handle ∈ submittedIn past, ∃ before outcome reply after,
      past = before ++ ⟨.resolve handle outcome, reply⟩ :: after ∧ handle ∈ submittedIn before

theorem Supplied.append {past after : List (Exchange V)} {found : Except Failure α}
    (supplied : Supplied past found) (nothing : submittedIn after = []) :
    Supplied (past ++ after) found := by
  have same : submittedIn (past ++ after) = submittedIn past := by
    rw [submittedIn_append, nothing, List.append_nil]
  cases found with
  | ok answer =>
      obtain ⟨next, published, placed⟩ := supplied
      exact ⟨next, List.mem_append_left _ published, same ▸ placed⟩
  | error failure =>
      intro handle member
      obtain ⟨before, outcome, reply, rest, rfl, submitted⟩ := supplied handle (same ▸ member)
      exact ⟨before, outcome, reply, rest ++ after, by simp, submitted⟩

theorem Supplied.map {β : Type} {past : List (Exchange V)} {found : Except Failure α}
    (supplied : Supplied past found) (change : α → β) : Supplied past (found.map change) := by
  cases found with
  | ok answer => exact supplied
  | error failure => exact supplied

theorem supplied_of_none {past : List (Exchange V)} (nothing : submittedIn past = [])
    (failure : Failure) : Supplied past (.error failure : Except Failure α) := by
  intro handle member
  rw [nothing] at member
  cases member

theorem resolveAll_supplies (handles : List Handle) {past : List (Exchange V)}
    (submitted : submittedIn past = handles) (failure : Failure) :
    (resolveAll .cancelled handles).Keeps anything
      (fun later _ => Supplied later (.error failure : Except Failure Int)) past := by
  have nothing := ((resolveAll_uses .cancelled handles).hands_in_nothing (fun _ _ => id) past)
  refine (nothing.and (resolveAll_asks .cancelled handles past)).mono ?_
  rintro _ count ⟨⟨after, rfl, none⟩, asking, same, asked⟩ handle member
  cases List.append_cancel_left same
  rw [submittedIn_append, none, List.append_nil, submitted] at member
  obtain ⟨reply, found⟩ := asked handle member
  obtain ⟨before, rest, rfl⟩ := List.append_of_mem found
  refine ⟨past ++ before, .cancelled, reply, rest, by simp, ?_⟩
  rw [submittedIn_append, submitted]
  exact List.mem_append_left _ member

theorem replaceGeneration_supplies (sources : List RuleSource) {past : List (Exchange V)}
    (nothing : submittedIn past = []) :
    (replaceGeneration sources).Keeps anything Supplied past := by
  simp only [replaceGeneration, keeps_bind]
  refine ⟨trivial, fun replaced _ => ?_⟩
  have begun : submittedIn (past ++ [⟨.reserve, replaced⟩]) = [] := by
    rw [submittedIn_append, nothing]
    rfl
  refine (submitAll_submits (replaced.number + 1) sources _).mono ?_
  rintro later ⟨handles, refusal⟩ submitted
  simp only [begun, List.nil_append] at submitted
  cases refusal with
  | some failure =>
      simp only [keeps_bind]
      refine (resolveAll_supplies handles submitted failure).mono fun last _ supplied => ?_
      exact ⟨trivial, fun _ _ => supplied.append rfl⟩
  | none =>
      simp only [keeps_bind]
      refine ⟨trivial, fun _ _ => ?_⟩
      have placed : Supplied
          (later ++ [⟨.publish ⟨replaced.number + 1, sources, handles⟩, ()⟩])
          (.ok (replaced.number + 1) : Except Failure Int) := by
        refine ⟨_, List.mem_append_right _ (List.mem_singleton_self _), ?_⟩
        rw [submittedIn_append, submitted, submittedIn_eq_nil (by simp), List.append_nil]
        exact List.Subset.refl handles
      refine ((watchAll_uses handles).hands_in_nothing (fun _ _ => id) _).mono ?_
      rintro _ _ ⟨watching, rfl, none⟩
      refine ((resolveAll_uses .superseded replaced.handles).hands_in_nothing
        (fun _ _ => id) _).mono ?_
      rintro _ count ⟨asking, rfl, also⟩
      exact ⟨trivial, fun _ _ => ((placed.append none).append also).append rfl⟩

theorem configure_supplies (surroundings : Surroundings) (base : Option String)
    (locations : List RuleLocation) {past : List (Exchange V)} (nothing : submittedIn past = []) :
    (configure surroundings base locations).Keeps anything Supplied past := by
  simp only [configure]
  split
  · exact supplied_of_none nothing _
  · exact replaceGeneration_supplies _ nothing

theorem openService_supplies (ownsPool : Bool) (surroundings : Surroundings) (base : Option String)
    (locations : List RuleLocation) :
    (openService ownsPool surroundings base locations : Program V _).Keeps anything Supplied
      [] := by
  have configures (past : List (Exchange V)) (nothing : submittedIn past = []) :=
    configure_supplies (V := V) surroundings base locations nothing
  cases ownsPool with
  | false =>
      refine keeps_bind.mpr ((configures [] rfl).mono fun later found supplied => ?_)
      cases found <;> exact supplied
  | true =>
      refine ⟨trivial, fun _ _ => keeps_bind.mpr (keeps_bind.mpr ?_)⟩
      refine (configures _ rfl).mono fun later found supplied => ?_
      cases found with
      | ok number => exact supplied
      | error failure =>
          refine keeps_bind.mpr (((shutdown_isQuiet true).hands_in_nothing (fun _ _ => id)
            later).mono ?_)
          rintro _ _ ⟨after, rfl, none⟩
          exact Supplied.append (α := Unit) supplied none

theorem call_supplies {call : Call} (configures : call.configures = true) :
    (call.program : Program V (Result V)).Keeps anything Supplied [] := by
  cases call with
  | configure surroundings base locations =>
      simp only [Call.program, keeps_bind]
      exact (configure_supplies surroundings base locations rfl).mono
        fun past found supplied => supplied.map _
  | openService ownsPool surroundings base locations =>
      simp only [Call.program, keeps_bind]
      exact (openService_supplies ownsPool surroundings base locations).mono
        fun past found supplied => supplied.map _
  | _ => cases configures

/-- Of all calls of a service, those that configure are the only ones to hand anything in. -/
theorem call_isQuiet {ownsPool : Bool} {call : Call} (serves : call.serves ownsPool = true)
    (keeps : call.configures = false) : (call.program : Program V (Result V)).IsQuiet := by
  cases call with
  | configure | openService => cases keeps
  | evaluate document =>
      exact ((evaluate_uses document).mono Instruction.Evaluates.isQuiet).bind fun _ => uses_pure _
  | validate document suppresses =>
      exact ((validate_uses document suppresses).mono Instruction.Evaluates.isQuiet).bind
        fun _ => uses_pure _
  | reportOnly document =>
      exact ((reportOnly_uses document).mono Instruction.Evaluates.isQuiet).bind
        fun _ => uses_pure _
  | closeService owns => exact (closeService_isQuiet owns).bind fun _ => uses_pure _
  | _ => cases serves

/-! What is changed -/

def Instruction.target? : Instruction V → Option Handle
  | .resolve handle _ => some handle
  | .register handle _ => some handle
  | _ => none

def Exchange.shown : Exchange V → List Handle
  | ⟨.submit _ _, .ok handle⟩ => [handle]
  | ⟨.reserve, generation⟩ => generation.handles
  | ⟨.snapshot, generation⟩ => generation.handles
  | _ => []

def modestRule : Rule V := fun past instruction =>
  ∀ handle, instruction.target? = some handle → handle ∈ past.flatMap Exchange.shown

def Instruction.Concerns (handles : List Handle) (instruction : Instruction V) : Prop :=
  ∀ handle, instruction.target? = some handle → handle ∈ handles

theorem Instruction.Settles.concerns {handles : List Handle} {outcome : Outcome V}
    (instruction : Instruction V) (settles : instruction.Settles handles outcome) :
    instruction.Concerns handles := by
  intro handle targeted
  cases instruction with
  | resolve =>
      cases targeted
      exact settles.1
  | note | call => cases targeted
  | _ => exact settles.elim

theorem Instruction.Evaluates.concerns (instruction : Instruction V)
    (evaluates : instruction.Evaluates) : instruction.Concerns [] := by
  intro handle targeted
  cases instruction with
  | resolve | register => exact evaluates.elim
  | _ => cases targeted

theorem watchAll_concerns {handles all : List Handle} (within : handles ⊆ all) :
    (watchAll handles : Program V Unit).Uses (Instruction.Concerns all) := by
  induction handles with
  | nil => exact uses_pure ()
  | cons handle rest ih =>
      have present := within List.mem_cons_self
      have others := ih fun _ member => within (List.mem_cons_of_mem _ member)
      have registers : Instruction.Concerns all
          (.register handle .noteFailure : Instruction V) := by
        rintro _ ⟨⟩
        exact present
      refine Uses.bind ((uses_send _ registers).bind fun found => ?_) fun _ => others
      cases found with
      | none => exact uses_pure none
      | some outcome =>
          refine (invoke_uses handle outcome .noteFailure).mono fun instruction callsBack => ?_
          rintro target targeted
          cases instruction with
          | resolve | register => exact callsBack.elim
          | _ => cases targeted

theorem modest_of_untargeted {instruction : Instruction V} (untargeted : instruction.target? = none)
    (past : List (Exchange V)) : modestRule past instruction := by
  intro handle targeted
  rw [untargeted] at targeted
  cases targeted

section Modest

variable {handles : List Handle} {past : List (Exchange V)}

theorem Program.Uses.modest {program : Program V α}
    (uses : program.Uses (Instruction.Concerns handles))
    (known : handles ⊆ past.flatMap Exchange.shown) :
    program.Keeps modestRule (fun later _ => handles ⊆ later.flatMap Exchange.shown) past := by
  refine uses.keeps (fun later instruction concerns known => ?_)
    (fun later instruction reply concerns known => ?_) known
  · exact fun handle targeted => known (concerns handle targeted)
  · rw [List.flatMap_append]
    exact fun handle member => List.mem_append_left _ (known member)

theorem submittedIn_subset_shown (past : List (Exchange V)) :
    submittedIn past ⊆ past.flatMap Exchange.shown := by
  intro handle submitted
  obtain ⟨source, generation, member⟩ := mem_submittedIn.mp submitted
  exact List.mem_flatMap.mpr ⟨_, member, List.mem_singleton_self handle⟩

theorem submitAll_modest (number : Int) (sources : List RuleSource)
    (known : handles ⊆ past.flatMap Exchange.shown) :
    (submitAll number sources).Keeps modestRule (fun later found =>
      found.1 ++ handles ⊆ later.flatMap Exchange.shown) past := by
  have submits : (submitAll number sources : Program V _).Uses (Instruction.Concerns handles) := by
    refine (submitAll_uses number sources).mono ?_
    rintro _ ⟨source, generation, rfl⟩ handle targeted
    cases targeted
  refine ((submits.modest known).and (submitAll_submits number sources past)).mono ?_
  rintro later ⟨found, refusal⟩ ⟨known, submitted⟩
  refine List.append_subset.mpr ⟨fun handle member => ?_, known⟩
  refine submittedIn_subset_shown later ?_
  rw [submitted]
  exact List.mem_append_right _ member

theorem replaceGeneration_modest (sources : List RuleSource) (past : List (Exchange V)) :
    (replaceGeneration sources).Keeps modestRule (fun _ _ => True) past := by
  simp only [replaceGeneration, keeps_bind]
  refine ⟨modest_of_untargeted rfl _, fun replaced _ => ?_⟩
  have known : replaced.handles ⊆
      List.flatMap Exchange.shown (past ++ [⟨.reserve, replaced⟩]) := by
    rw [List.flatMap_append]
    exact fun handle member => List.mem_append_right _ (by simpa [Exchange.shown] using member)
  refine (submitAll_modest (replaced.number + 1) sources known).mono ?_
  rintro later ⟨handles, refusal⟩ known
  cases refusal with
  | some failure =>
      simp only [keeps_bind]
      have withdraws : (resolveAll .cancelled handles : Program V Nat).Uses
          (Instruction.Concerns (handles ++ replaced.handles)) :=
        (resolveAll_settles .cancelled fun _ => List.mem_append_left _).mono
          Instruction.Settles.concerns
      refine (withdraws.modest known).mono fun _ _ _ => ?_
      exact ⟨modest_of_untargeted rfl _, fun _ _ => trivial⟩
  | none =>
      simp only [keeps_bind]
      have watches := watchAll_concerns (V := V) (List.subset_append_left handles replaced.handles)
      have replaces : (resolveAll .superseded replaced.handles : Program V Nat).Uses
          (Instruction.Concerns (handles ++ replaced.handles)) :=
        (resolveAll_settles .superseded fun _ => List.mem_append_right _).mono
          Instruction.Settles.concerns
      refine ⟨modest_of_untargeted rfl _, fun _ _ => ?_⟩
      have known : handles ++ replaced.handles ⊆ List.flatMap Exchange.shown
          (later ++ [⟨.publish ⟨replaced.number + 1, sources, handles⟩, ()⟩]) := by
        rw [List.flatMap_append]
        exact fun handle member => List.mem_append_left _ (known member)
      refine (watches.modest known).mono fun _ _ known => ?_
      refine (replaces.modest known).mono fun _ _ _ => ?_
      exact ⟨modest_of_untargeted rfl _, fun _ _ => trivial⟩

end Modest

/-- A call of a service that does not own its pool keeps to the handles of the service. -/
theorem call_modest {call : Call} (serves : call.serves false = true) :
    (call.program : Program V (Result V)).Keeps modestRule (fun _ _ => True) [] := by
  have configures (surroundings : Surroundings) (base : Option String)
      (locations : List RuleLocation) :
      (configure surroundings base locations : Program V _).Keeps modestRule
        (fun _ _ => True) [] := by
    simp only [configure]
    split
    · trivial
    · exact replaceGeneration_modest _ []
  have evaluates {program : Program V (Result V)} (uses : program.Uses Instruction.Evaluates) :
      program.Keeps modestRule (fun _ _ => True) [] :=
    ((uses.mono Instruction.Evaluates.concerns).modest (List.nil_subset _)).mono
      fun _ _ _ => trivial
  cases call with
  | configure surroundings base locations =>
      simp only [Call.program, keeps_bind]
      exact (configures surroundings base locations).mono fun _ _ _ => trivial
  | evaluate document => exact evaluates ((evaluate_uses document).bind fun _ => uses_pure _)
  | validate document suppresses =>
      exact evaluates ((validate_uses document suppresses).bind fun _ => uses_pure _)
  | reportOnly document => exact evaluates ((reportOnly_uses document).bind fun _ => uses_pure _)
  | openService owns surroundings base locations =>
      cases owns with
      | true => cases serves
      | false =>
          refine keeps_bind.mpr (keeps_bind.mpr ?_)
          refine (configures surroundings base locations).mono fun _ found _ => ?_
          cases found <;> trivial
  | closeService owns =>
      cases owns with
      | true => cases serves
      | false =>
          simp only [Call.program, closeService, close, snapshot, keeps_bind]
          refine ⟨modest_of_untargeted rfl _, fun generation _ => ?_⟩
          have known : generation.handles ⊆
              ([⟨.snapshot, generation⟩] : List (Exchange V)).flatMap Exchange.shown := by
            simp [Exchange.shown]
          have withdraws : (resolveAll .cancelled generation.handles : Program V Nat).Uses
              (Instruction.Concerns generation.handles) :=
            (resolveAll_settles .cancelled fun _ member => member).mono
              Instruction.Settles.concerns
          exact (withdraws.modest known).mono fun _ _ _ => trivial
  | _ => cases serves

end Schematron.Engine

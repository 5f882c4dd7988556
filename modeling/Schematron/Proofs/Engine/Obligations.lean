import Schematron.Proofs.Engine.Duties

/-!
Obligations: what callers take on. Main statement: a caller that waits, or has come to its end,
keeps nobody out, and has asked for everything to be resolved that it was given to withdraw.
-/

namespace Schematron.Engine

open Program

variable {V α β : Type}

def Call.closes : Call → Bool
  | close => true
  | closeService _ => true
  | _ => false

def Duty.closes : Duty → Bool
  | call request => request.closes
  | job .. => false

def Exchange.burden (closes : Bool) : Exchange V → List Handle
  | ⟨.closePool, closed⟩ => closed.2
  | ⟨.snapshot, generation⟩ => if closes then generation.handles else []
  | _ => []

def ResolvedIn (past : List (Exchange V)) (handle : Handle) : Prop :=
  ∃ outcome reply, ⟨.resolve handle outcome, reply⟩ ∈ past

theorem ResolvedIn.mono {past more : List (Exchange V)} {handle : Handle}
    (resolved : ResolvedIn past handle) (grows : past ⊆ more) : ResolvedIn more handle := by
  obtain ⟨outcome, reply, member⟩ := resolved
  exact ⟨outcome, reply, grows member⟩

def Discharged (closes : Bool) : List (Exchange V) → Prop
  | [] => True
  | exchange :: rest =>
      (∀ handle ∈ exchange.burden closes, ResolvedIn rest handle) ∧ Discharged closes rest

section Discharged

variable {closes : Bool} {first second : List (Exchange V)}

theorem Discharged.append (discharged : Discharged closes first)
    (also : Discharged closes second) : Discharged closes (first ++ second) := by
  induction first with
  | nil => exact also
  | cons exchange rest ih =>
      refine ⟨fun handle burdened => ?_, ih discharged.2⟩
      exact (discharged.1 handle burdened).mono (List.subset_append_left rest second)

theorem discharged_of_burdenless (burdenless : ∀ exchange ∈ first, exchange.burden closes = []) :
    Discharged closes first := by
  induction first with
  | nil => trivial
  | cons exchange rest ih =>
      refine ⟨?_, ih fun other member => burdenless other (List.mem_cons_of_mem _ member)⟩
      rw [burdenless exchange List.mem_cons_self]
      exact fun _ member => absurd member List.not_mem_nil

theorem Discharged.resolvedIn {exchange : Exchange V}
    (discharged : Discharged closes (first ++ exchange :: second)) {handle : Handle}
    (burdened : handle ∈ exchange.burden closes) : ResolvedIn second handle := by
  induction first with
  | nil => exact discharged.1 handle burdened
  | cons _ _ ih => exact ih discharged.2

end Discharged

def Replacing.IsFree : Replacing → Prop
  | idle => True
  | withdrawn => True
  | _ => False

structure Tidy (closes : Bool) (past : List (Exchange V)) : Prop where
  free : (replacing past).IsFree
  discharged : Discharged closes past

theorem tidy_nil (closes : Bool) : Tidy closes ([] : List (Exchange V)) := ⟨trivial, trivial⟩

-- A thread may wait only while it is tidy, and it stops the workers of the executor that it has
-- taken out of service.
def tidyRule (closes : Bool) : Rule V := fun past instruction =>
  match instruction with
  | .await .. => Tidy closes past
  | .drain _ => Tidy closes past
  | .reserve => Tidy closes past
  | .snapshot => Tidy closes past
  | .compile _ => Tidy closes past
  | .abandon executor => ∃ outstanding, ⟨.closePool, (some executor, outstanding)⟩ ∈ past
  | _ => True

/-! Instructions that bring no obligations -/

def Instruction.IsLight : Instruction V → Prop
  | .submit .. => False
  | .closePool => False
  | .abandon _ => False
  | .reserve => False
  | .release => False
  | .publish _ => False
  | .snapshot => False
  | _ => True

theorem Instruction.Tends.isLight {permitted : Outcome V → Prop} (instruction : Instruction V)
    (tends : instruction.Tends permitted) : instruction.IsLight := by
  cases instruction with
  | resolve | register | note | call => trivial
  | _ => exact tends.elim

section Light

variable {closes : Bool} {past after : List (Exchange V)}

theorem Instruction.IsLight.after_eq {instruction : Instruction V} (light : instruction.IsLight)
    (stage : Replacing) (reply : instruction.Reply) : stage.after ⟨instruction, reply⟩ = stage := by
  cases instruction with
  | submit | closePool | abandon | reserve | release | publish | snapshot => exact light.elim
  | _ => rfl

theorem Instruction.IsLight.burden_eq {instruction : Instruction V} (light : instruction.IsLight)
    (reply : instruction.Reply) : Exchange.burden closes ⟨instruction, reply⟩ = [] := by
  cases instruction with
  | submit | closePool | abandon | reserve | release | publish | snapshot => exact light.elim
  | _ => rfl

theorem replacing_append_light (light : ∀ exchange ∈ after, exchange.instruction.IsLight) :
    replacing (past ++ after) = replacing past := by
  induction after generalizing past with
  | nil => rw [List.append_nil]
  | cons exchange rest ih =>
      have single : replacing (past ++ [exchange]) = replacing past := by
        rw [replacing_concat]
        exact (light exchange List.mem_cons_self).after_eq _ _
      rw [List.append_cons, ih fun other member => light other (List.mem_cons_of_mem _ member),
        single]

theorem discharged_light (light : ∀ exchange ∈ after, exchange.instruction.IsLight) :
    Discharged closes after :=
  discharged_of_burdenless fun exchange member => (light exchange member).burden_eq _

theorem Tidy.light (tidy : Tidy closes past)
    (light : ∀ exchange ∈ after, exchange.instruction.IsLight) : Tidy closes (past ++ after) where
  free := by
    rw [replacing_append_light light]
    exact tidy.free
  discharged := tidy.discharged.append (discharged_light light)

/-- What was given to withdraw has been dealt with by what came after. -/
theorem Tidy.discharge (tidy : Tidy closes past) {exchange : Exchange V}
    (free : ((replacing past).after exchange).IsFree)
    (light : ∀ exchange ∈ after, exchange.instruction.IsLight)
    (resolved : ∀ handle ∈ exchange.burden closes, ResolvedIn after handle) :
    Tidy closes (past ++ exchange :: after) where
  free := by
    rw [List.append_cons, replacing_append_light light, replacing_concat]
    exact free
  discharged := tidy.discharged.append ⟨resolved, discharged_light light⟩

theorem Program.Uses.tidies {program : Program V α} (uses : program.Uses Instruction.IsLight)
    (tidy : Tidy closes past) :
    program.Keeps (tidyRule closes) (fun later _ => Tidy closes later) past := by
  refine uses.keeps (fun later instruction light tidy => ?_)
    (fun later instruction reply light tidy => ?_) tidy
  · cases instruction with
    | submit | closePool | abandon | reserve | release | publish | snapshot => exact light.elim
    | await | drain | compile => exact tidy
    | _ => trivial
  · exact tidy.light fun exchange member => by
      rw [List.mem_singleton.mp member]
      exact light

theorem Program.Uses.tends_along {permitted : Outcome V → Prop} {program : Program V α}
    (uses : program.Uses (Instruction.Tends permitted)) (closes : Bool)
    (past : List (Exchange V)) :
    program.Keeps (tidyRule closes) (fun later _ => ∃ after, later = past ++ after ∧
      ∀ exchange ∈ after, exchange.instruction.IsLight) past := by
  have rule : program.Keeps (tidyRule closes) (fun _ _ => True) past := by
    refine uses.keeps (fun later instruction tends _ => ?_) (fun _ _ _ _ _ => trivial) trivial
    cases instruction with
    | resolve | register | note | call => trivial
    | _ => exact tends.elim
  refine (rule.and (uses.adds past)).mono ?_
  rintro _ _ ⟨-, after, rfl, tends⟩
  exact ⟨after, rfl, fun exchange member => (tends exchange member).isLight⟩

end Light

/-! What callers do -/

section Programs

variable {closes : Bool} {past : List (Exchange V)}

theorem resolveAll_discharges (outcome : Outcome V) (handles : List Handle) (closes : Bool)
    (past : List (Exchange V)) :
    (resolveAll outcome handles).Keeps (tidyRule closes) (fun later _ => ∃ after,
      later = past ++ after ∧ (∀ exchange ∈ after, exchange.instruction.IsLight) ∧
      ∀ handle ∈ handles, ResolvedIn after handle) past := by
  refine (((resolveAll_uses outcome handles).tends_along closes past).and
    (resolveAll_asks outcome handles past)).mono ?_
  rintro _ _ ⟨⟨after, rfl, light⟩, asked, same, all⟩
  rw [List.append_cancel_left same]
  refine ⟨asked, rfl, List.append_cancel_left same ▸ light, fun handle member => ?_⟩
  obtain ⟨reply, found⟩ := all handle member
  exact ⟨outcome, reply, found⟩

theorem shutdown_tidies (waits : Bool) (tidy : Tidy closes past) :
    (shutdown waits : Program V Unit).Keeps (tidyRule closes) (fun later _ => Tidy closes later)
      past := by
  simp only [shutdown, keeps_bind]
  refine ⟨trivial, ?_⟩
  rintro ⟨executor, outstanding⟩ -
  refine (resolveAll_discharges .cancelled outstanding closes _).mono ?_
  rintro _ count ⟨after, rfl, light, resolved⟩
  rw [List.append_assoc, List.singleton_append]
  have cleared : Tidy closes
      (past ++ ⟨.closePool, (executor, outstanding)⟩ :: after) :=
    tidy.discharge tidy.free light resolved
  cases executor with
  | none => exact cleared
  | some executor =>
      refine ⟨⟨outstanding, by simp⟩, fun reply _ => ?_⟩
      have abandoned : Tidy closes ((past ++
          ⟨.closePool, (some executor, outstanding)⟩ :: after) ++ [⟨.abandon executor, reply⟩]) :=
        cleared.discharge cleared.free (by simp) (by simp [Exchange.burden])
      cases waits with
      | false => exact abandoned
      | true =>
          refine ⟨abandoned, fun reply _ => ?_⟩
          exact abandoned.light (by simp [Instruction.IsLight])

theorem close_tidies (tidy : Tidy closes past) :
    (close : Program V Unit).Keeps (tidyRule closes) (fun later _ => Tidy closes later) past := by
  simp only [close, snapshot, keeps_bind]
  refine ⟨tidy, fun generation _ => ?_⟩
  refine (resolveAll_discharges .cancelled generation.handles closes _).mono ?_
  rintro _ count ⟨after, rfl, light, resolved⟩
  rw [List.append_assoc, List.singleton_append]
  refine tidy.discharge tidy.free light fun handle burdened => ?_
  simp only [Exchange.burden] at burdened
  split at burdened
  · exact resolved handle burdened
  · exact absurd burdened List.not_mem_nil

theorem submitAll_along {replaced : Generation} (number : Int) (sources : List RuleSource)
    (drafting : replacing past = .drafting replaced []) (discharged : Discharged closes past) :
    (submitAll number sources).Keeps (tidyRule closes) (fun later found =>
      replacing later = .drafting replaced found.1 ∧ Discharged closes later) past := by
  have rule : (submitAll number sources).Keeps (tidyRule closes)
      (fun later _ => Discharged closes later) past := by
    refine (submitAll_uses number sources).keeps ?_ ?_ discharged
    · rintro later _ ⟨source, generation, rfl⟩ -
      trivial
    · rintro later _ reply ⟨source, generation, rfl⟩ before
      refine before.append (discharged_of_burdenless ?_)
      simp [Exchange.burden]
  refine (rule.and (submitAll_keeps number sources drafting)).mono ?_
  rintro later found ⟨before, drafted, -, -⟩
  exact ⟨drafted, before⟩

def Replaced (closes : Bool) (past : List (Exchange V)) : Except Failure Int → Prop
  | .ok _ => (∃ replaced next, replacing past = .published replaced next) ∧ Discharged closes past
  | .error _ => Tidy closes past

theorem replaceGeneration_tidies (sources : List RuleSource) (tidy : Tidy closes past) :
    (replaceGeneration sources).Keeps (tidyRule closes) (Replaced closes) past := by
  simp only [replaceGeneration, keeps_bind]
  refine ⟨tidy, fun replaced _ => ?_⟩
  have drafting : replacing (past ++ [⟨.reserve, replaced⟩]) = .drafting replaced [] := by
    simp [Replacing.after]
  have discharged : Discharged closes (past ++ [⟨.reserve, replaced⟩]) :=
    tidy.discharged.append (discharged_of_burdenless (by simp [Exchange.burden]))
  refine (submitAll_along (replaced.number + 1) sources drafting discharged).mono ?_
  rintro later ⟨handles, refusal⟩ ⟨drafted, discharged⟩
  cases refusal with
  | some failure =>
      simp only [keeps_bind]
      refine (resolveAll_discharges .cancelled handles closes later).mono ?_
      rintro _ count ⟨after, rfl, light, -⟩
      refine ⟨trivial, fun _ _ => ⟨?_, ?_⟩⟩
      · rw [replacing_concat, replacing_append_light light, drafted]
        trivial
      · refine (discharged.append (discharged_light light)).append ?_
        exact discharged_of_burdenless (by simp [Exchange.burden])
  | none =>
      simp only [keeps_bind]
      refine ⟨trivial, fun _ _ => ?_⟩
      refine ((watchAll_uses handles).tends_along closes _).mono ?_
      rintro _ _ ⟨watching, rfl, quiet⟩
      refine (resolveAll_discharges .superseded replaced.handles closes _).mono ?_
      rintro _ count ⟨asking, rfl, light, -⟩
      refine ⟨trivial, fun reply _ => ?_⟩
      have noting : ∀ exchange ∈ [(⟨_, reply⟩ : Exchange V)], exchange.instruction.IsLight := by
        simp [Instruction.IsLight]
      refine ⟨⟨replaced, ⟨replaced.number + 1, sources, handles⟩, ?_⟩, ?_⟩
      · rw [replacing_append_light noting, replacing_append_light light,
          replacing_append_light quiet, replacing_concat, drafted]
        rfl
      · refine ((discharged.append ?_).append ?_).append ?_ |>.append (discharged_light noting)
        · exact discharged_of_burdenless (by simp [Exchange.burden])
        · exact discharged_light quiet
        · exact discharged_light light

theorem configure_tidies (surroundings : Surroundings) (base : Option String)
    (locations : List RuleLocation) (tidy : Tidy closes past) :
    (configure surroundings base locations).Keeps (tidyRule closes) (Replaced closes) past := by
  simp only [configure]
  split
  · exact tidy
  · exact replaceGeneration_tidies _ tidy

theorem Instruction.Visits.isLight (instruction : Instruction V) (visits : instruction.Visits) :
    instruction.IsLight := by
  cases instruction with
  | evaluation | await | run => trivial
  | _ => exact visits.elim

theorem evaluate_tidies (document : Document) (tidy : Tidy false past) :
    (evaluate document : Program V (Except Failure Report)).Keeps (tidyRule false)
      (fun later _ => Tidy false later) past := by
  simp only [evaluate, keeps_bind]
  refine ⟨trivial, fun evaluation _ => ?_⟩
  have judged : Tidy false (past ++ [⟨.evaluation, evaluation⟩]) :=
    tidy.light (by simp [Instruction.IsLight])
  simp only [Keeps]
  split
  · simp only [snapshot, keeps_bind]
    refine ⟨judged, fun generation _ => ?_⟩
    have seen : Tidy false (past ++ [⟨.evaluation, evaluation⟩] ++ [⟨.snapshot, generation⟩]) :=
      judged.discharge judged.free (by simp) (by simp [Exchange.burden])
    exact (((runAll_uses document _).mono Instruction.Visits.isLight).tidies seen).mono
      fun later found tidy => tidy
  · exact judged

end Programs

/-! All threads -/

structure Unburdened (closes : Bool) (past : List (Exchange V)) : Prop where
  undrafted : ∀ replaced handles, replacing past ≠ .drafting replaced handles
  discharged : Discharged closes past

theorem Tidy.unburdened {closes : Bool} {past : List (Exchange V)} (tidy : Tidy closes past) :
    Unburdened closes past where
  undrafted replaced handles drafting := by
    have free := tidy.free
    rw [drafting] at free
    exact free
  discharged := tidy.discharged

theorem Replaced.unburdened {closes : Bool} {past : List (Exchange V)} {found : Except Failure Int}
    (replaced : Replaced closes past found) : Unburdened closes past := by
  cases found with
  | error failure => exact Tidy.unburdened replaced
  | ok number =>
      obtain ⟨⟨before, next, published⟩, discharged⟩ := replaced
      exact ⟨fun _ _ drafting => by simp [published] at drafting, discharged⟩

theorem openService_tidies (ownsPool : Bool) (surroundings : Surroundings) (base : Option String)
    (locations : List RuleLocation) :
    (openService ownsPool surroundings base locations : Program V _).Keeps (tidyRule false)
      (fun past _ => Unburdened false past) [] := by
  have configures (aftermath : Program V Unit) (past : List (Exchange V)) (tidy : Tidy false past)
      (tidies : ∀ past, Tidy false past →
        aftermath.Keeps (tidyRule false) (fun later _ => Tidy false later) past) :
      (configure surroundings base locations >>= fun found =>
        match found with
        | .ok _ => pure (.ok ())
        | .error failure => aftermath >>= fun _ =>
            pure (.error failure : Except Failure Unit)).Keeps
        (tidyRule false) (fun past _ => Unburdened false past) past := by
    rw [keeps_bind]
    refine (configure_tidies surroundings base locations tidy).mono fun later found replaced => ?_
    cases found with
    | ok number => exact replaced.unburdened
    | error failure =>
        rw [keeps_bind]
        exact (tidies later replaced).mono fun last _ tidy => tidy.unburdened
  cases ownsPool with
  | false => exact configures (pure ()) [] (tidy_nil false) fun past tidy => tidy
  | true =>
      refine ⟨trivial, fun reply _ => configures (shutdown true) _ ?_ fun past tidy =>
        shutdown_tidies true tidy⟩
      exact (tidy_nil false).light (by simp [Instruction.IsLight])

theorem closeService_tidies (ownsPool : Bool) :
    (closeService ownsPool : Program V Unit).Keeps (tidyRule true)
      (fun later _ => Tidy true later) [] := by
  simp only [closeService, keeps_bind]
  refine (close_tidies (tidy_nil true)).mono fun later _ tidy => ?_
  cases ownsPool with
  | false => exact tidy
  | true => exact shutdown_tidies true tidy

theorem call_tidies (call : Call) :
    (call.program : Program V (Result V)).Keeps (tidyRule call.closes)
      (fun past _ => Unburdened call.closes past) [] := by
  have light {α : Type} {program : Program V α} (uses : program.Uses Instruction.IsLight)
      (answer : α → Result V) :
      (program >>= fun value => pure (answer value)).Keeps (tidyRule false)
        (fun past _ => Unburdened false past) [] :=
    ((uses.bind fun value => uses_pure (answer value)).tidies (tidy_nil false)).mono
      fun _ _ tidy => tidy.unburdened
  cases call with
  | create source generation => exact light (uses_send (.create source generation) trivial) _
  | start => exact light (uses_send .openPool trivial) _
  | shutdown waits =>
      simp only [Call.program, keeps_bind]
      exact (shutdown_tidies waits (tidy_nil _)).mono fun _ _ tidy => tidy.unburdened
  | submit source generation =>
      refine ⟨trivial, fun found _ => ?_⟩
      have submitted : Unburdened false
          ([⟨.submit source generation, found⟩] : List (Exchange V)) := by
        refine ⟨fun _ _ => ?_, discharged_of_burdenless (by simp [Exchange.burden])⟩
        cases found <;> simp [replacing, Replacing.after, Replacing.handIn]
      exact submitted
  | cancel handle isSuperseded =>
      refine light ((resolve_uses handle (.withdrawn isSuperseded)).mono ?_) _
      exact Instruction.Tends.isLight
  | onDone handle callback =>
      have uses := (onDone_uses (V := V) handle callback).mono Instruction.Tends.isLight
      refine ((uses.bind fun raised => ?_).tidies (tidy_nil false)).mono
        fun _ _ tidy => tidy.unburdened
      cases raised <;> exact uses_pure _
  | await handle limit => exact light (uses_send (.await handle limit) trivial) _
  | configure surroundings base locations =>
      simp only [Call.program, keeps_bind]
      exact (configure_tidies surroundings base locations (tidy_nil _)).mono
        fun _ _ replaced => replaced.unburdened
  | close =>
      simp only [Call.program, keeps_bind]
      exact (close_tidies (tidy_nil _)).mono fun _ _ tidy => tidy.unburdened
  | snapshot =>
      refine ⟨tidy_nil false, fun generation _ => ?_⟩
      have seen : Tidy false ([⟨.snapshot, generation⟩] : List (Exchange V)) :=
        ⟨trivial, discharged_of_burdenless (by simp [Exchange.burden])⟩
      exact seen.unburdened
  | evaluate document =>
      simp only [Call.program, keeps_bind]
      exact (evaluate_tidies document (tidy_nil _)).mono fun _ _ tidy => tidy.unburdened
  | validate document suppresses =>
      simp only [Call.program, validate, keeps_bind]
      exact (evaluate_tidies document (tidy_nil _)).mono fun _ _ tidy => tidy.unburdened
  | reportOnly document =>
      simp only [Call.program, reportOnly, keeps_bind]
      refine (evaluate_tidies document (tidy_nil _)).mono fun past found tidy => ?_
      cases found with
      | ok report => exact tidy.unburdened
      | error failure =>
          change Keeps _ _ _ (if failure.isForeign then _ else _)
          split
          · exact tidy.unburdened
          · split
            · exact tidy.unburdened
            · refine ⟨trivial, fun reply _ => ?_⟩
              exact (tidy.light (by simp [Instruction.IsLight])).unburdened
  | openService ownsPool surroundings base locations =>
      simp only [Call.program, keeps_bind]
      exact openService_tidies ownsPool surroundings base locations
  | closeService ownsPool =>
      simp only [Call.program, keeps_bind]
      exact (closeService_tidies ownsPool).mono fun _ _ tidy => tidy.unburdened

theorem duty_tidies (duty : Duty) :
    (duty.program : Program V (Result V)).Keeps (tidyRule duty.closes)
      (fun past _ => Unburdened duty.closes past) [] := by
  cases duty with
  | call call => exact call_tidies call
  | job executor handle =>
      have uses : ((Duty.job executor handle).program : Program V (Result V)).Uses
          Instruction.IsLight := by
        refine Uses.bind ?_ fun _ => uses_pure _
        refine ((work_uses executor handle).mono fun instruction compiles => ?_).bind fun _ =>
          uses_send (.retire executor handle) trivial
        cases instruction with
        | enter | compile | resolve | note | call => trivial
        | _ => exact compiles.elim
      exact (uses.tidies (tidy_nil false)).mono fun _ _ tidy => tidy.unburdened

end Schematron.Engine

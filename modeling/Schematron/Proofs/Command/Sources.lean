import Schematron.Proofs.Command.Validation
import Schematron.Proofs.Engine.Likeness
import Schematron.Proofs.Engine.Sourcing
import Schematron.Proofs.Location.Links

/-!
Rule sets from arguments. Main statement: the commands configure and compile just the rule sets that
the arguments resolve to from the working directory, in their order, and none where one of them does
not resolve; it makes no difference which rule sets and which base directory the configuration
names.
-/

namespace Schematron

namespace Service

structure Alike (service other : Service) : Prop where
  pipeline : service.pipeline = other.pipeline
  suppresses : service.suppressesWarnings = other.suppressesWarnings
  system : service.system.Alike .exact Eq other.system

variable {service other : Service}

theorem Alike.ask (alike : service.Alike other) (files : FileTree) {call instead : Engine.Call}
    (programs : (call.program : Engine.Program Validator (Engine.Result Validator)) =
      instead.program) :
    (service.ask files call).1 = (other.ask files instead).1 ∧
      (service.ask files call).2.Alike (other.ask files instead).2 := by
  have world : service.world files = other.world files := by rw [world, world, alike.pipeline]
  have honours : (other.world files).Honours .exact := fun _ _ _ stands => stands.elim
  have same : (call.program : Engine.Program Validator _).Alike .exact Eq instead.program :=
    programs ▸ .refl (fun _ => rfl) _
  obtain ⟨answers, systems⟩ := alike.system.perform (fun _ => rfl) honours same
  have equal : (service.system.perform (other.world files) call).1 =
      (other.system.perform (other.world files) instead).1 := by
    rcases Engine.System.rel_cases answers with ⟨waits, lingers⟩ | ⟨_, _, ends, comes, same⟩
    · rw [waits, lingers]
    · rw [ends, comes, same]
  rw [Service.ask, Service.ask, world]
  exact ⟨congrArg (fun answer => answer.getD (.error (.general "No answer"))) equal,
    alike.pipeline, alike.suppresses, systems⟩

end Service

namespace Command

inductive Matches {α β : Type} (related : α → β → Prop) :
    Except Ending α × Transcript → Except Ending β × Transcript → Prop
  | ended {ending : Ending} {after : Transcript} :
      Matches related (.error ending, after) (.error ending, after)
  | went {value : α} {also : β} {after : Transcript} : related value also →
      Matches related (.ok value, after) (.ok also, after)

def Session.Alike {α β : Type} (related : α → β → Prop) (session : Session α)
    (other : Session β) : Prop :=
  ∀ before, Matches related (session.resume before) (other.resume before)

namespace Session

variable {α β γ δ : Type} {related : α → β → Prop} {session : Session α} {other : Session β}

theorem Alike.refl (session : Session α) : Alike Eq session session := by
  intro before
  obtain ⟨result, after⟩ := session.resume before
  cases result with
  | error ending => exact .ended
  | ok value => exact .went rfl

theorem Alike.bind {matching : γ → δ → Prop} {next : α → Session γ} {later : β → Session δ}
    (alike : Alike related session other)
    (goes : ∀ value also, related value also → Alike matching (next value) (later also)) :
    Alike matching (session >>= next) (other >>= later) := by
  intro before
  have results := alike before
  generalize first : session.resume before = result at results
  generalize second : other.resume before = answer at results
  cases results with
  | ended =>
      rw [resume_bind_error first, resume_bind_error second]
      exact .ended
  | went values =>
      rw [resume_bind_ok first, resume_bind_ok second]
      exact goes _ _ values _

theorem Alike.run_eq {session other : Session Unit} (alike : Alike Eq session other) :
    session.run = other.run := by
  have results := alike ⟨[], none⟩
  have runs (session : Session Unit) : session.run =
      match session.resume ⟨[], none⟩ with
      | (.ok (), transcript) => (.exit 0, transcript)
      | (.error ending, transcript) => (ending, transcript) := rfl
  rw [runs, runs]
  generalize session.resume ⟨[], none⟩ = result at results ⊢
  generalize other.resume ⟨[], none⟩ = answer at results ⊢
  cases results with
  | ended => rfl
  | went => rfl

end Session

open Session

/-! The services of two sessions -/

section Services

variable {service other : Service} (desk : Desk)

theorem examine_of_alike (alike : service.Alike other) (path : String) :
    (examine desk service path).1 = (examine desk other path).1 ∧
      (examine desk service path).2.Alike (examine desk other path).2 := by
  simp only [examine]
  cases Document.ofFile desk.files desk.surroundings path none none with
  | error failure => exact ⟨rfl, alike⟩
  | ok document =>
      have call : service.validateCall document = other.validateCall document := by
        rw [Service.validateCall, Service.validateCall, alike.suppresses]
      obtain ⟨answers, services⟩ := alike.ask desk.files (congrArg Engine.Call.program call)
      dsimp only
      generalize service.ask desk.files (service.validateCall document) = first
        at answers services ⊢
      generalize other.ask desk.files (other.validateCall document) = second at answers services ⊢
      obtain ⟨answer, after⟩ := first
      obtain ⟨also, later⟩ := second
      cases answers
      cases answer with
      | ok found => exact ⟨rfl, services⟩
      | error failure => cases failure <;> exact ⟨rfl, services⟩

theorem validateAll_of_alike (isTable : Bool) (alike : service.Alike other)
    (paths : List String) :
    validateAll desk isTable service paths = validateAll desk isTable other paths := by
  induction paths generalizing service other with
  | nil => rfl
  | cons path paths ih =>
      obtain ⟨examined, services⟩ := examine_of_alike desk alike path
      simp only [validateAll]
      rw [examined, ih services]

end Services

def sources (desk : Desk) (schemas : List String) : Except Failure (List RuleSource) :=
  schemas.mapM fun argument =>
    (desk.files.resolve desk.surroundings (.ofString argument)).map RuleSource.mk

def relocated (settings : Settings) (files : List String) (directory : String) : Settings :=
  { settings with ruleSets.files := files, ruleSets.baseDirectory := directory }

section Arguments

variable {desk : Desk} {schemas : List String} {found : List RuleSource} {settings taken : Settings}

theorem schemaPath_mapM (desk : Desk) (schemas : List String) :
    schemas.mapM (schemaPath desk) =
      (sources desk schemas).map (List.map RuleSource.toString) := by
  induction schemas with
  | nil => rfl
  | cons argument rest ih =>
      rw [sources] at ih
      rw [sources, List.mapM_cons, List.mapM_cons, ih, schemaPath]
      cases desk.files.resolve desk.surroundings (.ofString argument) with
      | error failure => rfl
      | ok path =>
          cases rest.mapM fun argument =>
            (desk.files.resolve desk.surroundings (.ofString argument)).map RuleSource.mk <;> rfl

theorem withSchemas_eq (given : schemas ≠ []) (desk : Desk) (settings : Settings) :
    withSchemas desk schemas settings = (sources desk schemas).map fun found =>
      { settings with ruleSets.files := found.map RuleSource.toString } := by
  have some : ¬schemas.isEmpty = true := by simpa using given
  rw [withSchemas, if_neg some, schemaPath_mapM]
  cases sources desk schemas <;> rfl

theorem withSchemas_files (given : schemas ≠ []) (named : sources desk schemas = .ok found)
    (takes : withSchemas desk schemas settings = .ok taken) :
    taken.ruleSets.files = found.map RuleSource.toString := by
  rw [withSchemas_eq given, named] at takes
  cases takes
  rfl

def AreWritten (found : List RuleSource) : Prop :=
  ∀ source ∈ found, source.path.Clean ∧ source.path.isAbsolute = true

theorem areWritten_of_sources (clean : desk.surroundings.workingDirectory.Clean)
    (named : sources desk schemas = .ok found) : AreWritten found := by
  have each := mapM_eq_ok_iff.mp named
  clear named
  induction each with
  | nil => simp [AreWritten]
  | @cons argument source _ _ resolves _ ih =>
      refine List.forall_mem_cons.mpr ⟨?_, ih⟩
      cases path : desk.files.resolve desk.surroundings (.ofString argument) with
      | error failure =>
          rw [path] at resolves
          cases resolves
      | ok resolved =>
          rw [path] at resolves
          cases resolves
          refine ⟨FileTree.clean_of_resolve (clean.join (Path.ofString_clean argument)) path, ?_⟩
          rw [Path.isAbsolute, (FileTree.settled_of_resolve path).rooted]
          rfl

end Arguments

section Resolved

variable {found : List RuleSource} (written : AreWritten found)

include written

theorem resolveAll_written (surroundings : Surroundings) (base : Option String) :
    RuleLocation.resolveAll surroundings base ((found.map RuleSource.toString).map .written) =
      .ok found := by
  induction found with
  | nil => rfl
  | cons source rest ih =>
      obtain ⟨⟨clean, absolute⟩, others⟩ := List.forall_mem_cons.mp written
      have first := resolve_toString clean absolute surroundings base
      have later := ih others
      rw [RuleLocation.resolveAll] at later ⊢
      rw [List.map_cons, List.map_cons, List.mapM_cons, later, RuleLocation.resolve,
        RuleSource.resolve, RuleSource.toString, first]
      rfl

theorem compileAll_written (desk : Desk) (pipeline : Pipeline) (base : String) :
    compileAll desk pipeline base (found.map RuleSource.toString) =
      found.mapM (compileSource desk pipeline) := by
  induction found with
  | nil => rfl
  | cons source rest ih =>
      obtain ⟨⟨clean, absolute⟩, others⟩ := List.forall_mem_cons.mp written
      have leads : RuleSource.resolve desk.surroundings (some base) source.toString =
          .ok source := by
        rw [RuleSource.resolve, RuleSource.toString, resolve_toString clean absolute]
        rfl
      have first : compileLocation desk pipeline base source.toString =
          compileSource desk pipeline source := by
        rw [compileLocation, leads]
        rfl
      have later := ih others
      rw [compileAll] at later ⊢
      rw [List.map_cons, List.mapM_cons, List.mapM_cons, later, first]

/-- From where rule sets are seen makes no difference to what a service does to open. -/
theorem openService_program (surroundings : Surroundings) (ownsPool : Bool)
    (base other : Option String) :
    ((Engine.Call.openService ownsPool surroundings base
        ((found.map RuleSource.toString).map .written)).program :
          Engine.Program Validator (Engine.Result Validator)) =
      (Engine.Call.openService ownsPool surroundings other
        ((found.map RuleSource.toString).map .written)).program := by
  simp only [Engine.Call.program, Engine.openService, Engine.configure, resolveAll_written written]

end Resolved

inductive Rebased (found : List RuleSource) : Settings → Settings → Prop
  | from {settings : Settings} (directory : String) :
      settings.ruleSets.files = found.map RuleSource.toString →
      Rebased found settings { settings with ruleSets.baseDirectory := directory }

section Rebased

variable {desk : Desk} {schemas : List String} {found : List RuleSource} {settings other : Settings}

theorem Rebased.filtered (rebased : Rebased found settings other) (filter : Option String) :
    Rebased found (withFilter filter settings) (withFilter filter other) := by
  obtain ⟨directory, named⟩ := rebased
  cases filter with
  | none => exact .from directory named
  | some filter => exact .from directory named

theorem Rebased.suppressed (rebased : Rebased found settings other) (suppresses : Bool) :
    Rebased found (withSuppression suppresses settings) (withSuppression suppresses other) := by
  obtain ⟨directory, named⟩ := rebased
  cases suppresses with
  | false => exact .from directory named
  | true => exact .from directory named

theorem openService_of_created {created : Service} {settings : Settings}
    (made : Service.create desk.files desk.surroundings settings = .ok created) :
    (∀ answer, (created.ask desk.files created.startCall).1 = .ok answer →
      openService desk settings = pure (created.ask desk.files created.startCall).2) ∧
    ∀ failure, (created.ask desk.files created.startCall).1 = .error failure →
      openService desk settings = crash failure := by
  generalize asked : created.ask desk.files created.startCall = outcome
  obtain ⟨result, service⟩ := outcome
  constructor
  · rintro answer rfl
    simp only [openService, made, asked]
  · rintro failure rfl
    simp only [openService, made, asked]

theorem openService_alike (written : AreWritten found) (rebased : Rebased found settings other) :
    Session.Alike Service.Alike (openService desk settings) (openService desk other) := by
  obtain ⟨directory, named⟩ := rebased
  have same : Pipeline.ofSettings desk.files desk.surroundings
      { settings with ruleSets.baseDirectory := directory }.ruleSets =
        Pipeline.ofSettings desk.files desk.surroundings settings.ruleSets := rfl
  cases configured : Pipeline.ofSettings desk.files desk.surroundings settings.ruleSets with
  | error failure =>
      rw [openService, openService, Service.create, Service.create, same, configured]
      exact fun _ => .ended
  | ok pipeline =>
      cases pooled : Engine.Pool.create? settings.pool.workers with
      | error failure =>
          rw [openService, openService, Service.create, Service.create, same, configured, pooled]
          exact fun _ => .ended
      | ok pool =>
          let first := Service.assemble settings desk.surroundings pipeline true pool
          let second := Service.assemble { settings with ruleSets.baseDirectory := directory }
            desk.surroundings pipeline true pool
          have made : Service.create desk.files desk.surroundings settings = .ok first := by
            rw [Service.create, configured, pooled]
            rfl
          have remade : Service.create desk.files desk.surroundings
              { settings with ruleSets.baseDirectory := directory } = .ok second := by
            rw [Service.create, same, configured, pooled]
            rfl
          have alike : first.Alike second := ⟨rfl, rfl, .refl (fun _ => rfl) _⟩
          have programs : (first.startCall.program : Engine.Program Validator _) =
              second.startCall.program := by
            simp only [Service.startCall, first, second, Service.assemble, named]
            exact openService_program written _ true _ _
          obtain ⟨answers, services⟩ := alike.ask desk.files programs
          obtain ⟨opens, fails⟩ := openService_of_created made
          obtain ⟨reopens, refails⟩ := openService_of_created remade
          cases asked : (first.ask desk.files first.startCall).1 with
          | error failure =>
              rw [fails failure asked, refails failure (answers.symm.trans asked)]
              exact fun _ => .ended
          | ok answer =>
              rw [opens answer asked, reopens answer (answers.symm.trans asked)]
              exact fun _ => .went services

structure Reconfigured (desk : Desk) (options instead : Options) : Prop where
  schemas : instead.schemas = options.schemas
  verbose : instead.verbose = options.verbose
  loaded : ∃ settings files directory,
    Settings.load desk.files desk.surroundings options.config = .ok settings ∧
    Settings.load desk.files desk.surroundings instead.config =
      .ok (relocated settings files directory)

def Replaced (settings other : Settings) : Prop :=
  ∃ found, AreWritten found ∧ Rebased found settings other

section Commands

variable {options instead : Options} (clean : desk.surroundings.workingDirectory.Clean)
  (given : options.schemas ≠ []) (reconfigured : Reconfigured desk options instead)

include clean given reconfigured

theorem settingsFor_alike (handles : Failure → Bool) {change : Settings → Settings}
    (changed : ∀ found settings other, Rebased found settings other →
      Rebased found (change settings) (change other)) :
    Session.Alike Replaced (settingsFor desk options handles change)
      (settingsFor desk instead handles change) := by
  obtain ⟨schemas, verbose, settings, files, directory, loaded, reloaded⟩ := reconfigured
  cases named : sources desk options.schemas with
  | error failure =>
      have refused (settings : Settings) :
          withSchemas desk options.schemas settings = .error failure := by
        rw [withSchemas_eq given, named]
        rfl
      simp only [settingsFor, settingsOf, loaded, reloaded, schemas, refused, bind, Except.bind,
        mapError_error]
      split
      · exact (Session.Alike.refl _).bind fun _ _ _ _ => .ended
      · exact fun _ => .ended
  | ok found =>
      have taken (settings : Settings) : withSchemas desk options.schemas settings =
          .ok { settings with ruleSets.files := found.map RuleSource.toString } := by
        rw [withSchemas_eq given, named]
        rfl
      have rebased : Rebased found
          { settings with ruleSets.files := found.map RuleSource.toString }
          { relocated settings files directory with
            ruleSets.files := found.map RuleSource.toString } :=
        .from directory rfl
      simp only [settingsFor, settingsOf, loaded, reloaded, schemas, verbose, taken, bind,
        Except.bind, mapError_ok]
      exact fun _ => .went ⟨found, areWritten_of_sources clean named, changed _ _ _ rebased⟩

theorem validate_alike (asked : ValidateOptions) :
    Session.Alike Eq (validate desk { asked with common := options })
      (validate desk { asked with common := instead }) := by
  simp only [validate]
  refine (Session.Alike.refl (checkFormat asked.format)).bind fun _ _ _ => ?_
  refine (settingsFor_alike clean given reconfigured _ fun _ _ _ rebased =>
    (rebased.filtered asked.filter).suppressed asked.suppressesWarnings).bind ?_
  rintro settings other ⟨found, written, rebased⟩
  have opens : Session.Alike Service.Alike (openService desk settings) (openService desk other) :=
    openService_alike written rebased
  have same : other.ruleSets.files = settings.ruleSets.files := by cases rebased; rfl
  rw [same]
  split
  · exact .refl _
  · refine opens.bind fun service other alike => ?_
    rw [validateAll_of_alike desk (asked.format == "table") alike]
    exact .refl _

theorem report_alike (asked : ReportOptions) :
    Session.Alike Eq (report desk { asked with common := options })
      (report desk { asked with common := instead }) := by
  simp only [report]
  refine (Session.Alike.refl (checkFormat asked.format)).bind fun _ _ _ => ?_
  refine (settingsFor_alike clean given reconfigured _ fun _ _ _ rebased => rebased).bind ?_
  rintro settings other ⟨found, written, rebased⟩
  cases Document.ofFile desk.files desk.surroundings (shownPath asked.document) none none with
  | error failure => exact .refl _
  | ok document =>
      refine (openService_alike written rebased).bind fun service other alike => ?_
      have programs : ((Engine.Call.reportOnly document).program :
        Engine.Program Validator (Engine.Result Validator)) = _ := rfl
      simp only [(alike.ask desk.files programs).1]
      exact .refl _

theorem compileRuleSets_alike :
    Session.Alike Eq (compileRuleSets desk options) (compileRuleSets desk instead) := by
  simp only [compileRuleSets]
  refine (settingsFor_alike clean given reconfigured _ fun _ _ _ rebased => rebased).bind ?_
  rintro settings other ⟨found, written, directory, named⟩
  simp only [named, compileAll_written written]
  exact .refl _

end Commands

end Rebased

structure Names (desk : Desk) (argument : String) (source : RuleSource) : Prop where
  resolved : desk.files.resolve desk.surroundings (.ofString argument) = .ok source.path
  settled : FileTree.Settled source.path
  leads : desk.files.Sound → ∀ entry,
    desk.files.find [] ((Path.ofString argument).absolute desk.surroundings) = .ok entry →
    desk.files.locate [] ((Path.ofString argument).absolute desk.surroundings) =
      .ok source.path.parts

/-- The rule sets that arguments name take the place of whatever the configuration says about rule
sets. -/
structure Overrides (desk : Desk) (schemas : List String) (found : List RuleSource) : Prop where
  named : List.Forall₂ (Names desk) schemas found
  accepted : ∀ settings, ∃ taken, withSchemas desk schemas settings = .ok taken
  resolved : ∀ settings taken base, withSchemas desk schemas settings = .ok taken →
    RuleLocation.resolveAll desk.surroundings base (taken.ruleSets.files.map .written) = .ok found
  opened : ∀ settings taken filter suppresses before after service,
    withSchemas desk schemas settings = .ok taken →
    (openService desk (withSuppression suppresses (withFilter filter taken))).resume before =
      (.ok service, after) →
    service.generation.sources = found
  -- As long as the service is not configured again, whatever else is asked of it.
  confined : ∀ settings taken filter suppresses created,
    withSchemas desk schemas settings = .ok taken →
    Service.create desk.files desk.surroundings
      (withSuppression suppresses (withFilter filter taken)) = .ok created →
    ∀ moves (last : Engine.System Validator), created.system.run moves = some last →
    (∀ (index : Nat) call program, last.threads[index]? = some ⟨.call call, program⟩ →
      call = created.startCall ∨ call.serves true = true ∧ call.configures = false) →
    Engine.System.Sourcing found created.system moves last
  compiled : ∀ settings taken pipeline base, withSchemas desk schemas settings = .ok taken →
    compileAll desk pipeline base taken.ruleSets.files = found.mapM (compileSource desk pipeline)

structure Refuses (desk : Desk) (schemas : List String) (failure : Failure) : Prop where
  first : ∃ earlier argument later, schemas = earlier ++ argument :: later ∧
    (∀ before ∈ earlier, ∃ source, Names desk before source) ∧
    desk.files.resolve desk.surroundings (.ofString argument) = .error failure
  refused : ∀ options settings, options.schemas = schemas →
    Settings.load desk.files desk.surroundings options.config = .ok settings →
    settingsOf desk options = .error (.access failure)

/-- Neither the rule sets that a configuration names nor its base directory make a difference. -/
def Unaffected (desk : Desk) (schemas : List String) : Prop :=
  ∀ options instead, options.schemas = schemas → Reconfigured desk options instead →
    (∀ asked : ValidateOptions, (validate desk { asked with common := options }).run =
      (validate desk { asked with common := instead }).run) ∧
    (∀ asked : ReportOptions, (report desk { asked with common := options }).run =
      (report desk { asked with common := instead }).run) ∧
    (compileRuleSets desk options).run = (compileRuleSets desk instead).run

theorem changed_ruleSets (settings : Settings) (filter : Option String) (suppresses : Bool) :
    (withSuppression suppresses (withFilter filter settings)).ruleSets = settings.ruleSets := by
  cases suppresses <;> cases filter <;> rfl

theorem opened_of_openService {desk : Desk} {settings : Settings} {service : Service}
    {before after : Transcript}
    (opened : (openService desk settings).resume before = (.ok service, after)) :
    ∃ created answer, Service.create desk.files desk.surroundings settings = .ok created ∧
      created.ask desk.files created.startCall = (.ok answer, service) := by
  rw [openService] at opened
  cases made : Service.create desk.files desk.surroundings settings with
  | error failure =>
      rw [made] at opened
      cases opened
  | ok created =>
      simp only [made] at opened
      cases started : created.ask desk.files created.startCall with
      | mk answer other =>
          rw [started] at opened
          cases answer with
          | error failure => cases opened
          | ok found =>
              cases opened
              exact ⟨created, found, rfl, started⟩

section Overriding

variable {desk : Desk} {schemas : List String} {found : List RuleSource}
  (clean : desk.surroundings.workingDirectory.Clean)

include clean

theorem names_of_resolve {argument : String} {path : Path}
    (resolves : desk.files.resolve desk.surroundings (.ofString argument) = .ok path) :
    Names desk argument ⟨path⟩ where
  resolved := resolves
  settled := FileTree.settled_of_resolve resolves
  leads sound entry finds := by
    obtain ⟨reached, locates, same⟩ :=
      FileTree.resolve_of_find sound (clean.join (Path.ofString_clean argument)) finds
    cases resolves.symm.trans same
    exact locates

theorem overrides_of_sources (given : schemas ≠ []) (named : sources desk schemas = .ok found) :
    Overrides desk schemas found := by
  have written := areWritten_of_sources clean named
  have taken {settings taken : Settings} (takes : withSchemas desk schemas settings = .ok taken)
      (filter : Option String) (suppresses : Bool) (base : Option String) :
      RuleLocation.resolveAll desk.surroundings base
        ((withSuppression suppresses (withFilter filter taken)).ruleSets.files.map .written) =
          .ok found := by
    rw [changed_ruleSets, withSchemas_files given named takes]
    exact resolveAll_written written ..
  constructor
  case named =>
    refine (mapM_eq_ok_iff.mp named).imp fun argument source resolves => ?_
    cases path : desk.files.resolve desk.surroundings (.ofString argument) with
    | error failure =>
        rw [path] at resolves
        cases resolves
    | ok resolved =>
        rw [path] at resolves
        cases resolves
        exact names_of_resolve clean path
  case accepted =>
    intro settings
    rw [withSchemas_eq given, named]
    exact ⟨_, rfl⟩
  case resolved =>
    intro settings changed base takes
    exact taken takes none false base
  case opened =>
    intro settings changed filter suppresses before after service takes opened
    obtain ⟨created, answer, made, started⟩ := opened_of_openService opened
    obtain ⟨pipeline, pool, pooled, rfl⟩ := Service.assembled_of_create made
    obtain ⟨performed, after⟩ := Service.performed_of_ask started
    have sources :=
      Engine.System.sources_of_opened pooled (taken takes filter suppresses _) performed
    rw [Service.generation, ← after]
    exact sources
  case confined =>
    intro settings changed filter suppresses created takes made moves last reached calls
    obtain ⟨pipeline, pool, pooled, rfl⟩ := Service.assembled_of_create made
    refine Engine.System.sourcing_of_run pooled reached fun index thread found => ?_
    obtain ⟨duty, program⟩ := thread
    cases duty with
    | job executor handle => exact Engine.job_sourced executor handle
    | call call =>
        rcases calls index call program found with rfl | ⟨serves, keeps⟩
        · exact Engine.openService_sourced true (taken takes filter suppresses _)
        · exact Engine.call_sourced serves keeps
  case compiled =>
    intro settings changed pipeline base takes
    rw [withSchemas_files given named takes]
    exact compileAll_written written ..

theorem refuses_of_sources (given : schemas ≠ []) {failure : Failure}
    (unnamed : sources desk schemas = .error failure) : Refuses desk schemas failure := by
  constructor
  case first =>
    obtain ⟨earlier, argument, later, all, fine, fails⟩ := mapM_eq_error_iff.mp unnamed
    refine ⟨earlier, argument, later, all, fun before member => ?_, ?_⟩
    · obtain ⟨source, resolves⟩ := fine before member
      cases path : desk.files.resolve desk.surroundings (.ofString before) with
      | error failure =>
          rw [path] at resolves
          cases resolves
      | ok resolved => exact ⟨_, names_of_resolve clean path⟩
    · cases path : desk.files.resolve desk.surroundings (.ofString argument) with
      | error other =>
          rw [path] at fails
          cases fails
          rfl
      | ok resolved =>
          rw [path] at fails
          cases fails
  case refused =>
    rintro options settings rfl loaded
    rw [settingsOf, loaded]
    simp only [bind, Except.bind, withSchemas_eq given, unnamed]
    rfl

end Overriding

theorem arguments_override {desk : Desk} {schemas : List String}
    (here : ∃ directory, desk.surroundings.workingDirectory = .ofString directory)
    (given : schemas ≠ []) :
    (∀ found, sources desk schemas = .ok found → Overrides desk schemas found) ∧
      (∀ failure, sources desk schemas = .error failure → Refuses desk schemas failure) ∧
      Unaffected desk schemas := by
  have clean : desk.surroundings.workingDirectory.Clean := by
    obtain ⟨directory, written⟩ := here
    exact written ▸ Path.ofString_clean directory
  refine ⟨fun _ => overrides_of_sources clean given, fun _ => refuses_of_sources clean given, ?_⟩
  rintro options instead rfl reconfigured
  exact ⟨fun asked => (validate_alike clean given reconfigured asked).run_eq,
    fun asked => (report_alike clean given reconfigured asked).run_eq,
    (compileRuleSets_alike clean given reconfigured).run_eq⟩

theorem repeated_arguments_override :
    let desk : Desk := ⟨.empty, ⟨.ofString "/srv/app", fun _ => none⟩⟩
    Overrides desk ["~x/../b.sch", "b.sch", "b.sch"]
      (List.replicate 3 ⟨⟨.slash, ["srv", "app", "b.sch"]⟩⟩) := by
  intro desk
  have named : sources desk ["~x/../b.sch", "b.sch", "b.sch"] =
      .ok (List.replicate 3 ⟨⟨.slash, ["srv", "app", "b.sch"]⟩⟩) := by
    have resolves (argument : String) (clean : ∀ part ∈
        ((Path.ofString argument).absolute desk.surroundings).parts, '\x00' ∉ part.toList) :
        desk.files.resolve desk.surroundings (.ofString argument) = _ :=
      FileTree.resolve_linkless rfl clean
    refine mapM_eq_ok_iff.mpr (.cons ?_ (.cons ?_ (.cons ?_ .nil)))
    all_goals
      rw [resolves _ (by decide +kernel)]
      rfl
  exact (arguments_override ⟨"/srv/app", rfl⟩ (List.cons_ne_nil _ _)).1 _ named

end Command

end Schematron

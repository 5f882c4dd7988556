import Schematron.Proofs.Settings.Checking
import Schematron.Service
import Schematron.Settings.File

/-!
What a host may build on once settings are accepted. Main statement: accepted settings make a
service, unless its stylesheets are at fault; there are workers, every stylesheet is that of a
stage, and patience is above zero or not a number, the latter only where the configuration itself
gives what is not a number.
-/

namespace Schematron

/-- What is neither at most zero nor above zero is not compared at all. -/
theorem lt_or_isNaN_of_not_le {value : Float} (above : ¬value ≤ 0.0) :
    0.0 < value ∨ value.isNaN = true := by
  have zero : (0.0 : Float).toModel.unpack = .zero .positive := by rfl
  have above : ¬value.toModel.unpack.le (0.0 : Float).toModel.unpack = true :=
    fun below => above (decide_eq_true below)
  suffices (0.0 : Float).toModel.unpack.lt value.toModel.unpack = true ∨
      value.toModel.unpack.isNaN = true from this.imp_left decide_eq_true
  rw [zero] at above ⊢
  cases form : value.toModel.unpack with
  | notANumber => exact .inr rfl
  | zero sign =>
      rw [form] at above
      exact absurd rfl above
  | infinity sign =>
      rw [form] at above
      cases sign with
      | positive => exact .inl rfl
      | negative => exact absurd rfl above
  | finite sign =>
      rw [form] at above
      cases sign with
      | positive => exact .inl rfl
      | negative => exact absurd rfl above

namespace Settings

def givenBelow? (members : Members) (part names : Names) : Option Json :=
  match given? members part with
  | some (_, .object inner) => (given? inner names).map (·.2)
  | _ => none

def stylesheetKeys (members : Members) : List Text :=
  match givenBelow? members ["ruleSets", "rule_sets"] ["stylesheets"] with
  | some (.object sheets) => sheets.map (·.1)
  | _ => []

def Serves (settings : Settings) : Except Failure Service → Prop
  | .ok service =>
      (service.system.state.pool.workers : Int) = settings.pool.workers ∧
        service.system.state.evaluation =
          ⟨settings.validation.filter, .seconds settings.pool.patience⟩
  | .error failure => ∃ reason, failure = .compilation reason

structure Usable (members : Members) (settings : Settings) : Prop where
  workers : 1 ≤ settings.pool.workers
  patience : 0.0 < settings.pool.patience ∨
    settings.pool.patience.isNaN = true ∧
      ∃ value, givenBelow? members ["pool"] ["compileTimeoutSeconds", "compile_timeout_seconds"] =
        some value ∧ float value = .ok settings.pool.patience
  priority : 1 ≤ settings.validation.priority ∧ settings.validation.priority ≤ 100
  filter : settings.validation.filter ≠ some ""
  stylesheets : stylesheetKeys members =
    settings.ruleSets.stylesheets.map fun (stage, _) => Text.ofString stage.name
  pool : ∃ pool, Engine.Pool.create? settings.pool.workers = .ok pool ∧
    (pool.workers : Int) = settings.pool.workers
  service : ∀ files surroundings, settings.Serves (Service.create files surroundings settings)

theorem created_pool {workers : Int} (enough : 1 ≤ workers) :
    ∃ pool, Engine.Pool.create? workers = .ok pool ∧ (pool.workers : Int) = workers := by
  have some : ¬workers < 1 := by omega
  refine ⟨⟨workers.toNat, [], none, [], none⟩, by rw [Engine.Pool.create?, if_neg some], ?_⟩
  exact Int.toNat_of_nonneg (by omega)

theorem serves_of_created {settings : Settings} (enough : 1 ≤ settings.pool.workers)
    (files : FileTree) (surroundings : Surroundings) :
    settings.Serves (Service.create files surroundings settings) := by
  obtain ⟨pool, made, workers⟩ := created_pool enough
  simp only [Service.create, made]
  cases Pipeline.ofSettings files surroundings settings.ruleSets with
  | error failure => exact ⟨failure, rfl⟩
  | ok pipeline => exact ⟨workers, rfl⟩

theorem stage_eq_ok {key : Text} {found : Stage} :
    stage key = .ok found ↔ key = Text.ofString found.name := by
  simp only [stage]
  constructor
  · intro accepted
    cases named : key.toString?.bind Stage.ofName? with
    | none =>
        rw [named] at accepted
        cases accepted
    | some stage =>
        rw [named] at accepted
        cases accepted
        obtain ⟨name, read, listed⟩ := Option.bind_eq_some_iff.mp named
        rw [← Text.ofString_of_toString? read, Stage.name_of_ofName? listed]
  · rintro rfl
    rw [Text.toString?_ofString, Option.bind_some, Stage.ofName?_name]

theorem keys_of_stylesheets {sheets : Members} {found : List (Stage × String)}
    (accepted : stylesheets (.object sheets) = .ok found) :
    sheets.map (·.1) = found.map fun (stage, _) => Text.ofString stage.name := by
  simp only [stylesheets, Checked.all_eq_ok] at accepted
  induction sheets generalizing found with
  | nil =>
      cases found with
      | nil => rfl
      | cons => cases accepted
  | cons first rest ih =>
      cases found with
      | nil => cases accepted
      | cons pair others =>
          simp only [List.map_cons, List.cons.injEq, Checked.below_eq_ok] at accepted ⊢
          have both := Checked.and_eq_ok.mp accepted.1
          exact ⟨stage_eq_ok.mp both.1, ih accepted.2⟩

section Sections

variable {α β : Type} {members : Members} {part names : Names}

theorem givenBelow?_of_given {name : Text} {inner : Members}
    (given : given? members part = some (name, .object inner)) :
    givenBelow? members part names = (given? inner names).map (·.2) := by
  rw [givenBelow?, given]

theorem givenBelow?_eq_none (absent : given? members part = none) :
    givenBelow? members part names = none := by
  rw [givenBelow?, absent]

/-- A setting of a section is the default, of the section or of itself, or was read from what the
configuration gives. -/
theorem setting_below (field : α → β) {read : Members → Checked α} {inside : Json → Checked β}
    {whole value : α} {byDefault : β}
    (accepted : setting members part whole (objectOf read) = .ok value)
    (standard : field whole = byDefault)
    (parts : ∀ inner, read inner = .ok value →
      setting inner names byDefault inside = .ok (field value)) :
    (givenBelow? members part names = none ∧ field value = byDefault) ∨
      ∃ found, givenBelow? members part names = some found ∧ inside found = .ok (field value) := by
  obtain ⟨absent, rfl⟩ | ⟨name, found, given, accepted⟩ := setting_eq_ok.mp accepted
  · exact .inl ⟨givenBelow?_eq_none absent, standard⟩
  · obtain ⟨inner, rfl, accepted⟩ := objectOf_eq_ok.mp accepted
    rw [givenBelow?_of_given given]
    have read := setting_eq_ok.mp (parts inner accepted)
    obtain ⟨absent, same⟩ | ⟨name, found, given, accepted⟩ := read
    · exact .inl ⟨by rw [absent, Option.map_none], same.symm⟩
    · exact .inr ⟨found, by rw [given, Option.map_some], accepted⟩

end Sections

section Accepted

variable {members : Members} {settings : Settings}

theorem accepted_of_text {source : String} (given : ofText source = .ok settings) :
    ∃ members, Json.read source = .ok (.object members) ∧ ofMembers members = .ok settings := by
  unfold ofText at given
  split at given
  next => cases given
  next members read =>
    refine ⟨members, read, ?_⟩
    cases accepted : ofMembers members with
    | error faults =>
        rw [accepted] at given
        cases given
    | ok found =>
        rw [accepted] at given
        cases given
        rfl
  next => cases given

theorem stylesheetKeys_of_accepted (accepted : ofMembers members = .ok settings) :
    stylesheetKeys members =
      settings.ruleSets.stylesheets.map fun (stage, _) => Text.ofString stage.name := by
  obtain ⟨-, ruleSets, -⟩ := ofMembers_eq_ok.mp accepted
  obtain ⟨absent, none⟩ | ⟨found, given, read⟩ :=
    setting_below RuleSetSettings.stylesheets ruleSets rfl
      fun inner accepted => (ruleSetsOf_eq_ok.mp accepted).2.2.2
  · rw [stylesheetKeys, absent, none]
    rfl
  · cases found with
    | object sheets =>
        rw [stylesheetKeys, given]
        exact keys_of_stylesheets read
    | _ => cases read

/-- The standard patience is above zero, and a patience that is given is compared with zero. -/
theorem patience_of_accepted (accepted : ofMembers members = .ok settings) :
    0.0 < settings.pool.patience ∨
      settings.pool.patience.isNaN = true ∧
        ∃ value, givenBelow? members ["pool"]
            ["compileTimeoutSeconds", "compile_timeout_seconds"] = some value ∧
          float value = .ok settings.pool.patience := by
  obtain ⟨-, -, -, pool, -⟩ := ofMembers_eq_ok.mp accepted
  obtain ⟨-, standard⟩ | ⟨value, given, read⟩ :=
    setting_below PoolSettings.patience pool rfl
      fun inner accepted => (poolOf_eq_ok.mp accepted).2
  · have positive : (0.0 : Float) < 600.0 := by decide
    exact .inl (standard ▸ positive)
  · obtain ⟨read, above⟩ := patienceOf_eq_ok.mp read
    obtain positive | undefined := lt_or_isNaN_of_not_le above
    · exact .inl positive
    · exact .inr ⟨undefined, value, given, read⟩

theorem usable_of_accepted (accepted : ofMembers members = .ok settings) :
    Usable members settings := by
  obtain ⟨validation, pool⟩ := sections_bounded accepted
  exact {
    workers := pool.one_le_workers
    patience := patience_of_accepted accepted
    priority := ⟨validation.one_le_priority, validation.priority_le⟩
    filter := validation.filter_ne
    stylesheets := stylesheetKeys_of_accepted accepted
    pool := created_pool pool.one_le_workers
    service := serves_of_created pool.one_le_workers }

/-- A configuration is accepted whose patience is not above zero. -/
theorem undefined_patience_usable :
    ∃ members settings,
      Json.read "\x7b\"pool\": \x7b\"compileTimeoutSeconds\": NaN\x7d\x7d" =
          .ok (.object members) ∧
        ofMembers members = .ok settings ∧ ¬0.0 < settings.pool.patience ∧
        Usable members settings := by
  obtain ⟨settings, given, notAbove⟩ : ∃ settings,
      ofText "\x7b\"pool\": \x7b\"compileTimeoutSeconds\": NaN\x7d\x7d" = .ok settings ∧
        ¬0.0 < settings.pool.patience := by
    have evaluated :
        (ofText "\x7b\"pool\": \x7b\"compileTimeoutSeconds\": NaN\x7d\x7d").toOption.any
          (fun settings => !decide (0.0 < settings.pool.patience)) = true := by
      decide +kernel
    generalize ofText _ = outcome at evaluated
    cases outcome with
    | error fault => cases evaluated
    | ok settings => exact ⟨settings, rfl, by simpa [Except.toOption] using evaluated⟩
  obtain ⟨members, read, accepted⟩ := accepted_of_text given
  exact ⟨members, settings, read, accepted, notAbove, usable_of_accepted accepted⟩

end Accepted

end Settings

end Schematron

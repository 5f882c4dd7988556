import Schematron.Proofs.Settings.Checking

/-!
Settings that are written and read again. Main statement: what comes of any section, or of the
whole, once its values are coerced and its defaults filled in, is accepted again and comes to the
same.
-/

namespace Schematron

namespace Settings

open Checked

/-! Reading single values that were written -/

theorem string_written (source : String) : string (.ofString source) = .ok source := by
  rw [Json.ofString, string, Text.toString?_ofString]

theorem optionalString_written (found : Option String) :
    optionalString (.ofOption found) = .ok found := by
  cases found with
  | none => rfl
  | some source =>
      change (string (.ofString source)).map some = _
      rw [string_written]
      rfl

theorem strings_written (sources : List String) :
    strings (.list (sources.map Json.ofString)) = .ok sources := by
  have items (start : Nat) :
      (((sources.map Json.ofString).zipIdx start).map fun entry =>
        (string entry.1).below (.ofString (toString entry.2))) = sources.map .ok := by
    induction sources generalizing start with
    | nil => rfl
    | cons first rest ih =>
        simp only [List.map_cons, List.zipIdx_cons, ih, string_written]
        rfl
  exact all_eq_ok.mpr (items 0)

theorem stylesheets_written (sheets : List (Stage × String)) :
    stylesheets (.record (sheets.map fun (stage, path) => (stage.name, .ofString path))) =
      .ok sheets := by
  refine all_eq_ok.mpr ?_
  rw [List.map_map, List.map_map]
  refine List.map_congr_left ?_
  rintro ⟨found, path⟩ -
  refine below_eq_ok.mpr (and_eq_ok.mpr ⟨?_, string_written path⟩)
  rw [stage, Text.toString?_ofString, Option.bind_some, Stage.ofName?_name]

theorem filterOf_written {filter : Option String} (name : filter ≠ some "") :
    filterOf (.ofOption filter) = .ok filter := by
  rw [filterOf, optionalString_written]
  refine congrArg Except.ok ?_
  cases filter with
  | none => rfl
  | some space =>
      have kept : (!space.isEmpty) = true := by
        simpa using name
      exact Option.filter_some_pos kept

theorem verbosity_written (level : Verbosity) : verbosity (.ofString level.name) = .ok level := by
  rw [Json.ofString, verbosity, Text.toString?_ofString, Option.bind_some, Verbosity.ofName?_name]

/-! Reading records that were written -/

def keyed (fields : List (String × Json)) : Members :=
  fields.map fun (name, value) => (Text.ofString name, value)

theorem member?_keyed (fields : List (String × Json)) (name : String) :
    Json.member? (keyed fields) name = fields.lookup name := by
  induction fields with
  | nil => rfl
  | cons field rest ih =>
      obtain ⟨key, value⟩ := field
      have alike : (Text.ofString name == Text.ofString key) = (name == key) := by
        by_cases same : name = key
        · simp [same]
        · have differs : Text.ofString name ≠ Text.ofString key :=
            fun alike => same (Text.eq_of_ofString_eq alike)
          rw [beq_eq_false_iff_ne.mpr differs, beq_eq_false_iff_ne.mpr same]
      simp only [Json.member?, keyed, List.map_cons, List.lookup_cons, alike] at ih ⊢
      rw [ih]

section Keyed

variable {α : Type} {fields : List (String × Json)} {name : String} {written : Json}

theorem given?_keyed (others : Names) (listed : fields.lookup name = some written) :
    given? (keyed fields) (name :: others) = some (Text.ofString name, written) := by
  rw [given?, List.findSome?_cons, member?_keyed, listed]
  rfl

theorem setting_keyed {others : Names} {byDefault value : α} {read : Json → Checked α}
    (listed : fields.lookup name = some written) (reads : read written = .ok value) :
    setting (keyed fields) (name :: others) byDefault read = .ok value :=
  setting_eq_ok.mpr (.inr ⟨_, _, given?_keyed others listed, reads⟩)

theorem unknownKeys_keyed
    (known : ∀ field ∈ fields, ∃ others, field.1 :: others ∈ names) :
    unknownKeys (keyed fields) = [] := by
  have used : ∀ member ∈ keyed fields,
      member.1 ∈ names.filterMap fun names => (given? (keyed fields) names).map (·.1) := by
    intro member among
    obtain ⟨⟨name, value⟩, listed, rfl⟩ := List.mem_map.mp among
    obtain ⟨others, named⟩ := known _ listed
    have found : (fields.lookup name).isSome = true := by
      rw [List.lookup_isSome_iff]
      exact ⟨_, listed, beq_self_eq_true name⟩
    obtain ⟨written, found⟩ := Option.isSome_iff_exists.mp found
    refine List.mem_filterMap.mpr ⟨_, named, ?_⟩
    rw [given?_keyed others found, Option.map_some]
  simp only [unknownKeys, List.map_eq_nil_iff, List.filter_eq_nil_iff]
  intro member among
  simpa using used member among

end Keyed

/-! Sections that were written -/

theorem ruleSets_written (settings : RuleSetSettings) :
    objectOf ruleSetsOf settings.dump = .ok settings :=
  ruleSetsOf_eq_ok.mpr ⟨setting_keyed rfl (strings_written _), setting_keyed rfl (string_written _),
    setting_keyed rfl (optionalString_written _), setting_keyed rfl (stylesheets_written _)⟩

theorem validation_written {settings : ValidationSettings} (bounded : settings.Bounded) :
    objectOf validationOf settings.dump = .ok settings := by
  have priority : (integer (.integer settings.priority)).map clampPriority =
      .ok settings.priority :=
    congrArg Except.ok (clampPriority_eq bounded.one_le_priority bounded.priority_le)
  exact validationOf_eq_ok.mpr ⟨setting_keyed rfl (filterOf_written bounded.filter_ne),
    setting_keyed rfl rfl, setting_keyed rfl priority⟩

theorem pool_written {settings : PoolSettings} (bounded : settings.Bounded) :
    objectOf poolOf settings.dump = .ok settings :=
  poolOf_eq_ok.mpr ⟨setting_keyed rfl (workersOf_eq_ok.mpr ⟨rfl, bounded.one_le_workers⟩),
    setting_keyed rfl (patienceOf_eq_ok.mpr ⟨rfl, bounded.patience_not_le⟩)⟩

theorem logging_written (settings : LoggingSettings) :
    objectOf loggingOf settings.dump = .ok settings :=
  loggingOf_eq_ok.mpr (setting_keyed rfl (verbosity_written _))

theorem whole_written {settings : Settings} (validation : settings.validation.Bounded)
    (pool : settings.pool.Bounded) : objectOf ofMembers settings.dump = .ok settings := by
  refine ofMembers_eq_ok.mpr ⟨setting_keyed rfl (optionalString_written _),
    setting_keyed rfl (ruleSets_written _), setting_keyed rfl (validation_written validation),
    setting_keyed rfl (pool_written pool), setting_keyed rfl (logging_written _), ?_⟩
  refine unknownKeys_keyed ?_
  simp [names]

/-- What survives being written comes to the same when it is read again. -/
theorem fixed_of_survives {α : Type} {read : Members → Checked α} {dump : α → Json}
    {members : Members} {written : Json} (accepted : (read members).map dump = .ok written)
    (survives : ∀ settings, read members = .ok settings →
      objectOf read (dump settings) = .ok settings) :
    ∃ again, written = .object again ∧ (read again).map dump = .ok written := by
  obtain ⟨settings, found, rfl⟩ := map_eq_ok.mp accepted
  obtain ⟨again, same, read⟩ := objectOf_eq_ok.mp (survives settings found)
  exact ⟨again, same, map_eq_ok.mpr ⟨settings, read, rfl⟩⟩

theorem Section.normalize_fixed {part : Section} {members : Members} {written : Json}
    (accepted : part.normalize members = .ok written) :
    ∃ again, written = .object again ∧ part.normalize again = .ok written := by
  cases part with
  | ruleSets => exact fixed_of_survives accepted fun settings _ => ruleSets_written settings
  | validation =>
      exact fixed_of_survives accepted fun settings read =>
        validation_written (validation_bounded read)
  | pool => exact fixed_of_survives accepted fun settings read => pool_written (pool_bounded read)
  | logging => exact fixed_of_survives accepted fun settings _ => logging_written settings
  | whole =>
      refine fixed_of_survives accepted fun settings read => ?_
      obtain ⟨validation, pool⟩ := sections_bounded read
      exact whole_written validation pool

/-- Settings under both kinds of name, texts for numbers, a priority out of range, and an empty
namespace: none of it is left in what they come to. -/
theorem coerced_fixed :
    let given : Members := [
      ("rule_sets", .object [
        ("base_dir", .ofString "rules"),
        ("stylesheets", .object [("expand", .ofString "expand.xsl")])]),
      ("validation", .object [
        ("namespace", .ofString ""), ("suppress_warnings", .ofString "On"),
        ("priority", .ofString " 1_000 "), ("other", .null)]),
      ("pool", .object [
        ("threadPoolSize", .boolean true), ("compileTimeoutSeconds", .real (0.0 / 0.0)),
        ("compile_timeout_seconds", .integer 0)])]
    let members : Members := keyed [
      ("id", .null),
      ("ruleSets", .record [
        ("files", .list []), ("baseDir", .ofString "rules"), ("phase", .null),
        ("stylesheets", .record [("expand", .ofString "expand.xsl")])]),
      ("validation", .record [
        ("namespace", .null), ("suppressWarnings", .boolean true), ("priority", .integer 100)]),
      ("pool", .record [
        ("threadPoolSize", .integer 1), ("compileTimeoutSeconds", .real (0.0 / 0.0))]),
      ("logging", .record [("level", .ofString "info")])]
    Section.whole.normalize given = .ok (.object members) ∧
      ∃ again, Json.object members = .object again ∧
        Section.whole.normalize again = .ok (.object members) := by
  intro given members
  have accepted : Section.whole.normalize given = .ok (.object members) := by rfl
  exact ⟨accepted, Section.normalize_fixed accepted⟩

end Settings

end Schematron

import Schematron.Diagnostic
import Schematron.Proofs.Text.Lowering
import Schematron.Proofs.Text.Sanitizing

/-!
Severities from flavors. Main statement: the first flavor that is a tag decides, the kind of the
record does without one, and whatever is no tag makes no difference anywhere.
-/

namespace Schematron

open Text

/-! Tags -/

namespace Severity

inductive IsTag : String → Severity → Prop
  | warning : IsTag "warning" warning
  | warn : IsTag "warn" warning
  | info : IsTag "info" warning
  | information : IsTag "information" warning
  | error : IsTag "error" error
  | fatal : IsTag "fatal" error

def Tells (flavor : Text) (severity : Severity) : Prop :=
  -- A flavor is a tag of a severity: a word for it in capitals or small letters of ASCII,
  -- without the white space at the ends.
  ∃ word : String, Trims isSpacePoint flavor (ofString word) ∧ IsTag (lowerAscii word) severity

variable {flavor lowered tag : Text} {severity : Severity} {word : String}

theorem isTag_of_mem (member : word ∈ severity.tags) : IsTag word severity := by
  cases severity <;> simp only [tags, List.mem_cons, List.not_mem_nil, or_false] at member
  · rcases member with rfl | rfl
    · exact .error
    · exact .fatal
  · rcases member with rfl | rfl | rfl | rfl
    · exact .warning
    · exact .warn
    · exact .info
    · exact .information

theorem IsTag.plain (isTag : IsTag word severity) :
    ∀ point ∈ ofString word, point.value < 128 ∧ point.value ≠ 0x6B := by
  cases isTag <;> decide +kernel

theorem ofTag?_eq_some_iff :
    ofTag? tag = some severity ↔ ∃ word, IsTag word severity ∧ tag = ofString word := by
  constructor
  · intro found
    rw [ofTag?, List.find?_eq_some_iff_append, List.contains_iff_mem] at found
    obtain ⟨word, member, rfl⟩ := List.mem_map.mp found.1
    exact ⟨word, isTag_of_mem member, rfl⟩
  · rintro ⟨word, isTag, rfl⟩
    cases isTag <;> decide +kernel

/-- It makes no difference which small letter stands for a capital sigma. -/
theorem ofTag?_of_lowers (lowers : Lowers (trim flavor) lowered) :
    ofTag? lowered = some severity ↔ Tells flavor severity := by
  rw [ofTag?_eq_some_iff]
  constructor
  · rintro ⟨word, isTag, same⟩
    obtain ⟨written, trimmed, rfl⟩ := (lowers.eq_ofString_iff isTag.plain).mp same
    exact ⟨written, trimmed ▸ trims_trimBy isSpacePoint flavor, isTag⟩
  · rintro ⟨written, trims, isTag⟩
    exact ⟨lowerAscii written, isTag,
      (lowers.eq_ofString_iff isTag.plain).mpr ⟨written, trims.trimBy_eq, rfl⟩⟩

theorem ofFlavor?_eq_some_iff : ofFlavor? flavor = some severity ↔ Tells flavor severity :=
  ofTag?_of_lowers (lowers_lower _)

/-- A tag has letters of ASCII only, apart from the white space around it. -/
theorem Tells.isSpace_or_ascii (tells : Tells flavor severity) :
    ∀ point ∈ flavor, isSpacePoint point = true ∨ point.value < 128 := by
  obtain ⟨word, ⟨⟨before, after, rfl, spaces, others⟩, -, -⟩, isTag⟩ := tells
  intro point member
  rw [List.mem_append, List.mem_append] at member
  rcases member with first | within | last
  · exact .inl (spaces point first)
  · have ascii := ascii_of_lowerAscii fun other among => (isTag.plain other among).1
    exact .inr (ascii point within)
  · exact .inl (others point last)

end Severity

/-! The first tag -/

def Silent (flavor : Option Text) : Prop :=
  ∀ text ∈ flavor, ∀ severity, ¬Severity.Tells text severity

inductive Severity.Decided : DiagnosticKind → List (Option Text) → Severity → Prop
  | tag (kind : DiagnosticKind) {before : List (Option Text)} {flavor : Text} {severity : Severity}
      (after : List (Option Text)) : (∀ earlier ∈ before, Silent earlier) →
      Severity.Tells flavor severity → Decided kind (before ++ some flavor :: after) severity
  | assert {flavors : List (Option Text)} : (∀ flavor ∈ flavors, Silent flavor) →
      Decided .assert flavors .error
  | report {flavors : List (Option Text)} : (∀ flavor ∈ flavors, Silent flavor) →
      Decided .report flavors .warning

/-- How records of a kind are classified. -/
structure Classifies (kind : DiagnosticKind) : Prop where
  decided : ∀ flavors severity,
    classify kind flavors = severity ↔ Severity.Decided kind flavors severity
  tells : ∀ flavor severity,
    Severity.ofFlavor? flavor = some severity ↔ Severity.Tells flavor severity
  sigma : ∀ flavor lowered severity, Lowers (trim flavor) lowered →
    (Severity.ofTag? lowered = some severity ↔ Severity.Tells flavor severity)
  foreign : ∀ flavor, (∃ point ∈ flavor, 128 ≤ point.value ∧ isSpacePoint point = false) →
    Silent (some flavor)
  blank : ∀ flavor, (∀ point ∈ flavor, isSpacePoint point = true) → Silent (some flavor)
  missing : Silent none
  inserted : ∀ before others after, (∀ flavor ∈ others, Silent flavor) →
    classify kind (before ++ (others ++ after)) = classify kind (before ++ after)
  followed : ∀ flavors others, (∃ flavor ∈ flavors, ¬Silent flavor) →
    classify kind (flavors ++ others) = classify kind flavors
  led : ∀ flavors others, (∀ flavor ∈ flavors, Silent flavor) →
    classify kind (flavors ++ others) = classify kind others

variable {kind : DiagnosticKind} {flavors : List (Option Text)} {flavor : Text}
  {severity : Severity}

def severity? (flavor : Option Text) : Option Severity := flavor.bind Severity.ofFlavor?

theorem classify_eq (kind : DiagnosticKind) (flavors : List (Option Text)) :
    classify kind flavors = (flavors.findSome? severity?).getD kind.defaultSeverity := rfl

theorem severity?_eq_none_iff {flavor : Option Text} : severity? flavor = none ↔ Silent flavor := by
  cases flavor with
  | none => simp [severity?, Silent]
  | some text =>
      simp only [severity?, Option.bind_some, Silent, Option.mem_some_iff, forall_eq',
        Option.eq_none_iff_forall_ne_some, ne_eq, Severity.ofFlavor?_eq_some_iff]

theorem findSome?_eq_none (silent : ∀ flavor ∈ flavors, Silent flavor) :
    flavors.findSome? severity? = none :=
  List.findSome?_eq_none_iff.mpr fun flavor member =>
    severity?_eq_none_iff.mpr (silent flavor member)

theorem classify_of_decided (decided : Severity.Decided kind flavors severity) :
    classify kind flavors = severity := by
  cases decided with
  | tag kind after silent tells =>
      rw [classify_eq, List.findSome?_append, findSome?_eq_none silent, List.findSome?_cons,
        severity?, Option.bind_some, Severity.ofFlavor?_eq_some_iff.mpr tells]
      rfl
  | assert silent =>
      rw [classify_eq, findSome?_eq_none silent]
      rfl
  | report silent =>
      rw [classify_eq, findSome?_eq_none silent]
      rfl

theorem decided_classify (kind : DiagnosticKind) (flavors : List (Option Text)) :
    Severity.Decided kind flavors (classify kind flavors) := by
  rw [classify_eq]
  cases found : flavors.findSome? severity? with
  | some severity =>
      obtain ⟨before, flavor, after, rfl, tells, none⟩ := List.findSome?_eq_some_iff.mp found
      obtain ⟨text, rfl, tells⟩ := Option.bind_eq_some_iff.mp tells
      exact .tag kind after (fun earlier member => severity?_eq_none_iff.mp (none earlier member))
        (Severity.ofFlavor?_eq_some_iff.mp tells)
  | none =>
      rw [List.findSome?_eq_none_iff] at found
      have silent : ∀ flavor ∈ flavors, Silent flavor := fun flavor member =>
        severity?_eq_none_iff.mp (found flavor member)
      cases kind with
      | assert => exact .assert silent
      | report => exact .report silent

theorem silent_of_foreign
    (foreign : ∃ point ∈ flavor, 128 ≤ point.value ∧ isSpacePoint point = false) :
    Silent (some flavor) := by
  obtain ⟨point, member, high, solid⟩ := foreign
  rintro _ ⟨⟩ severity tells
  rcases tells.isSpace_or_ascii point member with space | ascii
  · rw [solid] at space
    cases space
  · omega

theorem silent_of_blank (blank : ∀ point ∈ flavor, isSpacePoint point = true) :
    Silent (some flavor) := by
  have trimmed : trim flavor = [] := by
    change trimBy isSpacePoint flavor = []
    rw [trimBy, List.dropWhile_eq_nil_iff.mpr blank]
    rfl
  rw [← severity?_eq_none_iff, severity?, Option.bind_some, Severity.ofFlavor?, trimmed]
  rfl

theorem exists_findSome? (tagged : ∃ flavor ∈ flavors, ¬Silent flavor) :
    ∃ severity, flavors.findSome? severity? = some severity := by
  obtain ⟨flavor, member, tells⟩ := tagged
  rw [← Option.ne_none_iff_exists']
  exact fun none => tells (severity?_eq_none_iff.mp (List.findSome?_eq_none_iff.mp none _ member))

/-- The first flavor that is a tag decides, and without one the kind of the record does. -/
theorem classifies_by_first_tag (kind : DiagnosticKind) : Classifies kind where
  decided flavors severity := by
    constructor
    · rintro rfl
      exact decided_classify kind flavors
    · exact classify_of_decided
  tells _ _ := Severity.ofFlavor?_eq_some_iff
  sigma _ _ _ := Severity.ofTag?_of_lowers
  foreign _ := silent_of_foreign
  blank _ := silent_of_blank
  missing := severity?_eq_none_iff.mp rfl
  inserted before others after silent := by
    simp only [classify_eq, List.findSome?_append, findSome?_eq_none silent, Option.none_or]
  followed flavors others tagged := by
    obtain ⟨severity, found⟩ := exists_findSome? tagged
    simp only [classify_eq, List.findSome?_append, found, Option.some_or]
  led flavors others silent := by
    simp only [classify_eq, List.findSome?_append, findSome?_eq_none silent, Option.none_or]

example : classify .assert [some (ofString "subject-check"), none, some (ofString " Warning ")] =
    .warning := by
  decide +kernel

end Schematron

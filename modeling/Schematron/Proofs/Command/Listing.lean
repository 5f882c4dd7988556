import Schematron.Proofs.Command.Compilation
import Schematron.Proofs.Engine.Messages
import Schematron.Proofs.Location.Resolution

/-!
Messages on the console, in the listing of a validation and in the table of a report. Main
statement: a message is printed with its own characters just when nothing in it is read as markup,
and then it does not keep anything else from being printed.
-/

namespace Schematron

open Console.Markup (Unmarked IsWord isWord_of_all plainText plainText_label plainText_eq_iff)

namespace Command

open Session

/-! Leads -/

def Heads (lead behind : String) : Prop :=
  ∀ source, plainText (lead ++ source) = (plainText source).map (behind ++ ·)

theorem Heads.nothing : Heads "" "" := by
  intro source
  rw [String.empty_append]
  cases plainText source <;> simp [Except.map]

theorem isWord_red : IsWord "red" := isWord_of_all (by decide) (by decide)

theorem isWord_yellow : IsWord "yellow" := isWord_of_all (by decide) (by decide)

theorem heads_fail : Heads "[red]FAIL[/red] " "FAIL " :=
  @plainText_label "red" isWord_red "" "FAIL" " " (by decide +kernel)

theorem heads_error : Heads "  [red]error:[/red] " "  error: " :=
  @plainText_label "red" isWord_red "  " "error:" " " (by decide +kernel)

theorem heads_warning : Heads "  [yellow]warning:[/yellow] " "  warning: " :=
  @plainText_label "yellow" isWord_yellow "  " "warning:" " " (by decide +kernel)

section Heads

variable {lead behind source : String}

theorem Heads.shown_eq (heads : Heads lead behind) {text : String}
    (prints : plainText source = .ok text) :
    isInOrder (lead ++ source) = true ∧
      shown (lead ++ source) = Text.splitString '\n' (behind ++ text) := by
  apply shown_of_printed
  rw [heads source, prints]
  rfl

/-- On a line of its own, a text is printed with its own characters just when it has no markup. -/
theorem Heads.shown_eq_iff (heads : Heads lead behind) (single : '\n' ∉ (behind ++ source).toList) :
    shown (lead ++ source) = [behind ++ source] ↔ Unmarked source.toList := by
  constructor
  · intro shows
    rw [shown, heads source] at shows
    cases printed : plainText source with
    | error fault =>
        rw [printed] at shows
        cases shows
    | ok text =>
        rw [printed] at shows
        obtain ⟨same, -⟩ := Text.splitString_eq_singleton.mp shows
        obtain rfl : text = source := by simpa using same
        exact (plainText_eq_iff text).mp printed
  · intro unmarked
    rw [(heads.shown_eq ((plainText_eq_iff source).mpr unmarked)).2]
    exact Text.splitString_eq_singleton.mpr ⟨rfl, single⟩

end Heads

/-! Messages -/

/-- A sanitized message in which nothing is read as markup. -/
structure Plain (message : String) : Prop where
  normal : Text.Normal (Text.ofString message)
  unmarked : Unmarked message.toList

theorem single_of_normal {message : String} (normal : Text.Normal (Text.ofString message)) :
    '\n' ∉ message.toList := by
  intro member
  have among : CodePoint.ofChar '\n' ∈ Text.ofString message := List.mem_map_of_mem member
  exact normal.unbroken _ among (by decide)

section Messages

variable {lead behind message : String}

theorem Heads.shown_message_iff (heads : Heads lead behind) (single : '\n' ∉ behind.toList)
    (normal : Text.Normal (Text.ofString message)) :
    shown (lead ++ message) = [behind ++ message] ↔ Unmarked message.toList := by
  apply heads.shown_eq_iff
  rw [String.toList_append, List.mem_append, not_or]
  exact ⟨single, single_of_normal normal⟩

theorem Heads.inOrder_message (heads : Heads lead behind) (plain : Plain message) :
    isInOrder (lead ++ message) = true :=
  (heads.shown_eq ((plainText_eq_iff message).mpr plain.unmarked)).1

theorem Heads.shown_message (heads : Heads lead behind) (single : '\n' ∉ behind.toList)
    (plain : Plain message) : shown (lead ++ message) = [behind ++ message] :=
  (heads.shown_message_iff single plain.normal).mpr plain.unmarked

theorem flatMap_shown_messages {messages : List String} (heads : Heads lead behind)
    (single : '\n' ∉ behind.toList) (plain : ∀ message ∈ messages, Plain message) :
    (messages.map (lead ++ ·)).flatMap shown = messages.map (behind ++ ·) := by
  induction messages with
  | nil => rfl
  | cons message rest ih =>
      rw [List.forall_mem_cons] at plain
      rw [List.map_cons, List.flatMap_cons, heads.shown_message single plain.1, ih plain.2]
      rfl

end Messages

/-! Listings -/

inductive Lists : Finding → List String → Prop
  | rejected {path text : String} {errors warnings : List String} :
      plainText path = .ok text → (∀ message ∈ errors ++ warnings, Plain message) →
      Lists ⟨path, .rejected (errors.map Text.ofString) (warnings.map Text.ofString)⟩
        (Text.splitString '\n' ("FAIL " ++ text) ++
          (errors.map ("  error: " ++ ·) ++ warnings.map ("  warning: " ++ ·)))
  | other {finding : Finding} :
      (∀ errors warnings, finding.examined ≠ .rejected errors warnings) →
      finding.goesOn true = true → Lists finding (finding.shown true)

theorem lines_rejected (path : String) (errors warnings : List String) :
    (⟨path, .rejected (errors.map Text.ofString) (warnings.map Text.ofString)⟩ : Finding).lines
      true = ("[red]FAIL[/red] " ++ path) :: (errors.map ("  [red]error:[/red] " ++ ·) ++
        warnings.map ("  [yellow]warning:[/yellow] " ++ ·)) := by
  simp [Finding.lines, Examined.lines, Function.comp_def, Text.toStringLossy_ofString]

theorem Lists.shown {finding : Finding} {listing : List String} (lists : Lists finding listing) :
    finding.goesOn true = true ∧ finding.shown true = listing := by
  cases lists with
  | other _ goes => exact ⟨goes, rfl⟩
  | @rejected path text errors warnings prints plain =>
      rw [List.forall_mem_append] at plain
      obtain ⟨erring, warned⟩ := plain
      obtain ⟨begins, heading⟩ := heads_fail.shown_eq prints
      constructor
      · have inOrder : ∀ markup ∈ ("[red]FAIL[/red] " ++ path) ::
            (errors.map ("  [red]error:[/red] " ++ ·) ++
              warnings.map ("  [yellow]warning:[/yellow] " ++ ·)), isInOrder markup = true := by
          simp only [List.forall_mem_cons, List.forall_mem_append, List.forall_mem_map]
          exact ⟨begins,
            fun message member => heads_error.inOrder_message (erring message member),
            fun message member => heads_warning.inOrder_message (warned message member)⟩
        rw [Finding.goesOn, lines_rejected, List.all_eq_true.mpr inOrder]
        rfl
      · rw [Finding.shown, lines_rejected, List.flatMap_cons, List.flatMap_append, heading,
          flatMap_shown_messages heads_error (by decide) erring,
          flatMap_shown_messages heads_warning (by decide) warned]

def Finding.Clear (finding : Finding) : Prop :=
  match finding.examined with
  | .rejected errors warnings => isInOrder finding.path = true ∧
      ∀ message ∈ errors ++ warnings, Unmarked message.toStringLossy.toList
  | _ => finding.goesOn true = true

theorem printed_of_isInOrder {markup : String} (inOrder : isInOrder markup = true) :
    ∃ text, plainText markup = .ok text := by
  rw [isInOrder] at inOrder
  cases printed : plainText markup with
  | error fault =>
      rw [printed] at inOrder
      cases inOrder
  | ok text => exact ⟨text, rfl⟩

theorem plain_of_isLine {message : Text} (isLine : Text.IsLine message)
    (unmarked : Unmarked message.toStringLossy.toList) : Plain message.toStringLossy := by
  obtain ⟨characters, rfl, normal⟩ := isLine
  rw [Text.toStringLossy_ofString] at unmarked ⊢
  exact ⟨normal, unmarked⟩

theorem map_ofString_of_isLine {messages : List Text}
    (lines : ∀ message ∈ messages, Text.IsLine message) :
    (messages.map Text.toStringLossy).map Text.ofString = messages := by
  rw [List.map_map]
  exact (List.map_congr_left fun message member =>
    (lines message member).ofString_toStringLossy).trans (List.map_id _)

theorem isLine_of_examine {desk : Desk} {service : Service} {path : String}
    {errors warnings : List Text}
    (examined : (examine desk service path).1 = .rejected errors warnings) :
    ∀ message ∈ errors ++ warnings, Text.IsLine message := by
  rw [examine] at examined
  split at examined
  next => split at examined <;> cases examined
  next document _ =>
    split at examined
    next => cases examined
    next asked =>
      cases examined
      exact Service.Raises.isLine (.asked (congrArg Prod.fst asked))
    next => cases examined

theorem exists_listing {desk : Desk} {service : Service} {path : String}
    (clear : (alone desk service path).Clear) :
    ∃ listing, Lists (alone desk service path) listing := by
  rw [Finding.Clear] at clear
  split at clear
  next errors warnings examined =>
    obtain ⟨inOrder, unmarked⟩ := clear
    obtain ⟨text, prints⟩ := printed_of_isInOrder inOrder
    have lines := isLine_of_examine examined
    have plain : ∀ message ∈ errors.map Text.toStringLossy ++ warnings.map Text.toStringLossy,
        Plain message := by
      rw [← List.map_append, List.forall_mem_map]
      exact fun message member => plain_of_isLine (lines message member) (unmarked message member)
    have lists := Lists.rejected prints plain
    rw [List.forall_mem_append] at lines
    rw [map_ofString_of_isLine lines.1, map_ofString_of_isLine lines.2, ← examined] at lists
    exact ⟨_, lists⟩
  next others => exact ⟨_, .other others clear⟩

theorem resume_present {found : List Finding} {listings : List (List String)}
    (lists : List.Forall₂ Lists found listings) (transcript : Transcript) :
    (present true found).resume transcript =
      (.error (.exit (if found.all Finding.isPass then 0 else 1)),
        transcript.add listings.flatten) := by
  have goes : (∀ finding ∈ found, finding.goesOn true = true) ∧
      found.flatMap (Finding.shown true) = listings.flatten := by
    induction lists with
    | nil => exact ⟨by simp, rfl⟩
    | cons first _ ih =>
        obtain ⟨goes, shows⟩ := first.shown
        exact ⟨List.forall_mem_cons.mpr ⟨goes, ih.1⟩, by
          rw [List.flatMap_cons, shows, ih.2, List.flatten_cons]⟩
  rw [present, resume_bind_ok (resume_conclude goes.1 transcript), goes.2]
  rfl

/-! Tables -/

inductive Shows : Violation → List (List String) → Prop
  | violation {attributes : List String} {message text : String} {severity : Severity} :
      Plain message → plainText (", ".intercalate attributes) = .ok text →
      Shows ⟨attributes, .ofString message, severity⟩
        [[severity.label], [message], Text.splitString '\n' text]

theorem exists_cells {document : Document} {violation : Violation}
    (standard : document.contentAttribute = Document.defaultContentAttribute)
    (concerns : Engine.Concerns document violation)
    (unmarked : Unmarked violation.message.toStringLossy.toList) :
    ∃ cells, Shows violation cells := by
  obtain ⟨attributes, message, severity⟩ := violation
  obtain ⟨rfl, isLine⟩ := concerns
  have tagged : plainText (", ".intercalate [Document.defaultContentAttribute]) =
      .ok Document.defaultContentAttribute := by
    decide +kernel
  have shows : Shows ⟨[_], .ofString message.toStringLossy, severity⟩ _ :=
    .violation (plain_of_isLine isLine unmarked) tagged
  rw [isLine.ofString_toStringLossy, ← standard] at shows
  exact ⟨_, shows⟩

theorem shown_severityMarkup (severity : Severity) :
    isInOrder (severityMarkup severity) = true ∧
      shown (severityMarkup severity) = [severity.label] := by
  cases severity <;> decide +kernel

theorem Plain.shown {message : String} (plain : Plain message) : shown message = [message] := by
  have shows := Heads.nothing.shown_message (by decide) plain
  rwa [String.empty_append] at shows

theorem reportTable_rows (label : String) (report : Report) :
    (reportTable label report).rows = report.violations.map fun violation =>
      [severityMarkup violation.severity, violation.message.toStringLossy,
        ", ".intercalate violation.attributes] := rfl

theorem rows_of_shows (label : String) {report : Report} {rows : List (List (List String))}
    (shows : List.Forall₂ Shows report.violations rows) :
    (∀ cell ∈ (reportTable label report).rows.flatten, isInOrder cell = true) ∧
      (reportTable label report).rows.map (·.map shown) = rows := by
  rw [reportTable_rows]
  generalize report.violations = violations at shows
  induction shows with
  | nil => exact ⟨by simp, rfl⟩
  | cons first _ ih =>
      obtain ⟨plain, prints⟩ := first
      obtain ⟨severe, severity⟩ := shown_severityMarkup _
      obtain ⟨inOrder, attributes⟩ := shown_of_printed prints
      constructor
      · rw [List.map_cons, List.flatten_cons, List.forall_mem_append, Text.toStringLossy_ofString]
        refine ⟨?_, ih.1⟩
        simpa using ⟨severe, (shown_of_unmarked plain.unmarked).1, inOrder⟩
      · rw [List.map_cons, List.map_cons, ih.2, Text.toStringLossy_ofString]
        simp only [List.map_cons, List.map_nil, severity, plain.shown, attributes]

theorem resume_printReport {label text : String} {report : Report}
    {rows : List (List (List String))} (filled : report.violations ≠ [])
    (prints : plainText label = .ok text) (shows : List.Forall₂ Shows report.violations rows)
    (transcript : Transcript) :
    (printReport label report).resume transcript =
      (.ok (), transcript.add (Console.Table.framed (Text.splitString '\n' text)
        [["Severity"], ["Message"], ["Attributes"]] rows)) := by
  have some : ¬report.violations.isEmpty = true := by simpa using filled
  have header : (reportTable label report).columns.map shown =
      [["Severity"], ["Message"], ["Attributes"]] := by
    simp only [reportTable]
    decide +kernel
  have columns : ∀ cell ∈ (reportTable label report).columns, isInOrder cell = true := by
    simp only [reportTable]
    decide +kernel
  obtain ⟨titled, title⟩ := shown_of_printed prints
  obtain ⟨body, rest⟩ := rows_of_shows label shows
  have inOrder : ∀ cell ∈ (reportTable label report).cells, isInOrder cell = true := by
    simp only [Console.Table.cells, List.forall_mem_append]
    exact ⟨⟨by simpa [reportTable] using titled, columns⟩, body⟩
  rw [printReport, if_neg some, resume_printTable inOrder, drawn, rest, header]
  simp only [reportTable, Option.elim_some, title]

/-! Commands -/

structure Reported (desk : Desk) (options : ReportOptions) (found : Report) : Prop where
  format : options.format = "table"
  started : ∃ settings document created answer service,
    settingsOf desk options.common = .ok settings ∧
    Document.ofFile desk.files desk.surroundings (shownPath options.document) none none =
      .ok document ∧
    Service.create desk.files desk.surroundings settings = .ok created ∧
    created.ask desk.files created.startCall = (.ok answer, service) ∧
    (service.ask desk.files (.reportOnly document)).1 = .ok (.report found)

section Commands

variable {desk : Desk}

theorem resume_report {options : ReportOptions} {found : Report}
    (reported : Reported desk options found) :
    ∃ level, (report desk options).resume ⟨[], none⟩ =
      (printReport (shownPath options.document) found).resume ⟨[], some level⟩ := by
  obtain ⟨format, settings, document, created, answer, service, accepted, readable, made, started,
    answered⟩ := reported
  have known : options.format ∈ formats := by
    rw [format]
    decide
  obtain ⟨level, loads⟩ := resume_settingsFor accepted
    (fun failure => isValueFailure failure || isAccessFailure failure) id
  refine ⟨level, ?_⟩
  rw [report, resume_bind_ok (resume_checkFormat known _), resume_bind_ok loads]
  simp only [readable, id_eq]
  rw [resume_bind_ok (resume_openService made started _)]
  simp only [answered, format]
  rfl

theorem contentAttribute_of_ofFile {path : String} {document : Document}
    (readable : Document.ofFile desk.files desk.surroundings path none none = .ok document) :
    document.contentAttribute = Document.defaultContentAttribute := by
  rw [Document.ofFile] at readable
  cases text : desk.files.text desk.surroundings path with
  | error failure =>
      rw [text] at readable
      cases readable
  | ok content =>
      rw [text] at readable
      cases readable
      rfl

theorem exists_rows {options : ReportOptions} {found : Report}
    (reported : Reported desk options found)
    (unmarked : ∀ violation ∈ found.violations,
      Unmarked violation.message.toStringLossy.toList) :
    ∃ rows, List.Forall₂ Shows found.violations rows := by
  obtain ⟨-, _, document, _, _, service, -, readable, -, -, answered⟩ := reported
  have standard := contentAttribute_of_ofFile readable
  have concerns := Service.concerns_of_report answered
  exact exists_forall₂ fun violation member =>
    exists_cells standard (concerns violation member) (unmarked violation member)

/-- How messages are printed. -/
structure Prints (desk : Desk) : Prop where
  exact : ∀ message, Text.Normal (Text.ofString message) →
    (shown ("  [red]error:[/red] " ++ message) = ["  error: " ++ message] ↔
      Unmarked message.toList) ∧
    (shown ("  [yellow]warning:[/yellow] " ++ message) = ["  warning: " ++ message] ↔
      Unmarked message.toList) ∧
    (shown message = [message] ↔ Unmarked message.toList)
  listed : ∀ found listings transcript, List.Forall₂ Lists found listings →
    (present true found).resume transcript =
      (.error (.exit (if found.all Finding.isPass then 0 else 1)), transcript.add listings.flatten)
  tabled : ∀ label text report rows transcript, report.violations ≠ [] →
    plainText label = .ok text → List.Forall₂ Shows report.violations rows →
    (printReport label report).resume transcript =
      (.ok (), transcript.add (Console.Table.framed (Text.splitString '\n' text)
        [["Severity"], ["Message"], ["Attributes"]] rows))
  validated : ∀ options service found, Opened desk options service → options.format = "table" →
    found = options.documents.map (fun document => alone desk service (shownPath document)) →
    (∀ finding ∈ found, finding.Clear) →
    ∃ listings, List.Forall₂ Lists found listings ∧
      (validate desk options).run.2.lines = listings.flatten ∧
      (validate desk options).run.1 = .exit (if found.all Finding.isPass then 0 else 1)
  reported : ∀ options found, Reported desk options found → found.violations ≠ [] →
    isInOrder (shownPath options.document) = true →
    (∀ violation ∈ found.violations, Unmarked violation.message.toStringLossy.toList) →
    ∃ text rows, plainText (shownPath options.document) = .ok text ∧
      List.Forall₂ Shows found.violations rows ∧
      (report desk options).run.2.lines = Console.Table.framed (Text.splitString '\n' text)
        [["Severity"], ["Message"], ["Attributes"]] rows ∧
      (report desk options).run.1 = .exit 0

/-- Just the messages without markup are printed with their own characters; of these every listing
has all, and so has every table. -/
theorem messages_printed (desk : Desk) : Prints desk where
  exact message normal := by
    have cell := Heads.nothing.shown_message_iff (by decide) normal
    rw [String.empty_append] at cell
    exact ⟨heads_error.shown_message_iff (by decide) normal,
      heads_warning.shown_message_iff (by decide) normal, cell⟩
  listed _ _ transcript lists := resume_present lists transcript
  tabled _ _ _ _ transcript filled prints shows :=
    resume_printReport filled prints shows transcript
  validated options service found opened format same clear := by
    obtain ⟨listings, lists⟩ : ∃ listings, List.Forall₂ Lists found listings := by
      refine exists_forall₂ fun finding member => ?_
      have clear := clear finding member
      rw [same] at member
      obtain ⟨document, -, rfl⟩ := List.mem_map.mp member
      exact exists_listing clear
    obtain ⟨level, resumes⟩ := resume_validate opened
    rw [format, ← same] at resumes
    rw [run_of_resume (resumes.trans (resume_present lists ⟨[], some level⟩))]
    exact ⟨listings, lists, List.nil_append _, rfl⟩
  reported options found reported filled inOrder unmarked := by
    obtain ⟨text, prints⟩ := printed_of_isInOrder inOrder
    obtain ⟨rows, shows⟩ := exists_rows reported unmarked
    obtain ⟨level, resumes⟩ := resume_report reported
    rw [run_of_resume_ok (resumes.trans (resume_printReport filled prints shows _))]
    exact ⟨text, rows, prints, shows, List.nil_append _, rfl⟩

end Commands

/-- Brackets around a number, or around capital letters, make no markup; a name in brackets is lost,
and one with a slash ends the session. -/
theorem brackets_printed :
    (present true [⟨"a.xml", .rejected [.ofString "Part [1] of [B] is missing"] []⟩]).resume
        ⟨[], none⟩ =
      (.error (.exit 1), ⟨["FAIL a.xml", "  error: Part [1] of [B] is missing"], none⟩) ∧
    ¬Unmarked "See [note]".toList ∧
    shown "  [red]error:[/red] See [note]" = ["  error: See "] ∧
    isInOrder "  [red]error:[/red] See [/name]" = false := by
  have plain : Plain "Part [1] of [B] is missing" := by
    constructor
    · rw [show Text.ofString "Part [1] of [B] is missing" =
        Text.sanitize (.ofString "Part [1] of [B] is missing") by decide +kernel]
      exact Text.normal_sanitize _
    · rw [← plainText_eq_iff]
      decide +kernel
  have path : plainText "a.xml" = .ok "a.xml" := by decide +kernel
  have lists : Lists ⟨"a.xml", .rejected (["Part [1] of [B] is missing"].map Text.ofString)
      ([].map Text.ofString)⟩ _ := .rejected path (by simpa using plain)
  have desk : Desk := ⟨.empty, ⟨default, fun _ => none⟩⟩
  have printed := (messages_printed desk).listed _ _ ⟨[], none⟩ (.cons lists .nil)
  refine ⟨printed.trans (Prod.ext rfl ?_), ?_, ?_, ?_⟩
  · decide +kernel
  · rw [← plainText_eq_iff]
    decide +kernel
  · decide +kernel
  · decide +kernel

end Command

end Schematron

import Schematron.Proofs.Engine.Rejection

/-!
Messages: what a service can say of a document. Main statements: the messages of its rejections, and
those of its reports, are lines of characters.
-/

namespace Schematron

namespace Text

theorem mem_collapseBy {α : Type} {isGap : α → Bool} {gap item : α} {items : List α}
    (member : item ∈ collapseBy isGap gap items) : item = gap ∨ item ∈ items := by
  fun_induction collapseBy isGap gap items with
  | case1 => cases member
  | case2 first isFirst => exact .inl (List.mem_singleton.mp member)
  | case3 first isFirst next rest isNext ih =>
      exact (ih member).imp_right (List.mem_cons_of_mem first)
  | case4 first isFirst next rest notNext ih =>
      rcases List.mem_cons.mp member with rfl | later
      · exact .inl rfl
      · exact (ih later).imp_right (List.mem_cons_of_mem first)
  | case5 first rest notFirst ih =>
      rcases List.mem_cons.mp member with rfl | later
      · exact .inr (.head _)
      · exact (ih later).imp_right (List.mem_cons_of_mem first)

theorem mem_sanitize {point : CodePoint} {text : Text} (member : point ∈ sanitize text) :
    point = blank ∨ point ∈ text := by
  have trims := trims_trimBy isSpacePoint (collapseBy isLayoutPoint blank text)
  obtain ⟨before, after, whole, -⟩ := trims.whole
  have among : point ∈ collapseBy isLayoutPoint blank text := by
    rw [whole]
    exact List.mem_append_right before (List.mem_append_left after member)
  exact mem_collapseBy among

def IsLine (line : Text) : Prop := ∃ message, line = ofString message ∧ Normal line

theorem IsLine.ofString_toStringLossy {line : Text} (isLine : IsLine line) :
    ofString line.toStringLossy = line := by
  obtain ⟨message, rfl, -⟩ := isLine
  rw [toStringLossy_ofString]

theorem exists_ofString {text : Text}
    (chars : ∀ point ∈ text, ∃ char, point = CodePoint.ofChar char) :
    ∃ source, text = ofString source := by
  induction text with
  | nil => exact ⟨"", rfl⟩
  | cons point rest ih =>
      rw [List.forall_mem_cons] at chars
      obtain ⟨⟨char, rfl⟩, later⟩ := chars
      obtain ⟨source, rfl⟩ := ih later
      exact ⟨String.ofList (char :: source.toList), by simp [ofString, ofChars]⟩

theorem isLine_sanitize (source : String) : IsLine (sanitize (ofString source)) := by
  have chars : ∀ point ∈ sanitize (ofString source), ∃ char, point = CodePoint.ofChar char := by
    intro point member
    rcases mem_sanitize member with rfl | among
    · exact ⟨' ', rfl⟩
    · obtain ⟨char, -, rfl⟩ := List.mem_map.mp among
      exact ⟨char, rfl⟩
  obtain ⟨message, same⟩ := exists_ofString chars
  exact ⟨message, same, normal_sanitize _⟩

end Text

namespace Svrl

mutual
theorem exists_message_of_node {node : Xml.Node} {diagnostic : Diagnostic}
    (member : diagnostic ∈ ofNode node) : ∃ message, diagnostic.message = Text.ofString message := by
  match node with
  | .element name _ attributes children =>
      rw [ofNode] at member
      split at member
      next kind _ =>
        rcases List.mem_cons.mp member with rfl | below
        · exact ⟨recordText children, rfl⟩
        · exact exists_message_of_nodes below
      next => exact exists_message_of_nodes member
  | .reference _ expansion =>
      rw [ofNode] at member
      exact exists_message_of_nodes member
  | .text _ | .comment _ | .instruction _ _ => simp [ofNode] at member

theorem exists_message_of_nodes {nodes : List Xml.Node} {diagnostic : Diagnostic}
    (member : diagnostic ∈ ofNodes nodes) :
    ∃ message, diagnostic.message = Text.ofString message := by
  match nodes with
  | [] => cases member
  | node :: rest =>
      rw [ofNodes] at member
      rcases List.mem_append.mp member with here | later
      · exact exists_message_of_node here
      · exact exists_message_of_nodes later
end

end Svrl

theorem Validator.Gives.exists_message {validator : Validator} {document : Document}
    {diagnostics : List Diagnostic} (gives : validator.Gives document (.ok diagnostics)) :
    ∀ diagnostic ∈ diagnostics, ∃ message, diagnostic.message = Text.ofString message := by
  obtain ⟨files, same⟩ := gives
  unfold Validator.run at same
  cases read : document.parse with
  | error failure =>
      rw [read] at same
      cases same
  | ok parsed =>
      simp only [read, Bind.bind, Except.bind] at same
      split at same
      next nodes _ =>
        cases same
        intro diagnostic member
        rw [Svrl.diagnostics] at member
        split at member
        · exact Svrl.exists_message_of_node member
        · cases member
      next => cases same

namespace Engine

structure Concerns (document : Document) (violation : Violation) : Prop where
  attributes : violation.attributes = [document.contentAttribute]
  isLine : Text.IsLine violation.message

theorem Evaluated.concerns {document : Document} {past : List (Exchange Validator)}
    {report : Report} (evaluated : Evaluated document past (.ok report))
    (truthful : ∀ validator reply, ⟨.run validator document, reply⟩ ∈ past →
      validator.Gives document reply) :
    ∀ violation ∈ report.violations, Concerns document violation := by
  obtain ⟨settings, rest, rfl, comes⟩ := evaluated
  split at comes
  next =>
    obtain ⟨generation, own, outcome, rfl, visited, found⟩ := comes
    cases outcome with
    | error failure => cases found
    | ok violations =>
        cases found
        obtain ⟨visits, rfl, -, rfl⟩ := visited
        intro violation member
        obtain ⟨visit, visiting, among⟩ := List.mem_flatMap.mp member
        obtain ⟨diagnostic, inside, rfl⟩ := List.mem_map.mp among
        have ran : ⟨.run visit.validator document, .ok visit.diagnostics⟩ ∈
            visits.flatMap (Visit.exchanges document) :=
          List.mem_flatMap.mpr ⟨visit, visiting, by simp [Visit.exchanges]⟩
        have gives := truthful _ _ (List.mem_cons_of_mem _ (List.mem_cons_of_mem _ ran))
        obtain ⟨message, same⟩ := gives.exists_message diagnostic inside
        rw [same]
        exact ⟨rfl, Text.isLine_sanitize message⟩
  next =>
    obtain ⟨-, found⟩ := comes
    cases found
    intro violation member
    cases member

/-- A report that is given is the one that the evaluation comes to. -/
theorem reportOnly_reports {V : Type} (document : Document) :
    ((Call.reportOnly document).program : Program V (Result V)).Keeps anything
      (fun past result => ∀ report, result = .ok (.report report) →
        Evaluated document past (.ok report)) [] := by
  rw [program_reportOnly]
  refine Program.keeps_bind.mpr ((evaluate_evaluates document).mono ?_)
  intro past found evaluated
  cases found with
  | ok given =>
      rintro report ⟨⟩
      exact evaluated
  | error failure =>
      simp only [advise]
      split
      · rintro report ⟨⟩
      · split
        · rintro report ⟨⟩
        · refine ⟨trivial, fun _ _ => ?_⟩
          rintro report ⟨⟩

end Engine

namespace Service

variable {service : Service} {document : Document}

theorem Raises.isLine {header : String} {errors warnings : List Text}
    (raises : service.Raises document (.rejected header errors warnings)) :
    ∀ message ∈ errors ++ warnings, Text.IsLine message := by
  obtain ⟨moves, state, comes, truthful⟩ := raises.comesTo rfl
  obtain ⟨-, report, evaluated, held⟩ := Engine.System.evaluated_of_rejected comes truthful
  have concerns := evaluated.concerns fun validator reply ran =>
    truthful _ (Engine.mem_exchangesOf.mp ran) validator document reply rfl
  intro message member
  obtain ⟨violation, among, rfl⟩ := held message member
  exact (concerns violation among).isLine

theorem concerns_of_report {files : FileTree} {report : Report}
    (reports : (service.ask files (.reportOnly document)).1 = .ok (.report report)) :
    ∀ violation ∈ report.violations, Engine.Concerns document violation := by
  cases performed : (service.system.perform (service.world files) (.reportOnly document)).1 with
  | none =>
      simp only [ask, performed] at reports
      cases reports
  | some result =>
      simp only [ask, performed] at reports
      obtain rfl : result = .ok (.report report) := reports
      obtain ⟨moves, ⟨last, reached, -, ended⟩, truthful⟩ :=
        Engine.System.comesTo_of_perform performed
      obtain ⟨rest, held, keeps⟩ := Engine.System.keeps_of_run
        (service.system.asked_getElem? _) (Engine.reportOnly_reports document) reached
      rw [ended] at held
      cases held
      have evaluated := keeps report rfl
      refine evaluated.concerns fun validator reply ran => ⟨files, ?_⟩
      exact truthful _ (Engine.mem_exchangesOf.mp ran) validator document reply rfl

end Service

end Schematron

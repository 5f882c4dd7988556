import Schematron.Proofs.Xml.Order
import Schematron.Svrl

/-!
Records of a report: what is read from them, and from nothing else. Main statement: the diagnostics
are those of the records anywhere in the tree, one of each, in document order.
-/

namespace Schematron.Svrl

open Schematron.Xml

def recordName : DiagnosticKind → String
  | .assert => "failed-assert"
  | .report => "successful-report"

inductive Message (record : Node) : Text → Prop
  | nothing : (∀ child ∈ record.children, child.isNamed space "text" = false) → Message record []
  | text {before after : List Node} {child : Node} {pieces : List (Address × String)} :
      record.children = before ++ child :: after →
      (∀ earlier ∈ before, earlier.isNamed space "text" = false) →
      child.isNamed space "text" = true →
      child.Lists (fun other content => other = .text content) pieces →
      Message record (Text.ofString (String.join (pieces.map (·.2))))

/-- A record, and the diagnostic that it makes. -/
structure Records (record : Node) (diagnostic : Diagnostic) : Prop where
  named : ∀ kind, diagnostic.kind = kind ↔ record.isNamed space (recordName kind) = true
  location : diagnostic.location = record.attribute? "location"
  test : diagnostic.test = record.attribute? "test"
  severity : diagnostic.severity =
    classify diagnostic.kind [record.attribute? "role", record.attribute? "flag"]
  message : Message record diagnostic.message

def record? : Node → Option Diagnostic
  | .element name _ attributes children =>
      (recordKind? name).map fun kind => diagnostic kind attributes children
  | _ => none

mutual
theorem ofNode_eq : ∀ node : Node, ofNode node = node.gather record?
  | .element name _ attributes children => by
      rw [ofNode, ofNodes_eq children, Node.gather_eq, record?]
      cases recordKind? name <;> rfl
  | .reference _ expansion => by
      rw [ofNode, ofNodes_eq expansion, Node.gather_eq]
      rfl
  | .text _ => rfl
  | .comment _ => rfl
  | .instruction _ _ => rfl

theorem ofNodes_eq : ∀ nodes : List Node,
    ofNodes nodes = nodes.flatMap fun node => node.gather record?
  | [] => rfl
  | node :: rest => by rw [ofNodes, ofNode_eq node, ofNodes_eq rest, List.flatMap_cons]
end

theorem message_iff {record : Node} {message : Text} :
    Message record message ↔ message = Text.ofString (recordText record.children) := by
  unfold recordText
  constructor
  · intro told
    cases told with
    | nothing silent =>
        rw [List.find?_eq_none.mpr fun child member => by simp [silent child member]]
        rfl
    | @text before after child pieces split silent named lists =>
        have first : record.children.find? (·.isNamed space "text") = some child :=
          List.find?_eq_some_iff_append.mpr ⟨named, before, after, split, by simpa using silent⟩
        rw [first]
        exact congrArg Text.ofString (Node.stringValue_of_lists lists).symm
  · rintro rfl
    cases found : record.children.find? (·.isNamed space "text") with
    | none => exact .nothing (by simpa using List.find?_eq_none.mp found)
    | some child =>
        obtain ⟨named, before, after, split, silent⟩ := List.find?_eq_some_iff_append.mp found
        obtain ⟨pieces, -, lists⟩ := child.lists_gather Node.characters?
        simp only [Node.characters?_eq_some] at lists
        simp only [Node.stringValue_of_lists lists]
        exact .text split (by simpa using silent) named lists

theorem recordKind?_eq_some {name : Name} {kind : DiagnosticKind} :
    recordKind? name = some kind ↔ name.isIn space (recordName kind) = true := by
  cases kind <;> simp only [recordKind?, recordName, Name.isIn] <;> grind

theorem records_iff {record : Node} {diagnostic : Diagnostic} :
    Records record diagnostic ↔ record? record = some diagnostic := by
  cases record with
  | element name declared attributes children =>
      simp only [record?, Option.map_eq_some_iff, recordKind?_eq_some]
      constructor
      · rintro ⟨named, location, test, severity, message⟩
        refine ⟨diagnostic.kind, (named _).mp rfl, ?_⟩
        obtain ⟨_, _, kind, _, _⟩ := diagnostic
        simp only at location test severity message
        rw [message_iff] at message
        subst location test severity message
        rfl
      · rintro ⟨kind, named, rfl⟩
        refine ⟨fun other => ?_, rfl, rfl, rfl, message_iff.mpr rfl⟩
        constructor
        · rintro rfl
          exact named
        · intro also
          rw [Node.isNamed, ← recordKind?_eq_some] at also
          rw [← recordKind?_eq_some, also] at named
          exact (Option.some.inj named).symm
  | text | comment | instruction | reference =>
      refine ⟨fun records => ?_, fun read => by cases read⟩
      exact absurd ((records.named diagnostic.kind).mp rfl) Bool.false_ne_true

/-- The diagnostics of a report are those of its records, wherever they stand, one of each and in
document order. -/
theorem diagnostics_of_records (document : Document) :
    match document.root? with
    | none => diagnostics document = []
    | some root => ∃ found : List (Address × Diagnostic),
        diagnostics document = found.map (·.2) ∧ root.Lists Records found := by
  cases rooted : document.root? with
  | none => simp only [diagnostics, rooted]
  | some root =>
      obtain ⟨found, values, lists⟩ := root.lists_gather record?
      simp only [← records_iff] at lists
      exact ⟨found, by simp only [diagnostics, rooted, ofNode_eq, values], lists⟩

end Schematron.Svrl

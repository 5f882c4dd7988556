import Schematron.Proofs.Engine.Evaluation
import Schematron.Proofs.Text.Utf8
import Schematron.Proofs.Xml.Documents

/-!
The namespace filter: what becomes of documents that the validators can read. Main statement: a
document passes the filter for the namespace of its root element, unless the guarded reader refuses
the document or passes over some of its declarations; and it does not refuse what keeps to the names
and the declarations that it takes.
-/

namespace Schematron

theorem Document.parse_eq_ok {document : Document} {parsed : Xml.Parsed}
    (accepted : document.parse = .ok parsed) :
    ∃ content chars, document.content = some content ∧ content.toChars? = some chars ∧
      Xml.parse? .validating chars = some parsed := by
  simp only [Document.parse, Xml.parseBytes?_toUtf8] at accepted
  split at accepted
  next => cases accepted
  next content given =>
    split at accepted
    next => cases accepted
    next =>
      split at accepted
      next found same =>
        obtain ⟨chars, text, read⟩ := Option.bind_eq_some_iff.mp same
        cases accepted
        exact ⟨content, chars, given, text, read⟩
      next => cases accepted

theorem Document.not_isEmpty_of_parse {document : Document} {parsed : Xml.Parsed}
    (accepted : document.parse = .ok parsed) : document.isEmpty = false := by
  obtain ⟨content, chars, given, text, read⟩ := document.parse_eq_ok accepted
  cases content with
  | nil =>
      cases text
      cases read
  | cons => simp only [Document.isEmpty, given]

def restrictedReading? (content : Text) : Option Xml.Parsed :=
  content.toChars?.bind (Xml.parse? .restricted)

theorem guardedReading?_of_restricted {content : Text} {restricted : Xml.Parsed}
    (read : restrictedReading? content = some restricted)
    (heeded : restricted.doctype.ignoring = false) :
    ∃ guarded, guardedReading? content = some guarded ∧ guarded.doctype.ignoring = false := by
  obtain ⟨chars, text, readRestricted⟩ := Option.bind_eq_some_iff.mp read
  have reads := Xml.Dialect.restricted_narrows_guarded.parse? readRestricted heeded
  obtain ⟨guarded, found⟩ := Option.isSome_iff_exists.mp
    (reads.2 Xml.Dialect.guarded_admits_restricted)
  refine ⟨guarded, by simp [guardedReading?_eq, text, found], ?_⟩
  rw [(reads.1 guarded found).2, heeded]

theorem name_of_readings {content : Text} {chars : List Char} {guarded parsed : Xml.Parsed}
    (text : content.toChars? = some chars) (guards : guardedReading? content = some guarded)
    (heeded : guarded.doctype.ignoring = false)
    (read : Xml.parse? .validating chars = some parsed) :
    parsed.document.root?.bind Xml.Node.name? = guarded.document.root?.bind Xml.Node.name? := by
  have readAgain : Xml.parse? .guarded chars = some guarded := by
    simpa [guardedReading?_eq, text] using guards
  have reads := Xml.Dialect.guarded_narrows_validating.parse? readAgain heeded
  exact (reads.1 parsed read).1

theorem rootNamespace?_of_reading {content : Text} {guarded : Xml.Parsed} {name : Xml.Name}
    (read : guardedReading? content = some guarded)
    (rooted : guarded.document.root?.bind Xml.Node.name? = some name) (inside : name.uri ≠ "") :
    rootNamespace? content = some name.uri := by
  obtain ⟨root, found, named⟩ := Option.bind_eq_some_iff.mp rooted
  simp [rootNamespace?, read, found, named, inside]

namespace Engine

/-- The filter for a namespace holds no evaluation of the document back. -/
structure Admitted (document : Document) (space : String) : Prop where
  inNamespace : document.rootNamespace? = some space
  applies : ∀ settings : Evaluation, settings.filter = some space →
    settings.applies document = true
  evaluated : ∀ {V : Type} {pool : Pool} {evaluation settings : Evaluation} {moves : List (Move V)}
    {last : System V} {index : Nat} {result : Result V},
    (System.initial pool evaluation).run moves = some last →
    last.threads[index]? = some ⟨.call (.evaluate document), .done result⟩ →
    (exchangesOf index ((System.initial pool evaluation).trace moves)).head? =
      some ⟨.evaluation, settings⟩ →
    settings.filter = some space →
    System.VisitsCurrent document settings (.initial pool evaluation) moves last index result ∧
      result ≠ .ok (.report .empty)

/-- The guarded reader refuses the document, and the filter for any namespace holds it back. -/
structure Refused (document : Document) : Prop where
  unread : document.content.bind guardedReading? = none
  inNoNamespace : document.rootNamespace? = none
  applies : ∀ settings : Evaluation, settings.filter ≠ none → settings.applies document = false

theorem applies_of_rootNamespace? {document : Document} {space : String} {settings : Evaluation}
    (full : document.isEmpty = false) (inside : document.rootNamespace? = some space)
    (filter : settings.filter = some space) : settings.applies document = true := by
  simp [Evaluation.applies, full, filter, inside]

theorem System.VisitsCurrent.not_empty {V : Type} {document : Document} {settings : Evaluation}
    {start : System V} {moves : List (Move V)} {last : System V} {index : Nat} {result : Result V}
    (visits : VisitsCurrent document settings start moves last index result) :
    result ≠ .ok (.report .empty) := by
  obtain ⟨generation, _, outcome, -, -, rfl, -⟩ := visits
  intro empty
  cases outcome with
  | ok violations => cases empty
  | error failure => cases empty

theorem admitted_of_rootNamespace? {document : Document} {space : String}
    (full : document.isEmpty = false) (inside : document.rootNamespace? = some space) :
    Admitted document space where
  inNamespace := inside
  applies _ := applies_of_rootNamespace? full inside
  evaluated reached found judged filter :=
    have visits := System.visitsCurrent_of_run reached found judged
      (applies_of_rootNamespace? full inside filter)
    ⟨visits, visits.not_empty⟩

theorem refused_of_unread {document : Document} (unnamed : document.givenNamespace = none)
    (full : document.isEmpty = false) {content : Text} (given : document.content = some content)
    (unread : guardedReading? content = none) : Refused document := by
  have outside : document.rootNamespace? = none := by
    simp [Document.rootNamespace?, unnamed, full, given, rootNamespace?, unread]
  refine ⟨by simp [given, unread], outside, fun settings filter => ?_⟩
  cases same : settings.filter with
  | none => exact absurd same filter
  | some space => simp [Evaluation.applies, same, outside]

/-- Whatever the validators can read is admitted by the filter for its namespace, if the guarded
reader can read it as well and meets no reference to parameters that makes it stop heeding
declarations. It is also admitted if validation still reads it when it is given no more names and
declarations than the guarded reader. -/
theorem refused_or_admitted {document : Document} (unnamed : document.givenNamespace = none)
    {parsed : Xml.Parsed} (accepted : document.parse = .ok parsed) {name : Xml.Name}
    (rooted : parsed.document.root?.bind Xml.Node.name? = some name) (inside : name.uri ≠ "") :
    (Refused document ∨ ∃ guarded, document.content.bind guardedReading? = some guarded ∧
      (guarded.doctype.ignoring = false → Admitted document name.uri)) ∧
    ∀ restricted, document.content.bind restrictedReading? = some restricted →
      restricted.doctype.ignoring = false → Admitted document name.uri := by
  have full := document.not_isEmpty_of_parse accepted
  obtain ⟨content, chars, given, text, read⟩ := document.parse_eq_ok accepted
  have named : document.rootNamespace? = rootNamespace? content := by
    simp [Document.rootNamespace?, unnamed, full, given]
  have admits (guarded : Xml.Parsed) (reading : guardedReading? content = some guarded)
      (heeded : guarded.doctype.ignoring = false) : Admitted document name.uri := by
    have same := name_of_readings text reading heeded read
    rw [rooted] at same
    exact admitted_of_rootNamespace? full
      (named.trans (rootNamespace?_of_reading reading same.symm inside))
  constructor
  · cases reading : guardedReading? content with
    | none => exact .inl (refused_of_unread unnamed full given reading)
    | some guarded => exact .inr ⟨guarded, by simp [given, reading], admits guarded reading⟩
  · intro restricted reading heeded
    rw [given, Option.bind_some] at reading
    obtain ⟨guarded, found, heeds⟩ := guardedReading?_of_restricted reading heeded
    exact admits guarded found heeds

def plain : Document := ⟨some (Text.ofString "<a xmlns='urn:x'/>"), none, none, "metadata"⟩

def examining : List (Move Unit) :=
  [.call .start, .advance 0,
    .call (.configure ⟨default, fun _ => none⟩ none [.resolved default]),
    .advance 1, .advance 1, .advance 1, .advance 1, .advance 1,
    .take 0, .begin 0 ⟨0, default, 1⟩, .advance 2, .compiled 2 (.ok ()) [], .advance 2, .advance 2,
    .call (.evaluate plain), .advance 3, .advance 3, .advance 3, .advance 3, .ran 3 (.ok [])]

theorem plain_admitted :
    Admitted plain "urn:x" ∧ ∃ last,
      (System.initial ⟨1, [], none, [], none⟩ ⟨some "urn:x", .unlimited⟩).run examining =
        some last ∧
      System.VisitsCurrent plain ⟨some "urn:x", .unlimited⟩
        (.initial ⟨1, [], none, [], none⟩ ⟨some "urn:x", .unlimited⟩) examining last 3
        (.ok (.report ⟨[], some 1⟩)) := by
  obtain ⟨parsed, accepted, rooted⟩ : ∃ parsed, plain.parse = .ok parsed ∧
      parsed.document.root?.bind Xml.Node.name? = some ⟨none, "a", "urn:x"⟩ := ⟨_, rfl, rfl⟩
  obtain ⟨restricted, reading, heeded⟩ : ∃ restricted,
      plain.content.bind restrictedReading? = some restricted ∧
      restricted.doctype.ignoring = false := ⟨_, rfl, rfl⟩
  have admitted : Admitted plain "urn:x" :=
    (refused_or_admitted rfl accepted rooted (by decide)).2 restricted reading heeded
  obtain ⟨last, reached⟩ : ∃ last, (System.initial ⟨1, [], none, [], none⟩
      ⟨some "urn:x", .unlimited⟩).run examining = some last := ⟨_, rfl⟩
  have found : last.threads[3]? =
      some ⟨.call (.evaluate plain), .done (.ok (.report ⟨[], some 1⟩))⟩ := by
    cases reached
    rfl
  exact ⟨admitted, last, reached, (admitted.evaluated reached found rfl rfl).1⟩

def declaring : Document :=
  -- The same document behind a declaration of an entity, which the guarded reader refuses.
  ⟨some (Text.ofString "<!DOCTYPE a [<!ENTITY e 'v'>]><a xmlns='urn:x'/>"), none, none, "metadata"⟩

theorem declaring_not_admitted :
    ¬ ∀ (document : Document) (parsed : Xml.Parsed) (name : Xml.Name),
      document.givenNamespace = none → document.parse = .ok parsed →
      parsed.document.root?.bind Xml.Node.name? = some name → name.uri ≠ "" →
      Admitted document name.uri := by
  intro admits
  obtain ⟨parsed, accepted, rooted⟩ : ∃ parsed, declaring.parse = .ok parsed ∧
      parsed.document.root?.bind Xml.Node.name? = some ⟨none, "a", "urn:x"⟩ := ⟨_, rfl, rfl⟩
  have inside := (admits declaring parsed _ rfl accepted rooted (by decide)).inNamespace
  have outside : declaring.rootNamespace? = none := rfl
  cases outside.symm.trans inside

def overlooking : Document :=
  -- Both readers take this document, but the guarded one heeds no declaration behind `%p;`.
  ⟨some (Text.ofString "<!DOCTYPE a [%p; <!ATTLIST a xmlns CDATA 'urn:x'>]><a/>"), none, none,
    "metadata"⟩

theorem overlooking_in_no_namespace :
    (∃ parsed, overlooking.parse = .ok parsed ∧
      parsed.document.root?.bind Xml.Node.name? = some ⟨none, "a", "urn:x"⟩) ∧
    (∃ guarded, overlooking.content.bind guardedReading? = some guarded ∧
      guarded.doctype.ignoring = true) ∧
    overlooking.rootNamespace? = none :=
  ⟨⟨_, rfl, rfl⟩, ⟨_, rfl, rfl⟩, rfl⟩

end Engine

end Schematron

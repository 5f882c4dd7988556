import Schematron.Proofs.Engine.Likeness
import Schematron.Proofs.Text.Utf8
import Schematron.Proofs.Xml.Headings
import Schematron.Service

/-!
Encodings that documents declare. Main statement: whatever encoding a document names, and whether it
names one, it is read as the same tree or refused, it has the same root namespace, it is held back
by the same settings, and its evaluation comes to the same end.
-/

namespace Schematron

inductive Concurs {α : Type} : Except Failure α → Except Failure α → Prop
  | same (outcome : Except Failure α) : Concurs outcome outcome
  | execution {message other kind detail another : String} :
      Concurs (.error (.execution message (some (.foreign kind detail))))
        (.error (.execution other (some (.foreign kind another))))

theorem Concurs.map {α β : Type} {outcome other : Except Failure α}
    (concurs : Concurs outcome other) (change : α → β) :
    Concurs (outcome.map change) (other.map change) := by
  cases concurs with
  | same => exact .same _
  | execution => exact .execution

theorem Concurs.bind {α β : Type} {outcome other : Except Failure α}
    (concurs : Concurs outcome other) (next : α → Except Failure β) :
    Concurs (outcome >>= next) (other >>= next) := by
  cases concurs with
  | same => exact .same _
  | execution => exact .execution

theorem Concurs.getD {α : Type} {outcome other : Option (Except Failure α)}
    {absent missing : Except Failure α} (concurs : Option.Rel Concurs outcome other)
    (without : Concurs absent missing) : Concurs (outcome.getD absent) (other.getD missing) := by
  cases concurs with
  | none => exact without
  | some concurs => exact concurs

namespace Text

theorem toChars?_append (chars : List Char) (rest : Text) :
    (ofChars chars ++ rest).toChars? = rest.toChars?.map (chars ++ ·) := by
  induction chars with
  | nil => exact Option.map_id'.symm
  | cons char chars ih =>
      simp only [toChars?, ofChars, List.map_cons, List.cons_append, List.mapM_cons,
        CodePoint.toChar?_ofChar] at ih ⊢
      rw [ih]
      cases List.mapM CodePoint.toChar? rest <;> rfl

theorem isSurrogate_ofChar (char : Char) : (CodePoint.ofChar char).isSurrogate = false := by
  have found := CodePoint.toChar?_ofChar char
  rw [CodePoint.toChar?] at found
  split at found
  next => cases found
  next plain => simpa using plain

theorem surrogateRun?_append (chars : List Char) (rest : Text) :
    (ofChars chars ++ rest).surrogateRun? =
      rest.surrogateRun?.map fun run => (chars.length + run.1, run.2) := by
  have plain : ∀ point ∈ ofChars chars, (!point.isSurrogate) = true := by
    rintro point member
    obtain ⟨char, -, rfl⟩ := List.mem_map.mp member
    rw [isSurrogate_ofChar]
    rfl
  have length : (ofChars chars).length = chars.length := List.length_map _
  simp only [surrogateRun?]
  rw [List.takeWhile_append_of_pos plain, List.length_append, List.drop_length_add_append, length]
  split <;> rfl

end Text

structure Document.Twins (document other : Document) : Prop where
  parse : Concurs document.parse other.parse
  isEmpty : document.isEmpty = other.isEmpty
  rootNamespace : document.rootNamespace? = other.rootNamespace?
  contentAttribute : document.contentAttribute = other.contentAttribute

/-! Headings with different encodings -/

namespace Document

def headed (document : Document) (heading : Xml.Heading) (encoding : Option Xml.Encoding)
    (body : Text) : Document :=
  { document with content := some (Text.ofChars (heading.text encoding) ++ body) }

variable (document : Document) (heading : Xml.Heading) (first second : Option Xml.Encoding)
  (body : Text)

theorem isEmpty_headed (encoding : Option Xml.Encoding) :
    (document.headed heading encoding body).isEmpty = false := by
  have filled : Text.ofChars (heading.text encoding) ++ body ≠ [] := by
    simp [Text.ofChars, Xml.Heading.text]
  rw [isEmpty, headed]
  split
  next same => cases same
  next same => exact absurd (Option.some.inj same) filled
  next => rfl

/-- A dialect that has room for the names of encodings reads the same with any of them, once it is
told how the text was made bytes. -/
theorem parseBytes?_headed {dialect : Xml.Dialect}
    (holds : ∀ name : Xml.EncodingName, dialect.holdsEncoding name.chars = true) :
    (Text.ofChars (heading.text first) ++ body).toUtf8?.bind
        (Xml.parseBytes? dialect (some "utf-8")) =
      (Text.ofChars (heading.text second) ++ body).toUtf8?.bind
        (Xml.parseBytes? dialect (some "utf-8")) := by
  rw [Xml.parseBytes?_toUtf8, Xml.parseBytes?_toUtf8, Text.toChars?_append, Text.toChars?_append]
  cases body.toChars? with
  | none => rfl
  | some rest =>
      exact (heading.parse?_encoding (fun named _ => holds named.name) rest).trans
        (heading.parse?_encoding (fun named _ => holds named.name) rest).symm

theorem concurs_parse : Concurs (document.headed heading first body).parse
    (document.headed heading second body).parse := by
  have reads := parseBytes?_headed heading first second body Xml.EncodingName.held
  simp only [parse, headed, Text.surrogateRun?_append, reads]
  cases body.surrogateRun? with
  | none => exact .same _
  | some run => exact .execution

theorem rootNamespace?_headed : (document.headed heading first body).rootNamespace? =
    (document.headed heading second body).rootNamespace? := by
  have reads : guardedReading? (Text.ofChars (heading.text first) ++ body) =
      guardedReading? (Text.ofChars (heading.text second) ++ body) :=
    parseBytes?_headed heading first second body fun _ => rfl
  have filled (encoding : Option Xml.Encoding) := document.isEmpty_headed heading body encoding
  simp only [headed] at filled
  simp only [rootNamespace?, headed, filled, Option.bind_some, Schematron.rootNamespace?, reads]

theorem twins_headed : (document.headed heading first body).Twins
    (document.headed heading second body) where
  parse := document.concurs_parse heading first second body
  isEmpty := by rw [isEmpty_headed, isEmpty_headed]
  rootNamespace := document.rootNamespace?_headed heading first second body
  contentAttribute := rfl

end Document

/-! Evaluation -/

namespace Document.Twins

variable {document other : Document} (twins : document.Twins other)
include twins

theorem applies (settings : Engine.Evaluation) :
    settings.applies document = settings.applies other := by
  rw [Engine.Evaluation.applies, Engine.Evaluation.applies, twins.isEmpty, twins.rootNamespace]

theorem run (files : FileTree) (validator : Validator) :
    Concurs (validator.run files document) (validator.run files other) :=
  twins.parse.bind _

end Document.Twins

namespace Engine

open Program

def Likeness.replacing (document other : Document) : Likeness where
  documents one another := one = document ∧ another = other
  answers := Concurs
  same := .same

variable {V : Type} {document other : Document} (twins : document.Twins other)
include twins

theorem runAll_alike (handles : List Handle) :
    (runAll document handles : Program V _).Alike (.replacing document other) Concurs
      (runAll other handles) := by
  induction handles with
  | nil => exact .done (.same _)
  | cons handle rest ih =>
      refine .step fun evaluation => .step fun delivered => ?_
      cases delivered with
      | error failure => exact .done (.same _)
      | ok validator =>
          refine .run ⟨rfl, rfl⟩ fun reply also concurs => ?_
          cases concurs with
          | same =>
              cases reply with
              | error failure => exact .done (.same _)
              | ok diagnostics =>
                  refine ih.bind fun found others concurs => .done ?_
                  rw [twins.contentAttribute]
                  exact concurs.map _
          | execution => exact .done .execution

theorem evaluate_alike :
    ((Call.evaluate document).program : Program V (Result V)).Alike (.replacing document other)
      Concurs (Call.evaluate other).program := by
  have evaluated : (evaluate document : Program V _).Alike (.replacing document other) Concurs
      (evaluate other) := by
    refine .step fun settings => ?_
    simp only [Program.bind]
    rw [twins.applies]
    split
    next =>
      refine .step fun generation => (runAll_alike twins generation.handles).bind ?_
      exact fun found others concurs => .done (concurs.map _)
    next => exact .done (.same _)
  exact evaluated.bind fun found others concurs => .done (concurs.map _)

end Engine

def Validator.Gives (validator : Validator) (document : Document)
    (reply : Except Failure (List Diagnostic)) : Prop :=
  ∃ files, reply = validator.run files document

/-- What nobody can tell apart who asks for the tree, the namespace or the evaluation of a document
and of the one in its place. -/
structure Document.Indistinct (document other : Document) : Prop where
  parse : Concurs document.parse other.parse
  rootNamespace : document.rootNamespace? = other.rootNamespace?
  applies : ∀ settings : Engine.Evaluation, settings.applies document = settings.applies other
  run : ∀ (files : FileTree) (validator : Validator),
    Concurs (validator.run files document) (validator.run files other)
  ask : ∀ (service : Service) (files : FileTree),
    Concurs (service.ask files (.evaluate document)).1 (service.ask files (.evaluate other)).1 ∧
    (service.ask files (.evaluate document)).2.system.state =
      (service.ask files (.evaluate other)).2.system.state
  reach : ∀ (system last : Engine.System Validator) moves,
    (system.asked (.evaluate document)).run moves = some last →
    (∀ event ∈ (system.asked (.evaluate document)).trace moves,
      event.Truthful Validator.Gives) →
    ∃ others final, (system.asked (.evaluate other)).run others = some final ∧
      List.Forall₂ (Engine.Move.Alike (.replacing document other)) moves others ∧
      (∀ event ∈ (system.asked (.evaluate other)).trace others,
        event.Truthful Validator.Gives) ∧
      final.state = last.state ∧
      ∀ index, Option.Rel Concurs (last.result? index) (final.result? index)

theorem Document.Twins.indistinct {document other : Document} (twins : document.Twins other) :
    document.Indistinct other := by
  have programs : ((Engine.Call.evaluate document).program : Engine.Program Validator _).Alike
      (.replacing document other) Concurs (Engine.Call.evaluate other).program :=
    Engine.evaluate_alike twins
  constructor
  case parse => exact twins.parse
  case rootNamespace => exact twins.rootNamespace
  case applies => exact twins.applies
  case run => exact twins.run
  case ask =>
    intro service files
    have honours : (service.world files).Honours (.replacing document other) := by
      rintro validator _ _ ⟨rfl, rfl⟩
      exact twins.run files validator
    obtain ⟨answers, systems⟩ := (Engine.System.Alike.refl .same service.system).perform
      .same honours programs
    exact ⟨.getD answers (.same _), systems.state⟩
  case reach =>
    intro system last moves reached truthful
    have asked : (system.asked (.evaluate document)).Alike (.replacing document other) Concurs
        (system.asked (.evaluate other)) :=
      (Engine.System.Alike.refl .same system).spawn ⟨rfl, programs⟩
    obtain ⟨others, final, goes, parallel, honest, alike⟩ := asked.run .same (by
      rintro validator _ _ _ ⟨rfl, rfl⟩ ⟨files, rfl⟩
      exact ⟨_, ⟨files, rfl⟩, twins.run files validator⟩) reached truthful
    exact ⟨others, final, goes, parallel, honest, alike.state.symm, alike.result?⟩

/-- A text may name any encoding, or none: its readers are told how it was made bytes. -/
theorem encoding_immaterial :
    (∀ chars declaration rest,
      Xml.leadingDeclaration .validating chars = some (declaration, rest) →
      declaration.encoding ≠ none →
      ∃ (heading : Xml.Heading) (encoding : Xml.Encoding),
        chars = heading.text (some encoding) ++ rest) ∧
    ∀ (document : Document) (heading : Xml.Heading) (first second : Option Xml.Encoding)
      (body : Text),
      (document.headed heading first body).Indistinct (document.headed heading second body) := by
  refine ⟨fun chars declaration rest read encoded => ?_, fun document heading first second body =>
    (document.twins_headed heading first second body).indistinct⟩
  obtain ⟨name, encoded⟩ := Option.ne_none_iff_exists'.mp encoded
  obtain ⟨heading, encoding, spelled, -⟩ := Xml.Heading.exists_heading read encoded
  exact ⟨heading, encoding, spelled⟩

-- A reader that is not told the encoding goes by the declaration: it refuses the text, or garbles it.
example :
    let reading (encoding : Option String) (name : String) :=
      (Xml.parseBytes? .validating encoding (Text.toUtf8
        ("<?xml version=\"1.0\" encoding=\"" ++ name ++ "\"?><a>é</a>").toList)).bind fun parsed =>
          parsed.document.root?.map Xml.Node.stringValue
    reading none "utf-16" = none ∧ reading none "iso-8859-1" = some "Ã©" ∧
      reading (some "utf-8") "utf-16" = some "é" ∧
      reading (some "utf-8") "iso-8859-1" = some "é" := by
  decide +kernel

end Schematron

import Schematron.Proofs.Xml.Declarations

/-!
Documents: where one dialect reads a document and passes over no declaration, another one with a
larger alphabet refuses the document or finds the same document type and a root element of the same
name.
-/

namespace Schematron.Xml

theorem endsName_of_startTagTail {dialect : Dialect} {doctype : Doctype} {element : String}
    {fuel : Nat} {found : List ((Option String × String) × String)} {rest : List Char}
    {next : (List ((Option String × String) × String) × Bool) × List Char}
    (read : startTagTail dialect doctype element fuel found rest = some next) : EndsName rest := by
  cases fuel with
  | zero => cases read
  | succ fuel =>
      simp only [startTagTail] at read
      split at read
      next ended => exact endsName_of_skipBlanks ended rfl
      next ended => exact endsName_of_skipBlanks ended rfl
      next =>
        simp only [Option.bind_eq_bind, Option.bind_eq_some_iff] at read
        obtain ⟨_, blank, -⟩ := read
        exact endsName_of_requireBlank blank

def Frame.tag (frame : Frame) : Name × String × List Binding :=
  (frame.name, frame.written, frame.scope)

@[simp] theorem Frame.tag_push (frame : Frame) (node : Node) :
    (frame.push node).tag = frame.tag := by
  unfold Frame.push
  split
  next => rfl
  next => split <;> rfl
  next => rfl

theorem Frame.name?_close {left right : Frame} (alike : right.tag = left.tag) :
    right.close.name? = left.close.name? := by
  simp only [Frame.tag, Prod.mk.injEq] at alike
  simp only [Frame.close, Node.name?, alike.1]

theorem Dialect.Admits.allowsBinding {narrow wide : Dialect} (admits : wide.Admits narrow)
    {pre uri : String} (allowed : narrow.allowsBinding pre uri = true) :
    wide.allowsBinding pre uri = true := by
  have granted := admits.namespaceName uri
  simp only [Dialect.allowsBinding] at allowed ⊢
  grind

namespace Dialect.Narrows

variable {narrow wide : Dialect} {doctype : Doctype}

/-! Elements -/

theorem startTagTail (narrows : narrow.Narrows wide) {element : String} {fuel : Nat}
    {items : List ((Option String × String) × String)} {rest : List Char}
    {next : (List ((Option String × String) × String) × Bool) × List Char}
    (read : Schematron.Xml.startTagTail narrow doctype element fuel items rest = some next) :
    Echoes (wide.Admits narrow) next
      (Schematron.Xml.startTagTail wide doctype element fuel items rest) := by
  induction fuel generalizing items rest with
  | zero => cases read
  | succ fuel ih =>
      simp only [Schematron.Xml.startTagTail] at read ⊢
      split at read
      next => exact .of_eq read
      next => exact .of_eq read
      next =>
        simp only [Option.bind_eq_bind, Option.bind_eq_some_iff] at read ⊢
        obtain ⟨named, blank, ⟨name, middle⟩, readName, equals, expected, ⟨content, later⟩,
          readQuoted, value, readValue, read⟩ := read
        have ends := endsName_of_expect_skipBlanks expected rfl rfl
        refine (Reads.of_eq blank).bind ((narrows.qualifiedName readName ends).bind ?_)
        refine (Reads.of_eq expected).bind ((Reads.of_eq readQuoted).bind ?_)
        exact (narrows.attributeValue readValue).bind (ih read)

theorem openElement {scope : List Binding} {name : Option String × String}
    {found : List ((Option String × String) × String)} {opened : Frame}
    (read : Schematron.Xml.openElement narrow doctype scope name found = some opened) :
    Reads (wide.Admits narrow) (fun other => other.tag = opened.tag)
      (Schematron.Xml.openElement wide doctype scope name found) := by
  simp only [Schematron.Xml.openElement, Option.ite_none_left_eq_some, Option.bind_eq_bind,
    Option.bind_eq_some_iff, Option.some.injEq] at read ⊢
  obtain ⟨distinct, allowed, named, readName, given, readGiven, defaulted, readDefaulted, apart,
    rfl⟩ := read
  refine .avoid (fun _ => distinct) (.avoid (fun admits refused => allowed ?_) ?_)
  · rw [Bool.not_eq_true', ← Bool.not_eq_true, List.all_eq_true] at refused ⊢
    exact fun all => refused fun binding member => admits.allowsBinding (all binding member)
  · refine (Reads.of_eq readName).bind ((Reads.of_eq readGiven).bind ?_)
    exact (Reads.of_eq readDefaulted).bind (.avoid (fun _ => apart) (.of_some rfl))

theorem startTag (narrows : narrow.Narrows wide) {scope : List Binding} {rest : List Char}
    {next : (Frame × Bool) × List Char}
    (read : Schematron.Xml.startTag narrow doctype scope rest = some next) :
    Reads (wide.Admits narrow)
      (fun found => found.1.1.tag = next.1.1.tag ∧ found.1.2 = next.1.2 ∧ found.2 = next.2)
      (Schematron.Xml.startTag wide doctype scope rest) := by
  simp only [Schematron.Xml.startTag, Option.bind_eq_bind, Option.bind_eq_some_iff,
    Option.some.injEq] at read ⊢
  obtain ⟨⟨name, middle⟩, readName, ⟨⟨items, isEmpty⟩, after⟩, readTail, opened, readOpened,
    rfl⟩ := read
  refine (narrows.qualifiedName readName (endsName_of_startTagTail readTail)).bind ?_
  refine (narrows.startTagTail readTail).bind ((openElement readOpened).bind ?_)
  exact fun other alike => .of_some ⟨alike, rfl, rfl⟩

/-- With the same elements open, both dialects close the outermost one at the same place. -/
theorem readContent (narrows : narrow.Narrows wide)
    {expand wider : List Binding → Nat → String → Option (List Node)}
    (unknown : ∀ scope depth name, expand scope depth name = none) {depth fuel : Nat}
    {frame other : Frame} {outer others : List Frame} (alike : other.tag = frame.tag)
    (alikes : others.map Frame.tag = outer.map Frame.tag) {rest : List Char}
    {next : Node × List Char}
    (read : Schematron.Xml.readContent narrow doctype expand false depth fuel frame outer rest =
      some next) :
    Reads (wide.Admits narrow) (fun found => found.1.name? = next.1.name? ∧ found.2 = next.2)
      (Schematron.Xml.readContent wide doctype wider false depth fuel other others rest) := by
  induction fuel generalizing frame other outer others rest with
  | zero => cases read
  | succ fuel ih =>
      have written : other.written = frame.written := congrArg (·.2.1) alike
      have scope : other.scope = frame.scope := congrArg (·.2.2) alike
      have length : others.length = outer.length := by
        simpa using congrArg List.length alikes
      have pushed (node another : Node) : (other.push another).tag = (frame.push node).tag := by
        simpa using alike
      simp only [Schematron.Xml.readContent] at read ⊢
      split at read
      next => simp at read
      next =>
        simp only [Option.bind_eq_bind, Option.bind_eq_some_iff, Option.ite_none_right_eq_some]
          at read ⊢
        obtain ⟨⟨name, middle⟩, readName, ended, closed, same, read⟩ := read
        have ends := endsName_of_expect_skipBlanks closed rfl rfl
        refine (narrows.qualifiedName readName ends).bind ((Reads.of_eq closed).bind ?_)
        rw [if_pos (by simpa [written] using same)]
        cases outer with
        | nil =>
            obtain rfl := List.map_eq_nil_iff.mp alikes
            cases read
            exact .of_some ⟨Frame.name?_close alike, rfl⟩
        | cons parent outer =>
            obtain ⟨ancestor, others, rfl, ancestors, alikes⟩ := List.map_eq_cons_iff.mp alikes
            exact ih (by simpa using ancestors) alikes read
      next =>
        simp only [Option.bind_eq_bind, Option.bind_eq_some_iff] at read ⊢
        obtain ⟨content, readComment, read⟩ := read
        exact (Reads.of_eq readComment).bind (ih (pushed _ _) alikes read)
      next =>
        simp only [Option.bind_eq_bind, Option.bind_eq_some_iff] at read ⊢
        obtain ⟨opened, expected, content, readText, read⟩ := read
        refine (Reads.of_eq expected).bind ((Reads.of_eq readText).bind ?_)
        exact ih (pushed _ _) alikes read
      next =>
        simp only [Option.bind_eq_bind, Option.bind_eq_some_iff] at read ⊢
        obtain ⟨content, readInstruction, read⟩ := read
        exact (narrows.instructionContent readInstruction).bind (ih (pushed _ _) alikes read)
      next =>
        simp only [Option.bind_eq_bind, Option.bind_eq_some_iff, Option.ite_none_left_eq_some,
          scope, length] at read ⊢
        obtain ⟨⟨⟨opened, isEmpty⟩, after⟩, readTag, shallow, read⟩ := read
        refine (narrows.startTag readTag).bind ?_
        rintro ⟨⟨opened', isEmpty'⟩, after'⟩ ⟨tags, sameEmpty, sameAfter⟩
        cases sameEmpty
        cases sameAfter
        refine .avoid (fun admits tooDeep => shallow (admits.depth _ tooDeep)) ?_
        cases isEmpty with
        | true => exact ih (pushed _ _) alikes read
        | false => exact ih tags (by simp [alike, alikes]) read
      next =>
        simp only [Option.bind_eq_bind, Option.bind_eq_some_iff] at read ⊢
        obtain ⟨⟨reference, after⟩, readReference, read⟩ := read
        refine (narrows.reference readReference).bind ?_
        cases reference with
        | character char => exact ih (pushed _ _) alikes read
        | entity name =>
            cases known : predefined? name with
            | some char =>
                simp only [known] at read ⊢
                exact ih (pushed _ _) alikes read
            | none => simp [known, unknown] at read
      next =>
        simp only [Option.ite_none_left_eq_some] at read ⊢
        exact .avoid (fun _ => read.1) (ih (pushed _ _) alikes read.2)

/-! Whole documents -/

theorem readMisc (narrows : narrow.Narrows wide) {fuel : Nat} {rest : List Char}
    {next : List Node × List Char}
    (read : Schematron.Xml.readMisc narrow fuel rest = some next) :
    Echoes (wide.Admits narrow) next (Schematron.Xml.readMisc wide fuel rest) := by
  induction fuel generalizing rest next with
  | zero => cases read
  | succ fuel ih =>
      simp only [Schematron.Xml.readMisc] at read ⊢
      split at read
      next =>
        simp only [Option.bind_eq_bind, Option.bind_eq_some_iff] at read ⊢
        obtain ⟨content, readContent, others, readOthers, read⟩ := read
        refine (narrows.instructionContent readContent).bind ?_
        exact (ih readOthers).bind (.of_eq read)
      next =>
        simp only [Option.bind_eq_bind, Option.bind_eq_some_iff] at read ⊢
        obtain ⟨content, readContent, others, readOthers, read⟩ := read
        exact (Reads.of_eq readContent).bind ((ih readOthers).bind (.of_eq read))
      next => exact .of_eq read

theorem declarationTail {rest : List Char} {next : Declaration × List Char}
    (read : Schematron.Xml.declarationTail narrow rest = some next) :
    Echoes (wide.Admits narrow) next (Schematron.Xml.declarationTail wide rest) := by
  simp only [Schematron.Xml.declarationTail] at read ⊢
  split at read
  next name after _ =>
    cases held : isEncodingName name && narrow.holdsEncoding name with
    | false => simp [held] at read
    | true =>
        simp only [held, if_true] at read
        obtain ⟨encodes, room⟩ := Bool.and_eq_true_iff.mp held
        have granted (admits : wide.Admits narrow) :
            (isEncodingName name && wide.holdsEncoding name) = true :=
          Bool.and_eq_true_iff.mpr ⟨encodes, admits.limit _ room⟩
        exact .guard granted (.of_eq read)
  next => exact .of_eq read

theorem leadingDeclaration {rest : List Char} {next : Declaration × List Char}
    (read : Schematron.Xml.leadingDeclaration narrow rest = some next) :
    Echoes (wide.Admits narrow) next (Schematron.Xml.leadingDeclaration wide rest) := by
  simp only [Schematron.Xml.leadingDeclaration] at read ⊢
  split at read
  next char tail expected =>
    split at read
    next blank =>
      simp only [blank, if_true, declaration, Option.bind_eq_bind, Option.bind_eq_some_iff,
        Option.ite_none_right_eq_some] at read ⊢
      obtain ⟨version, readVersion, numbered, read⟩ := read
      exact (Reads.of_eq readVersion).bind
        (.guard (fun admits => admits.version _ numbered) (declarationTail read))
    next blank =>
      rw [if_neg blank]
      exact .of_eq read
  next => exact .of_eq read

theorem readDoctype (narrows : narrow.Narrows wide) {isStandalone : Bool} {rest after : List Char}
    {between : List Node}
    (read : Schematron.Xml.readDoctype narrow isStandalone rest = some ((doctype, between), after))
    (heeded : doctype.ignoring = false) :
    doctype.Bare ∧ Echoes (wide.Admits narrow) ((doctype, between), after)
      (Schematron.Xml.readDoctype wide isStandalone rest) := by
  simp only [Schematron.Xml.readDoctype] at read ⊢
  split at read
  next inner _ =>
    simp only [Option.bind_eq_bind, Option.bind_eq_some_iff] at read ⊢
    obtain ⟨⟨_, later⟩, readDeclaration, ⟨_, _⟩, readBetween, read⟩ := read
    cases read
    obtain ⟨bare, alike⟩ := narrows.doctypeDeclaration inner _ readDeclaration
    exact ⟨bare, (alike heeded).2.bind ((narrows.readMisc readBetween).bind (.of_some rfl))⟩
  next =>
    cases read
    exact ⟨⟨rfl, rfl⟩, .of_some rfl⟩

theorem expandEntity (narrows : narrow.Narrows wide) (bare : doctype.Bare) (nesting : Nat)
    (scope : List Binding) (depth : Nat) (name : String) :
    Schematron.Xml.expandEntity narrow doctype nesting scope depth name = none := by
  cases nesting with
  | zero => rfl
  | succ nesting =>
      simp [Schematron.Xml.expandEntity, Doctype.entity?, bare.1, narrows.unknown]

theorem readRoot (narrows : narrow.Narrows wide) (bare : doctype.Bare) {rest : List Char}
    {next : Node × List Char}
    (read : Schematron.Xml.readRoot narrow doctype rest = some next) :
    Reads (wide.Admits narrow) (fun found => found.1.name? = next.1.name? ∧ found.2 = next.2)
      (Schematron.Xml.readRoot wide doctype rest) := by
  simp only [Schematron.Xml.readRoot, Option.bind_eq_bind, Option.bind_eq_some_iff] at read ⊢
  obtain ⟨tag, expected, ⟨⟨opened, isEmpty⟩, after⟩, readTag, read⟩ := read
  refine (Reads.of_eq expected).bind ((narrows.startTag readTag).bind ?_)
  rintro ⟨⟨opened', isEmpty'⟩, after'⟩ ⟨tags, sameEmpty, sameAfter⟩
  cases sameEmpty
  cases sameAfter
  cases isEmpty with
  | true =>
      cases read
      exact .of_some ⟨Frame.name?_close tags, rfl⟩
  | false => exact narrows.readContent (narrows.expandEntity bare _) tags rfl read

end Dialect.Narrows

theorem Node.isElement_eq (node : Node) : node.isElement = node.name?.isSome := by
  cases node <;> rfl

theorem Document.name_root (before after : List Node) {root other : Node}
    (same : other.name? = root.name?) :
    (Document.mk (before ++ other :: after)).root?.bind Node.name? =
      (Document.mk (before ++ root :: after)).root?.bind Node.name? := by
  have sameKind : other.isElement = root.isElement := by
    rw [Node.isElement_eq, Node.isElement_eq, same]
  simp only [Document.root?, List.find?_append, List.find?_cons, sameKind]
  cases before.find? Node.isElement with
  | some node => rfl
  | none =>
      cases root.isElement with
      | true => exact same
      | false => rfl

/-- A document that one dialect reads is refused by the other one, or has a root of the same name
there; it is not refused where no bound is tighter. -/
theorem Dialect.Narrows.parse? {narrow wide : Dialect} (narrows : narrow.Narrows wide)
    {chars : List Char} {next : Parsed} (read : Xml.parse? narrow chars = some next)
    (heeded : next.doctype.ignoring = false) :
    Reads (wide.Admits narrow)
      (fun found => found.document.root?.bind Node.name? = next.document.root?.bind Node.name? ∧
        found.doctype = next.doctype)
      (Xml.parse? wide chars) := by
  simp only [Xml.parse?, parseLines?, Option.ite_none_right_eq_some, Option.bind_eq_bind,
    Option.bind_eq_some_iff, Option.some.injEq] at read ⊢
  obtain ⟨allowed, declared, readDeclared, before, readBefore, ⟨⟨doctype, between⟩, rest⟩,
    readBetween, root, readRoot, after, readAfter, empty, rfl⟩ := read
  rw [if_pos allowed]
  refine (leadingDeclaration readDeclared).bind ((narrows.readMisc readBefore).bind ?_)
  obtain ⟨bare, alike⟩ := narrows.readDoctype readBetween heeded
  refine alike.bind ((narrows.readRoot bare readRoot).bind ?_)
  rintro ⟨other, _⟩ ⟨same, rfl⟩
  refine (narrows.readMisc readAfter).bind ?_
  rw [if_pos empty]
  exact .of_some ⟨Document.name_root _ _ same, rfl⟩

end Schematron.Xml

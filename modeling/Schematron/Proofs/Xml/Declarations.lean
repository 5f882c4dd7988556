import Schematron.Proofs.Xml.Names

/-!
Declarations: where one dialect reads a document type, another one with a larger alphabet reads the
same or refuses, as long as no declaration is passed over.
-/

namespace Schematron.Xml

theorem endsName_of_skipOccurrence {rest : List Char} (ends : EndsName (skipOccurrence rest)) :
    EndsName rest := by
  cases rest with
  | nil => exact ends
  | cons char tail =>
      by_cases occurs : (char == '?' || char == '*' || char == '+') = true
      · refine endsName_cons ?_ tail
        simp only [Bool.or_eq_true, beq_iff_eq] at occurs
        rcases occurs with (rfl | rfl) | rfl <;> rfl
      · simpa only [skipOccurrence, if_neg occurs] using ends

theorem endsName_of_siblings {dialect : Dialect} {fuel : Nat} {separator : Option Char}
    {rest after : List Char}
    (read : siblings dialect fuel separator (skipBlanks rest) = some after) : EndsName rest := by
  cases fuel with
  | zero => cases read
  | succ fuel =>
      simp only [siblings] at read
      split at read
      next tail found => exact endsName_of_skipBlanks found rfl
      next char tail other found =>
        simp only [Option.ite_none_right_eq_some, Bool.and_eq_true, Bool.or_eq_true,
          beq_iff_eq] at read
        refine endsName_of_skipBlanks found ?_
        rcases read.1.1 with rfl | rfl <;> rfl
      next => cases read

theorem endsName_of_mixedTail {dialect : Dialect} {fuel : Nat} {isPlain : Bool}
    {rest after : List Char} (read : mixedTail dialect fuel isPlain rest = some after) :
    EndsName rest := by
  cases fuel with
  | zero => cases read
  | succ fuel =>
      simp only [mixedTail] at read
      split at read
      next found => exact endsName_of_skipBlanks found rfl
      next found => exact endsName_of_skipBlanks found rfl
      next => cases read

theorem endsName_of_attributeList {dialect : Dialect} {element : String} {fuel : Nat}
    {doctype : Doctype} {rest : List Char} {found : Doctype × List Char}
    (read : attributeList dialect element fuel doctype rest = some found) : EndsName rest := by
  cases fuel with
  | zero => cases read
  | succ fuel =>
      simp only [attributeList] at read
      split at read
      next ended => exact endsName_of_skipBlanks ended rfl
      next =>
        simp only [Option.bind_eq_bind, Option.bind_eq_some_iff] at read
        obtain ⟨_, blank, -⟩ := read
        exact endsName_of_requireBlank blank

theorem endsName_of_doctypeEnd {dialect : Dialect} {isStandalone : Bool} {doctype : Doctype}
    {rest : List Char} {next : Doctype × List Char}
    (read : doctypeEnd dialect isStandalone doctype (skipBlanks rest) = some next) :
    EndsName rest := by
  simp only [doctypeEnd] at read
  split at read
  next opened => exact endsName_of_skipBlanks opened rfl
  next =>
    obtain ⟨_, closed, -⟩ := Option.map_eq_some_iff.mp read
    exact endsName_of_expect_skipBlanks closed rfl rfl

theorem head_of_startsExternal {char : Char} {rest : List Char}
    (external : startsExternal (char :: rest) = true) : char = 'S' ∨ char = 'P' := by
  simp only [startsExternal, Bool.or_eq_true, Option.isSome_iff_exists] at external
  rcases external with ⟨after, found⟩ | ⟨after, found⟩
  · exact .inl (List.cons.inj (expect_eq_some found)).1
  · exact .inr (List.cons.inj (expect_eq_some found)).1

namespace Dialect.Narrows

variable {narrow wide : Dialect}

/-! Attribute values -/

theorem expandValue (narrows : narrow.Narrows wide) {expand wider : String → Option (List Char)}
    (expands : ∀ name value, expand name = some value →
      Echoes (wide.Admits narrow) value (wider name))
    {fuel : Nat} {chars value : List Char}
    (read : Schematron.Xml.expandValue narrow expand fuel chars = some value) :
    Echoes (wide.Admits narrow) value (Schematron.Xml.expandValue wide wider fuel chars) := by
  fun_induction Schematron.Xml.expandValue narrow expand fuel chars generalizing value with
  | case1 => cases read
  | case2 =>
      simp only [Schematron.Xml.expandValue]
      exact .of_eq read
  | case3 => cases read
  | case4 fuel rest ih =>
      simp only [Schematron.Xml.expandValue, Option.bind_eq_bind, Option.bind_eq_some_iff]
        at read ⊢
      obtain ⟨⟨reference, after⟩, readReference, read⟩ := read
      refine (narrows.reference readReference).bind ?_
      cases reference with
      | character char =>
          simp only [Option.bind_some, Option.bind_eq_some_iff] at read ⊢
          obtain ⟨tail, readTail, read⟩ := read
          exact (ih _ readTail).bind (.of_eq read)
      | entity name =>
          cases known : predefined? name with
          | some char =>
              simp only [known, Option.bind_some, Option.bind_eq_some_iff] at read ⊢
              obtain ⟨tail, readTail, read⟩ := read
              exact (ih _ readTail).bind (.of_eq read)
          | none =>
              simp only [known, Option.bind_eq_some_iff] at read ⊢
              obtain ⟨head, expanded, tail, readTail, read⟩ := read
              exact (expands name head expanded).bind ((ih _ readTail).bind (.of_eq read))
  | case5 fuel char rest plain tags ih =>
      simp only [Schematron.Xml.expandValue, Option.bind_eq_bind, Option.bind_eq_some_iff]
        at read ⊢
      obtain ⟨tail, readTail, read⟩ := read
      exact (ih readTail).bind (.of_eq read)

theorem attributeText (narrows : narrow.Narrows wide) {doctype : Doctype} {depth : Nat}
    {chars value : List Char}
    (read : Schematron.Xml.attributeText narrow doctype depth chars = some value) :
    Echoes (wide.Admits narrow) value (Schematron.Xml.attributeText wide doctype depth chars) := by
  induction depth generalizing chars value with
  | zero => cases read
  | succ depth ih =>
      simp only [Schematron.Xml.attributeText] at read ⊢
      refine narrows.expandValue (fun name value expanded => ?_) read
      simp only [Option.bind_eq_bind, Option.bind_eq_some_iff] at expanded ⊢
      obtain ⟨text, known, expanded⟩ := expanded
      exact (Reads.of_eq known).bind (ih expanded)

theorem attributeValue (narrows : narrow.Narrows wide) {doctype : Doctype} {isTokenized : Bool}
    {chars : List Char} {value : String}
    (read : Schematron.Xml.attributeValue narrow doctype isTokenized chars = some value) :
    Echoes (wide.Admits narrow) value
      (Schematron.Xml.attributeValue wide doctype isTokenized chars) := by
  simp only [Schematron.Xml.attributeValue, Option.bind_eq_bind, Option.bind_eq_some_iff]
    at read ⊢
  obtain ⟨text, readText, read⟩ := read
  exact (narrows.attributeText readText).bind (.of_eq read)

/-! Content models -/

theorem particle_siblings (narrows : narrow.Narrows wide) (fuel : Nat) :
    (∀ rest after, particle narrow fuel rest = some after → EndsName after →
      Echoes (wide.Admits narrow) after (particle wide fuel rest)) ∧
    ∀ separator rest after, siblings narrow fuel separator rest = some after →
      Echoes (wide.Admits narrow) after (siblings wide fuel separator rest) := by
  induction fuel with
  | zero => exact ⟨fun _ _ read => (nomatch read), fun _ _ _ read => (nomatch read)⟩
  | succ fuel ih =>
      constructor
      · intro rest after read ends
        unfold particle at read ⊢
        split at read
        next => cases read
        next _ fuel' inner same =>
          cases same
          simp only [Option.bind_eq_bind, Option.bind_eq_some_iff] at read ⊢
          obtain ⟨middle, first, later, others, read⟩ := read
          refine (ih.1 _ _ first (endsName_of_siblings others)).bind ?_
          exact (ih.2 _ _ _ others).bind (.of_eq read)
        next _ _ fuel' same other =>
          cases same
          simp only [Option.bind_eq_bind, Option.bind_eq_some_iff, Option.some.injEq] at read ⊢
          obtain ⟨⟨name, middle⟩, named, rfl⟩ := read
          exact (narrows.name named (endsName_of_skipOccurrence ends)).bind (.of_some rfl)
      · intro separator rest after read
        simp only [siblings] at read ⊢
        split at read
        next => exact .of_eq read
        next char tail other =>
          simp only [Option.ite_none_right_eq_some, Option.bind_eq_bind,
            Option.bind_eq_some_iff] at read ⊢
          obtain ⟨separates, middle, first, others⟩ := read
          rw [if_pos separates]
          exact (ih.1 _ _ first (endsName_of_siblings others)).bind (ih.2 _ _ _ others)
        next => cases read

theorem mixedTail (narrows : narrow.Narrows wide) {fuel : Nat} {isPlain : Bool}
    {rest after : List Char}
    (read : Schematron.Xml.mixedTail narrow fuel isPlain rest = some after) :
    Echoes (wide.Admits narrow) after (Schematron.Xml.mixedTail wide fuel isPlain rest) := by
  induction fuel generalizing isPlain rest with
  | zero => cases read
  | succ fuel ih =>
      simp only [Schematron.Xml.mixedTail] at read ⊢
      split at read
      next => exact .of_eq read
      next =>
        simp only [Option.bind_eq_bind, Option.bind_eq_some_iff] at read ⊢
        obtain ⟨⟨name, middle⟩, named, others⟩ := read
        exact (narrows.name named (endsName_of_mixedTail others)).bind (ih others)
      next => cases read

theorem contentModel (narrows : narrow.Narrows wide) {rest after : List Char}
    (read : Schematron.Xml.contentModel narrow rest = some after) (ends : EndsName after) :
    Echoes (wide.Admits narrow) after (Schematron.Xml.contentModel wide rest) := by
  simp only [Schematron.Xml.contentModel] at read ⊢
  split at read
  next => exact .of_eq read
  next =>
    split at read
    next => exact .of_eq read
    next =>
      split at read
      next =>
        split at read
        next => exact narrows.mixedTail read
        next => exact (narrows.particle_siblings _).1 _ _ read ends
      next => cases read

/-! Attributes -/

theorem enumeration {lenient : Prop} {item wider : List Char → Option (String × List Char)}
    (items : ∀ rest name after, item rest = some (name, after) → EndsName after →
      after.head? ≠ some ':' → Echoes lenient (name, after) (wider rest))
    {fuel : Nat} {rest after : List Char}
    (read : Schematron.Xml.enumeration item fuel rest = some after) :
    Echoes lenient after (Schematron.Xml.enumeration wider fuel rest) := by
  induction fuel generalizing rest with
  | zero => cases read
  | succ fuel ih =>
      simp only [Schematron.Xml.enumeration, Option.bind_eq_bind, Option.bind_eq_some_iff]
        at read ⊢
      obtain ⟨⟨name, middle⟩, readItem, read⟩ := read
      simp only at read
      split at read
      next tail ends =>
        refine (items _ _ _ readItem (endsName_of_skipBlanks ends rfl)
          (head?_ne_of_skipBlanks ends (by decide))).bind ?_
        simp only [ends]
        exact .of_eq read
      next tail ends =>
        refine (items _ _ _ readItem (endsName_of_skipBlanks ends rfl)
          (head?_ne_of_skipBlanks ends (by decide))).bind ?_
        simp only [ends]
        exact ih read
      next => cases read

theorem attributeType (narrows : narrow.Narrows wide) {rest : List Char}
    {next : (Bool × Bool) × List Char}
    (read : Schematron.Xml.attributeType narrow rest = some next) :
    Echoes (wide.Admits narrow) next (Schematron.Xml.attributeType wide rest) := by
  simp only [Schematron.Xml.attributeType] at read ⊢
  split at read
  next =>
    simp only [Option.bind_eq_bind, Option.bind_eq_some_iff] at read ⊢
    obtain ⟨middle, items, read⟩ := read
    have listed := enumeration (fun _ _ _ item ends _ => narrows.token item ends) items
    exact listed.bind (.of_eq read)
  next =>
    split at read
    next =>
      simp only [Option.bind_eq_bind, Option.bind_eq_some_iff] at read ⊢
      obtain ⟨spaced, blank, opened, bracket, middle, items, read⟩ := read
      refine (Reads.of_eq blank).bind ((Reads.of_eq bracket).bind ?_)
      have listed := enumeration (fun _ _ _ => narrows.notationName) items
      exact listed.bind (.of_eq read)
    next => exact .of_eq read

theorem attributeDefault (narrows : narrow.Narrows wide) {doctype : Doctype} {isTokenized : Bool}
    {rest : List Char} {next : Option String × List Char}
    (read : Schematron.Xml.attributeDefault narrow doctype isTokenized rest = some next) :
    Echoes (wide.Admits narrow) next
      (Schematron.Xml.attributeDefault wide doctype isTokenized rest) := by
  simp only [Schematron.Xml.attributeDefault] at read ⊢
  split at read
  next => exact .of_eq read
  next =>
    split at read
    next => exact .of_eq read
    next =>
      have valued (rest : List Char) (read : ((quoted rest).bind fun literal =>
          (Schematron.Xml.attributeValue narrow doctype isTokenized literal.1).bind fun value =>
            some (some value, literal.2)) = some next) :
          Echoes (wide.Admits narrow) next ((quoted rest).bind fun literal =>
            (Schematron.Xml.attributeValue wide doctype isTokenized literal.1).bind fun value =>
              some (some value, literal.2)) := by
        simp only [Option.bind_eq_some_iff] at read
        obtain ⟨literal, given, content, readContent, read⟩ := read
        exact (Reads.of_eq given).bind ((narrows.attributeValue readContent).bind (.of_eq read))
      simp only [Option.bind_eq_bind] at read ⊢
      split at read
      next fixed _ =>
        rw [Option.bind_eq_some_iff] at read
        obtain ⟨spaced, blank, read⟩ := read
        exact (Reads.of_eq blank).bind (valued spaced read)
      next => exact valued rest read

theorem attributeList (narrows : narrow.Narrows wide) {element : String} {fuel : Nat}
    {doctype : Doctype} {rest : List Char} {next : Doctype × List Char}
    (read : Schematron.Xml.attributeList narrow element fuel doctype rest = some next) :
    Echoes (wide.Admits narrow) next
      (Schematron.Xml.attributeList wide element fuel doctype rest) := by
  induction fuel generalizing doctype rest with
  | zero => cases read
  | succ fuel ih =>
      simp only [Schematron.Xml.attributeList] at read ⊢
      split at read
      next => exact .of_eq read
      next =>
        simp only [Option.bind_eq_bind, Option.bind_eq_some_iff] at read ⊢
        obtain ⟨named, nameBlank, ⟨name, typed⟩, readName, spaced, typeBlank, kind, readType,
          defaulted, defaultBlank, value, readDefault, read⟩ := read
        refine (Reads.of_eq nameBlank).bind ?_
        refine (narrows.name readName (endsName_of_requireBlank typeBlank)).bind ?_
        refine (Reads.of_eq typeBlank).bind ((narrows.attributeType readType).bind ?_)
        refine (Reads.of_eq defaultBlank).bind ((narrows.attributeDefault readDefault).bind ?_)
        exact ih read

/-! Document types -/

theorem instructionContent (narrows : narrow.Narrows wide) {rest : List Char}
    {next : (String × String) × List Char} (read : narrow.instructionContent rest = some next) :
    Echoes (wide.Admits narrow) next (wide.instructionContent rest) := by
  simp only [Dialect.instructionContent, Option.bind_eq_bind, Option.bind_eq_some_iff] at read ⊢
  obtain ⟨⟨target, middle⟩, named, read⟩ := read
  have ends : EndsName middle := by
    simp only [Option.ite_none_left_eq_some] at read
    have read := read.2
    split at read
    next ended => exact endsName_of_expect ended rfl rfl
    next =>
      rw [Option.bind_eq_some_iff] at read
      obtain ⟨spaced, blank, -⟩ := read
      exact endsName_of_requireBlank blank
  exact (narrows.plainName named ends).bind (.of_eq read)

end Dialect.Narrows

def Doctype.Bare (doctype : Doctype) : Prop := doctype.entities = [] ∧ doctype.parameters = []

/-- Two readings of declarations after `doctype`: the first one declares no entity, and unless it
passes over declarations, the second one is the same or refused. -/
def ReadAlike (lenient : Prop) (doctype : Doctype) (read again : Option (Doctype × List Char)) :
    Prop :=
  ∀ next, read = some next → next.1.Bare ∧
    (next.1.ignoring = false → doctype.ignoring = false ∧ Echoes lenient next again)

namespace ReadAlike

variable {lenient : Prop} {doctype : Doctype} {read again : Option (Doctype × List Char)}

theorem of_unchanged (bare : doctype.Bare)
    (unchanged : ∀ next, read = some next → next.1 = doctype)
    (same : ∀ next, read = some next → Echoes lenient next again) :
    ReadAlike lenient doctype read again := by
  intro next readNext
  rw [unchanged next readNext]
  exact ⟨bare, fun heeded => ⟨heeded, same next readNext⟩⟩

theorem bind {goOn goOnAgain : Doctype × List Char → Option (Doctype × List Char)}
    (first : ReadAlike lenient doctype read again)
    (others : ∀ next, next.1.Bare → ReadAlike lenient next.1 (goOn next) (goOnAgain next)) :
    ReadAlike lenient doctype (read.bind goOn) (again.bind goOnAgain) := by
  intro last readBoth
  obtain ⟨next, readFirst, readOthers⟩ := Option.bind_eq_some_iff.mp readBoth
  obtain ⟨bare, firstAlike⟩ := first next readFirst
  obtain ⟨bareLast, othersAlike⟩ := others next bare last readOthers
  refine ⟨bareLast, fun heeded => ?_⟩
  obtain ⟨heedsNext, sameOthers⟩ := othersAlike heeded
  obtain ⟨heedsDoctype, sameFirst⟩ := firstAlike heedsNext
  exact ⟨heedsDoctype, sameFirst.bind sameOthers⟩

end ReadAlike

theorem attributeList_leaves {dialect : Dialect} {element : String} {fuel : Nat}
    {doctype : Doctype} {rest : List Char} {next : Doctype × List Char}
    (read : attributeList dialect element fuel doctype rest = some next) :
    next.1.entities = doctype.entities ∧ next.1.parameters = doctype.parameters ∧
      next.1.ignoring = doctype.ignoring := by
  induction fuel generalizing doctype rest with
  | zero => cases read
  | succ fuel ih =>
      simp only [attributeList] at read
      split at read
      next =>
        cases read
        exact ⟨rfl, rfl, rfl⟩
      next =>
        simp only [Option.bind_eq_bind, Option.bind_eq_some_iff] at read
        obtain ⟨_, -, _, -, _, -, _, -, _, -, _, -, read⟩ := read
        obtain ⟨entities, parameters, ignoring⟩ := ih read
        rw [entities, parameters, ignoring]
        split
        · exact ⟨rfl, rfl, rfl⟩
        · simp only [Doctype.addRule]
          split <;> exact ⟨rfl, rfl, rfl⟩

namespace Dialect.Narrows

variable {narrow wide : Dialect} {doctype : Doctype}

theorem parameterReference (narrows : narrow.Narrows wide) {isStandalone : Bool}
    (bare : doctype.Bare) (rest : List Char) :
    ReadAlike (wide.Admits narrow) doctype
      (Schematron.Xml.parameterReference narrow isStandalone doctype rest)
      (Schematron.Xml.parameterReference wide isStandalone doctype rest) := by
  intro next read
  simp only [Schematron.Xml.parameterReference, narrows.parameters, Bool.false_eq_true, if_false,
    Option.bind_eq_bind, Option.bind_eq_some_iff, Option.some.injEq] at read ⊢
  obtain ⟨⟨name, middle⟩, named, after, ended, rfl⟩ := read
  refine ⟨bare, fun heeded => ?_⟩
  obtain ⟨heeds, standalone⟩ := Bool.or_eq_false_iff.mp heeded
  have isStandalone : isStandalone = true := by simpa using standalone
  subst isStandalone
  refine ⟨heeds, (narrows.plainName named (endsName_of_expect ended rfl rfl)).bind ?_⟩
  refine (Reads.of_eq ended).bind ?_
  simp only [bare.2, List.lookup_nil, if_true]
  -- A reader that goes on with parameters knows of none, so that it refuses the reference.
  split
  next past =>
    refine ⟨fun _ same => (nomatch same), fun admits => ?_⟩
    cases admits.parameters.symm.trans past
  next => exact .of_some rfl

theorem entityText (narrows : narrow.Narrows wide) {fuel : Nat} {chars text : List Char}
    (read : Schematron.Xml.entityText narrow fuel chars = some text) :
    Echoes (wide.Admits narrow) text (Schematron.Xml.entityText wide fuel chars) := by
  fun_induction Schematron.Xml.entityText narrow fuel chars generalizing text with
  | case1 => cases read
  | case2 =>
      simp only [Schematron.Xml.entityText]
      exact .of_eq read
  | case3 => cases read
  | case4 fuel rest ih =>
      simp only [Schematron.Xml.entityText, Option.bind_eq_bind, Option.bind_eq_some_iff] at read ⊢
      obtain ⟨⟨reference, after⟩, readReference, tail, readTail, read⟩ := read
      exact (narrows.reference readReference).bind ((ih _ readTail).bind (.of_eq read))
  | case5 fuel char rest plain tags ih =>
      simp only [Schematron.Xml.entityText, Option.bind_eq_bind, Option.bind_eq_some_iff] at read ⊢
      obtain ⟨tail, readTail, read⟩ := read
      exact (ih readTail).bind (.of_eq read)

theorem passNotation (narrows : narrow.Narrows wide) {isParameter : Bool} {rest after : List Char}
    (read : Schematron.Xml.passNotation narrow isParameter rest = some after)
    (ends : EndsName after) (plain : after.head? ≠ some ':') :
    Echoes (wide.Admits narrow) after (Schematron.Xml.passNotation wide isParameter rest) := by
  simp only [Schematron.Xml.passNotation] at read ⊢
  split
  next isParameter =>
    rw [if_pos isParameter] at read
    exact .of_eq read
  next general =>
    rw [if_neg general] at read
    split at read
    next =>
      split at read
      next =>
        simp only [Option.bind_eq_some_iff, Option.map_eq_some_iff] at read
        obtain ⟨named, blank, ⟨name, _⟩, readName, rfl⟩ := read
        refine (Reads.of_eq blank).bind ?_
        rw [Option.map_eq_bind]
        exact (narrows.notationName readName ends plain).bind (.of_some rfl)
      next => exact .of_eq read
    next => exact .of_eq read

theorem entityDefinition (narrows : narrow.Narrows wide) {isParameter : Bool} {rest : List Char}
    {next : Entity × List Char}
    (read : Schematron.Xml.entityDefinition narrow isParameter rest = some next) :
    Echoes (wide.Admits narrow) next (Schematron.Xml.entityDefinition wide isParameter rest) := by
  simp only [Schematron.Xml.entityDefinition, Option.bind_eq_bind] at read ⊢
  split
  next external =>
    simp only [if_pos external, Option.bind_eq_some_iff] at read
    obtain ⟨after, identified, last, passed, ended, closed, read⟩ := read
    refine (Reads.of_eq identified).bind ?_
    have plain : last.head? ≠ some ':' :=
      head?_ne_of_skipBlanks (expect_eq_some closed) (by decide)
    refine (narrows.passNotation passed (endsName_of_expect_skipBlanks closed rfl rfl) plain).bind ?_
    exact (Reads.of_eq closed).bind (.of_eq read)
  next internal =>
    simp only [if_neg internal, Option.bind_eq_some_iff] at read
    obtain ⟨literal, given, text, readText, ended, closed, read⟩ := read
    refine (Reads.of_eq given).bind ?_
    exact (narrows.entityText readText).bind ((Reads.of_eq closed).bind (.of_eq read))

theorem entityDeclaration (narrows : narrow.Narrows wide) (bare : doctype.Bare)
    (rest : List Char) :
    ReadAlike (wide.Admits narrow) doctype (Schematron.Xml.entityDeclaration narrow doctype rest)
      (Schematron.Xml.entityDeclaration wide doctype rest) := by
  intro next read
  simp only [Schematron.Xml.entityDeclaration, narrows.entities, Option.bind_eq_bind,
    Option.bind_eq_some_iff] at read ⊢
  obtain ⟨spaced, nameBlank, read⟩ := read
  split at read
  next parameter =>
    simp only [Option.bind_eq_some_iff, Option.map_eq_some_iff] at read
    obtain ⟨_, ⟨_, -, rfl⟩, _, -, _, -, _, -, read⟩ := read
    split at read
    next passes =>
      cases read
      have ignoring : doctype.ignoring = true := by simpa using passes
      exact ⟨bare, fun heeded => Bool.noConfusion (heeded.symm.trans ignoring)⟩
    next => simp at read
  next general =>
    simp only [Option.bind_some, Option.bind_eq_some_iff] at read
    obtain ⟨⟨name, middle⟩, readName, defined, definitionBlank, definition, readDefinition,
      read⟩ := read
    split at read
    next stays =>
      cases read
      refine ⟨bare, fun heeded => ⟨heeded, (Reads.of_eq nameBlank).bind ?_⟩⟩
      split
      next parameter => exact absurd rfl (general _)
      next =>
        refine (narrows.plainName readName (endsName_of_requireBlank definitionBlank)).bind ?_
        refine (Reads.of_eq definitionBlank).bind ?_
        refine (narrows.entityDefinition readDefinition).bind ?_
        simp only [stays, if_true]
        exact .of_some rfl
    next => simp at read

theorem elementDeclaration (narrows : narrow.Narrows wide) (bare : doctype.Bare)
    (rest : List Char) :
    ReadAlike (wide.Admits narrow) doctype (Schematron.Xml.elementDeclaration narrow doctype rest)
      (Schematron.Xml.elementDeclaration wide doctype rest) := by
  simp only [Schematron.Xml.elementDeclaration, Option.bind_eq_bind]
  refine .of_unchanged bare (fun next read => ?_) fun next read => ?_
  all_goals
    simp only [Option.bind_eq_some_iff] at read
    obtain ⟨named, nameBlank, ⟨name, middle⟩, readName, spaced, modelBlank, model, readModel, ended,
      closed, read⟩ := read
  · cases read
    rfl
  · refine (Reads.of_eq nameBlank).bind ?_
    refine (narrows.name readName (endsName_of_requireBlank modelBlank)).bind ?_
    refine (Reads.of_eq modelBlank).bind ?_
    refine (narrows.contentModel readModel (endsName_of_expect_skipBlanks closed rfl rfl)).bind ?_
    exact (Reads.of_eq closed).bind (.of_eq read)

theorem attributeDeclaration (narrows : narrow.Narrows wide) (bare : doctype.Bare)
    (rest : List Char) :
    ReadAlike (wide.Admits narrow) doctype
      (Schematron.Xml.attributeDeclaration narrow doctype rest)
      (Schematron.Xml.attributeDeclaration wide doctype rest) := by
  intro next read
  simp only [Schematron.Xml.attributeDeclaration, Option.bind_eq_bind, Option.bind_eq_some_iff]
    at read ⊢
  obtain ⟨named, blank, ⟨name, middle⟩, readName, read⟩ := read
  obtain ⟨entities, parameters, ignoring⟩ := attributeList_leaves read
  refine ⟨⟨entities.trans bare.1, parameters.trans bare.2⟩, fun heeded => ?_⟩
  refine ⟨ignoring.symm.trans heeded, (Reads.of_eq blank).bind ?_⟩
  exact (narrows.name readName (endsName_of_attributeList read)).bind (narrows.attributeList read)

theorem notationDeclaration (narrows : narrow.Narrows wide) (bare : doctype.Bare)
    (rest : List Char) :
    ReadAlike (wide.Admits narrow) doctype
      (Schematron.Xml.notationDeclaration narrow doctype rest)
      (Schematron.Xml.notationDeclaration wide doctype rest) := by
  simp only [Schematron.Xml.notationDeclaration, Option.bind_eq_bind]
  refine .of_unchanged bare (fun next read => ?_) fun next read => ?_
  all_goals
    simp only [Option.bind_eq_some_iff] at read
    obtain ⟨named, nameBlank, ⟨name, middle⟩, readName, spaced, identified⟩ := read
  · obtain ⟨-, _, -, _, -, read⟩ := identified
    cases read
    rfl
  · refine (Reads.of_eq nameBlank).bind ?_
    refine (narrows.plainName readName (endsName_of_requireBlank identified.1)).bind ?_
    refine .of_eq ?_
    simpa only [Option.bind_eq_some_iff] using ⟨spaced, identified⟩

theorem internalSubset (narrows : narrow.Narrows wide) {isStandalone : Bool} {fuel : Nat}
    (bare : doctype.Bare) (rest : List Char) :
    ReadAlike (wide.Admits narrow) doctype
      (Schematron.Xml.internalSubset narrow isStandalone fuel doctype rest)
      (Schematron.Xml.internalSubset wide isStandalone fuel doctype rest) := by
  induction fuel generalizing doctype rest with
  | zero => exact fun _ read => nomatch read
  | succ fuel ih =>
      have goOn (next : Doctype × List Char) (bare : next.1.Bare) := ih bare next.2
      simp only [Schematron.Xml.internalSubset]
      split
      next => exact .of_unchanged bare (fun _ read => by cases read; rfl) fun _ => .of_eq
      next => exact (narrows.parameterReference bare _).bind goOn
      next =>
        refine ReadAlike.bind (.of_unchanged bare (fun next read => ?_) fun next read => ?_) goOn
        all_goals
          obtain ⟨content, readContent, rfl⟩ := Option.map_eq_some_iff.mp read
        · rfl
        · rw [Option.map_eq_bind]
          exact (narrows.instructionContent readContent).bind (.of_some rfl)
      next =>
        refine ReadAlike.bind (.of_unchanged bare (fun next read => ?_) fun _ => .of_eq) goOn
        obtain ⟨_, -, rfl⟩ := Option.map_eq_some_iff.mp read
        rfl
      next =>
        split
        next => exact (narrows.elementDeclaration bare _).bind goOn
        next =>
          split
          next => exact (narrows.attributeDeclaration bare _).bind goOn
          next =>
            split
            next => exact (narrows.entityDeclaration bare _).bind goOn
            next =>
              split
              next => exact (narrows.notationDeclaration bare _).bind goOn
              next => exact fun _ read => nomatch read
      next => exact fun _ read => nomatch read

theorem doctypeEnd (narrows : narrow.Narrows wide) {isStandalone : Bool} (bare : doctype.Bare)
    (rest : List Char) :
    ReadAlike (wide.Admits narrow) doctype
      (Schematron.Xml.doctypeEnd narrow isStandalone doctype rest)
      (Schematron.Xml.doctypeEnd wide isStandalone doctype rest) := by
  simp only [Schematron.Xml.doctypeEnd]
  split
  next inner =>
    refine (narrows.internalSubset bare inner).bind fun next bare => ?_
    refine .of_unchanged bare (fun last read => ?_) fun _ => .of_eq
    simp only [Option.bind_eq_bind, Option.bind_eq_some_iff] at read
    obtain ⟨_, -, read⟩ := read
    cases read
    rfl
  next =>
    refine .of_unchanged bare (fun next read => ?_) fun _ => .of_eq
    obtain ⟨_, -, rfl⟩ := Option.map_eq_some_iff.mp read
    rfl

/-- A keyword goes on with a name, unless a blank parts them. -/
theorem endsName_of_startsExternal (narrows : narrow.Narrows wide) {rest after : List Char}
    {name : String} (read : narrow.name rest = some (name, after))
    (external : startsExternal (skipBlanks after) = true) : EndsName after := by
  intro char found
  have stopped := head_of_name read found
  cases after with
  | nil => cases found
  | cons first more =>
      cases found
      by_cases blank : isBlank char = true
      · exact isDelimiter_of_isBlank blank
      · rw [skipBlanks, List.dropWhile_cons_of_neg blank] at external
        rcases head_of_startsExternal external with rfl | rfl
        · rw [narrows.keyword.1] at stopped
          cases stopped
        · rw [narrows.keyword.2] at stopped
          cases stopped

theorem doctypeDeclaration (narrows : narrow.Narrows wide) {isStandalone : Bool}
    (rest : List Char) :
    ReadAlike (wide.Admits narrow) Doctype.empty
      (Schematron.Xml.doctypeDeclaration narrow isStandalone rest)
      (Schematron.Xml.doctypeDeclaration wide isStandalone rest) := by
  intro next read
  simp only [Schematron.Xml.doctypeDeclaration, Option.bind_eq_bind, Option.bind_eq_some_iff]
    at read ⊢
  obtain ⟨named, blank, ⟨name, middle⟩, readName, read⟩ := read
  split at read
  next external =>
    rw [Option.bind_eq_some_iff] at read
    obtain ⟨later, readId, read⟩ := read
    obtain ⟨bare, alike⟩ := narrows.doctypeEnd ⟨rfl, rfl⟩ _ next read
    refine ⟨bare, fun heeded => ⟨rfl, (Reads.of_eq blank).bind ?_⟩⟩
    have ends := narrows.endsName_of_startsExternal readName external
    refine (narrows.name readName ends).bind ?_
    rw [if_pos external]
    exact (Reads.of_eq readId).bind (alike heeded).2
  next plain =>
    obtain ⟨bare, alike⟩ := narrows.doctypeEnd ⟨rfl, rfl⟩ _ next read
    refine ⟨bare, fun heeded => ⟨rfl, (Reads.of_eq blank).bind ?_⟩⟩
    refine (narrows.name readName (endsName_of_doctypeEnd read)).bind ?_
    rw [if_neg plain]
    exact (alike heeded).2

end Dialect.Narrows

end Schematron.Xml

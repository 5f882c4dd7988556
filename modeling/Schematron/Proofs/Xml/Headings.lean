import Schematron.Proofs.Xml.Names

/-!
Headings: XML declarations as they are spelled. Main statements: every text of which a declaration
with an encoding is read begins with a heading, and what document a text with a heading is depends
neither on the encoding that it names nor on whether it names one.
-/

namespace Schematron.Xml

theorem isBlank_iff {char : Char} :
    isBlank char = true ↔ char = ' ' ∨ char = '\t' ∨ char = '\n' ∨ char = '\r' := by
  simp [isBlank, or_assoc]

theorem isChar_of_isBlank {char : Char} (blank : isBlank char = true) : isChar char = true := by
  rcases isBlank_iff.mp blank with rfl | rfl | rfl | rfl <;> rfl

/-! Line ends -/

@[simp] theorem normalizeLines_nil : normalizeLines [] = [] := rfl

@[simp] theorem normalizeLines_cons {char : Char} (solid : char ≠ '\r') (rest : List Char) :
    normalizeLines (char :: rest) = char :: normalizeLines rest := by
  rw [normalizeLines] <;> simp [solid]

theorem normalizeLines_return {rest : List Char} (apart : rest.head? ≠ some '\n') :
    normalizeLines ('\r' :: rest) = '\n' :: normalizeLines rest := by
  rw [normalizeLines]
  rintro tail rfl
  exact apart rfl

/-- Lines may be normalized one part after the other, unless a line end is cut in two. -/
theorem normalizeLines_append {rest : List Char} (apart : rest.head? ≠ some '\n')
    (chars : List Char) :
    normalizeLines (chars ++ rest) = normalizeLines chars ++ normalizeLines rest := by
  induction chars using normalizeLines.induct with
  | case1 others ih => simp [normalizeLines, ih]
  | case2 others alone ih =>
      have left : others.head? ≠ some '\n' := by
        intro first
        obtain ⟨tail, rfl⟩ := List.head?_eq_some_iff.mp first
        exact alone tail rfl
      have joined : (others ++ rest).head? ≠ some '\n' := by
        cases others with
        | nil => exact apart
        | cons first others => exact left
      rw [List.cons_append, normalizeLines_return joined, normalizeLines_return left, ih]
      rfl
  | case3 char others _ solid ih =>
      rw [List.cons_append, normalizeLines_cons solid, normalizeLines_cons solid, ih]
      rfl
  | case4 => rfl

theorem normalizeLines_plain {chars : List Char} (plain : '\r' ∉ chars) (rest : List Char) :
    normalizeLines (chars ++ rest) = chars ++ normalizeLines rest := by
  induction chars with
  | nil => rfl
  | cons char chars ih =>
      rw [List.mem_cons, not_or] at plain
      rw [List.cons_append, normalizeLines_cons (Ne.symm plain.1), ih plain.2]
      rfl

theorem mem_normalizeLines {chars : List Char} {char : Char}
    (member : char ∈ normalizeLines chars) : char ∈ chars ∨ char = '\n' := by
  induction chars using normalizeLines.induct with
  | case1 others ih => grind [normalizeLines]
  | case2 others alone ih => grind [normalizeLines]
  | case3 other others _ solid ih => grind [normalizeLines_cons]
  | case4 => cases member

theorem normalizeLines_ne_nil {chars : List Char} (some : chars ≠ []) :
    normalizeLines chars ≠ [] := by
  cases chars using normalizeLines.induct with
  | case1 | case2 | case3 => simp [normalizeLines, *]
  | case4 => exact absurd rfl some

/-! Pseudo-attributes -/

structure Blanks where
  chars : List Char
  blank : ∀ char ∈ chars, isBlank char = true

structure Layout where
  gap : Blanks
  before : Blanks
  after : Blanks
  quote : Char
  apart : gap.chars ≠ []
  marks : quote = '"' ∨ quote = '\''

def Layout.spell (layout : Layout) (name : String) (value : List Char) : List Char :=
  layout.gap.chars ++ (name.toList ++ (layout.before.chars ++ ("=".toList ++
    (layout.after.chars ++ layout.quote :: (value ++ [layout.quote])))))

def Solid (chars : List Char) : Prop := chars ≠ [] ∧ ∀ char ∈ chars, isBlank char = false

def Begins (rest : List Char) : Prop := ∀ char, rest.head? = some char → isBlank char = false

theorem Begins.cons {char : Char} (solid : isBlank char = false) (rest : List Char) :
    Begins (char :: rest) := by
  rintro first ⟨⟩
  exact solid

theorem Solid.begins {chars : List Char} (solid : Solid chars) (rest : List Char) :
    Begins (chars ++ rest) := by
  obtain ⟨some, plain⟩ := solid
  cases chars with
  | nil => exact absurd rfl some
  | cons char chars => exact .cons (plain char List.mem_cons_self) _

theorem Begins.apart {rest : List Char} (begins : Begins rest) : rest.head? ≠ some '\n' :=
  fun same => absurd (begins _ same) (by decide)

theorem Layout.isBlank_quote (layout : Layout) : isBlank layout.quote = false := by
  rcases layout.marks with same | same <;> rw [same] <;> rfl

/-! Reading what is spelled -/

theorem skipBlanks_append (blanks : Blanks) {rest : List Char} (begins : Begins rest) :
    skipBlanks (blanks.chars ++ rest) = rest := by
  rw [skipBlanks, List.dropWhile_append_of_pos blanks.blank]
  cases rest with
  | nil => rfl
  | cons char rest => rw [List.dropWhile_cons_of_neg (by simp [begins char rfl])]

theorem requireBlank_append {blanks : Blanks} (apart : blanks.chars ≠ []) {rest : List Char}
    (begins : Begins rest) : requireBlank (blanks.chars ++ rest) = some rest := by
  obtain ⟨chars, blank⟩ := blanks
  cases chars with
  | nil => exact absurd rfl apart
  | cons char chars =>
      obtain ⟨first, others⟩ := List.forall_mem_cons.mp blank
      simpa [requireBlank, first] using skipBlanks_append ⟨chars, others⟩ begins

theorem expect_append (wanted : String) (rest : List Char) :
    expect wanted (wanted.toList ++ rest) = some rest := by
  simp [expect]

theorem quoted_append {quote : Char} (marks : quote = '"' ∨ quote = '\'') {value : List Char}
    (inside : quote ∉ value) (rest : List Char) :
    quoted (quote :: (value ++ quote :: rest)) = some (value, rest) := by
  have taken : (value ++ quote :: rest).takeWhile (· != quote) = value := by
    rw [List.takeWhile_append_of_pos fun char member => by grind]
    simp
  have mark : (quote == '"' || quote == '\'') = true := by simpa using marks
  simp only [quoted, mark, if_true, taken, List.drop_left]

theorem Layout.spell_append (layout : Layout) (name : String) (value rest : List Char) :
    layout.spell name value ++ rest =
      layout.gap.chars ++ (name.toList ++ (layout.before.chars ++ ("=".toList ++
        (layout.after.chars ++ layout.quote :: (value ++ layout.quote :: rest))))) := by
  simp [Layout.spell]

theorem solid_equals : Solid "=".toList := by simp [Solid, isBlank]

theorem pseudoAttribute_spell (layout : Layout) {name : String} (solid : Solid name.toList)
    {value : List Char} (inside : layout.quote ∉ value) (rest : List Char) :
    pseudoAttribute name (layout.spell name value ++ rest) = some (value, rest) := by
  rw [pseudoAttribute, Layout.spell_append, requireBlank_append layout.apart (solid.begins _)]
  simp only [Option.bind_eq_bind, Option.bind_some, expect_append]
  rw [skipBlanks_append layout.before (solid_equals.begins _), expect_append, Option.bind_some,
    skipBlanks_append layout.after (.cons layout.isBlank_quote _),
    quoted_append layout.marks inside]

/-- Where something else stands behind the blanks, there is no such pseudo-attribute. -/
theorem pseudoAttribute_eq_none {name : String} {blanks : Blanks} {rest : List Char}
    (begins : Begins rest) (filled : rest ≠ []) (other : ¬name.toList <+: rest) :
    pseudoAttribute name (blanks.chars ++ rest) = none := by
  have refused : expect name rest = none := by
    rw [expect, if_neg]
    rwa [List.isPrefixOf_iff_prefix]
  rw [pseudoAttribute]
  by_cases apart : blanks.chars = []
  · cases rest with
    | nil => exact absurd rfl filled
    | cons char rest =>
        rw [apart]
        simp [requireBlank, begins char rfl]
  · rw [requireBlank_append apart begins]
    simp [refused]

/-! Spelling what is read -/

theorem exists_blanks (rest : List Char) :
    ∃ blanks : Blanks, rest = blanks.chars ++ skipBlanks rest :=
  ⟨⟨rest.takeWhile isBlank, List.all_eq_true.mp List.all_takeWhile⟩, by simp [skipBlanks]⟩

theorem exists_gap {rest after : List Char} (read : requireBlank rest = some after) :
    ∃ blanks : Blanks, blanks.chars ≠ [] ∧ rest = blanks.chars ++ after := by
  cases rest with
  | nil => cases read
  | cons char rest =>
      simp only [requireBlank, Option.ite_none_right_eq_some, Option.some.injEq] at read
      obtain ⟨blank, rfl⟩ := read
      obtain ⟨blanks, same⟩ := exists_blanks rest
      refine ⟨⟨char :: blanks.chars, List.forall_mem_cons.mpr ⟨blank, blanks.blank⟩⟩, by simp, ?_⟩
      rw [List.cons_append, ← same]

theorem exists_quote {rest value after : List Char} (read : quoted rest = some (value, after)) :
    ∃ quote, (quote = '"' ∨ quote = '\'') ∧ quote ∉ value ∧
      rest = quote :: (value ++ quote :: after) := by
  cases rest with
  | nil => cases read
  | cons quote rest =>
      simp only [quoted, Option.ite_none_right_eq_some] at read
      obtain ⟨marks, read⟩ := read
      split at read
      next mark tail ended =>
        cases read
        have cut := List.prefix_iff_eq_append.mp (List.takeWhile_prefix (· != quote) (l := rest))
        have closed := stops_takeWhile (congrArg List.head? ended)
        obtain rfl : mark = quote := by simpa using closed
        refine ⟨mark, by simpa using marks, fun member => ?_, ?_⟩
        · simpa using List.all_eq_true.mp List.all_takeWhile mark member
        · rw [← ended, cut]
      next => cases read

theorem exists_layout {name : String} {rest value after : List Char}
    (read : pseudoAttribute name rest = some (value, after)) :
    ∃ layout : Layout, layout.quote ∉ value ∧ rest = layout.spell name value ++ after := by
  simp only [pseudoAttribute, Option.bind_eq_bind, Option.bind_eq_some_iff] at read
  obtain ⟨middle, blank, later, expected, last, equals, read⟩ := read
  obtain ⟨gap, apart, rfl⟩ := exists_gap blank
  obtain rfl := expect_eq_some expected
  obtain ⟨before, split⟩ := exists_blanks later
  obtain ⟨behind, cut⟩ := exists_blanks last
  obtain ⟨quote, marks, inside, same⟩ := exists_quote read
  refine ⟨⟨gap, before, behind, quote, apart, marks⟩, inside, ?_⟩
  rw [Layout.spell_append, ← same, ← cut, ← expect_eq_some equals, ← split]

/-! Headings -/

structure Spelling where
  layout : Layout
  value : List Char
  inside : layout.quote ∉ value

structure EncodingName where
  chars : List Char
  valid : isEncodingName chars = true
  held : Dialect.validating.holdsEncoding chars = true

structure Encoding where
  layout : Layout
  name : EncodingName

structure Heading where
  marked : Bool
  version : Spelling
  standalone : Option Spelling
  ending : Blanks

theorem range_of_isEncodingName {chars : List Char} (valid : isEncodingName chars = true)
    {char : Char} (member : char ∈ chars) : 45 ≤ char.toNat ∧ char.toNat ≤ 122 := by
  have kinds : isAsciiLetter char = true ∨ isAsciiDigit char = true ∨ char ∈ "._-".toList := by
    cases chars with
    | nil => cases member
    | cons first rest =>
        simp only [isEncodingName, Bool.and_eq_true, List.all_eq_true, Bool.or_eq_true,
          List.contains_iff_mem, or_assoc] at valid
        rcases List.mem_cons.mp member with rfl | later
        · exact .inl valid.1
        · exact valid.2 char later
  rcases kinds with letter | digit | sign
  · simp [isAsciiLetter, Char.le_def, UInt32.le_iff_toNat_le] at letter
    omega
  · simp [isAsciiDigit, Char.le_def, UInt32.le_iff_toNat_le] at digit
    omega
  · simp only [String.reduceToList, List.mem_cons, List.not_mem_nil, or_false] at sign
    rcases sign with rfl | rfl | rfl <;> decide

theorem Encoding.inside (encoding : Encoding) : encoding.layout.quote ∉ encoding.name.chars := by
  intro member
  have range := range_of_isEncodingName encoding.name.valid member
  rcases encoding.layout.marks with same | same <;> rw [same] at range <;> revert range <;> decide

theorem EncodingName.plain (name : EncodingName) : '\r' ∉ name.chars := by
  intro member
  have range := range_of_isEncodingName name.valid member
  revert range
  decide

theorem EncodingName.isChar {name : EncodingName} {char : Char} (member : char ∈ name.chars) :
    isChar char = true := by
  obtain ⟨lower, upper⟩ := range_of_isEncodingName name.valid member
  simp only [Xml.isChar]
  grind

namespace Heading

def naming : Option Encoding → List Char
  | none => []
  | some encoding => encoding.layout.spell "encoding" encoding.name.chars

def standing : Option Spelling → List Char
  | none => []
  | some spelling => spelling.layout.spell "standalone" spelling.value

def closing (heading : Heading) : List Char :=
  standing heading.standalone ++ (heading.ending.chars ++ "?>".toList)

def declared (heading : Heading) (encoding : Option Encoding) : List Char :=
  heading.version.layout.spell "version" heading.version.value ++
    (naming encoding ++ heading.closing)

def text (heading : Heading) (encoding : Option Encoding) : List Char :=
  (if heading.marked then ['\ufeff'] else []) ++ ("<?xml".toList ++ heading.declared encoding)

theorem solid_encoding : Solid "encoding".toList := by simp [Solid, isBlank]

theorem solid_version : Solid "version".toList := by simp [Solid, isBlank]

theorem solid_standalone : Solid "standalone".toList := by simp [Solid, isBlank]

theorem solid_end : Solid "?>".toList := by simp [Solid, isBlank]

theorem pseudoAttribute_closing (heading : Heading) (rest : List Char) :
    pseudoAttribute "encoding" (heading.closing ++ rest) = none := by
  rw [closing, List.append_assoc, List.append_assoc]
  cases heading.standalone with
  | none => exact pseudoAttribute_eq_none (solid_end.begins rest) (by simp) (by simp)
  | some spelling =>
      simp only [standing, Layout.spell, List.append_assoc]
      exact pseudoAttribute_eq_none (solid_standalone.begins _) (by simp) (by simp)

def remaining (read : Declaration × List Char) : Bool × List Char := (read.1.isStandalone, read.2)

theorem declarationTail_naming {dialect : Dialect} {encoding : Encoding}
    (held : dialect.holdsEncoding encoding.name.chars = true) {rest : List Char}
    (without : pseudoAttribute "encoding" rest = none) :
    (declarationTail dialect (naming (some encoding) ++ rest)).map remaining =
      (declarationTail dialect rest).map remaining := by
  have read := pseudoAttribute_spell encoding.layout solid_encoding encoding.inside rest
  simp only [declarationTail, naming, read, without, encoding.name.valid, held,
    Bool.and_self, if_true, Option.bind_eq_bind, Option.bind_some]
  split <;> simp [Option.map_bind, Function.comp_def, remaining]

/-- A reader that has room for the encoding reads on behind it as if it were not there. -/
theorem leadingDeclaration_declared (heading : Heading) {dialect : Dialect}
    {encoding : Option Encoding}
    (held : ∀ named, encoding = some named → dialect.holdsEncoding named.name.chars = true)
    (rest : List Char) :
    (leadingDeclaration dialect ("<?xml".toList ++ (heading.declared encoding ++ rest))).map
        remaining =
      (leadingDeclaration dialect ("<?xml".toList ++ (heading.declared none ++ rest))).map
        remaining := by
  have behind (encoding : Option Encoding) :
      leadingDeclaration dialect ("<?xml".toList ++ (heading.declared encoding ++ rest)) =
        if dialect.isVersion heading.version.value then
          declarationTail dialect (naming encoding ++ (heading.closing ++ rest))
        else none := by
    obtain ⟨first, more, begins⟩ := List.exists_cons_of_ne_nil heading.version.layout.apart
    have blank := heading.version.layout.gap.blank first (by simp [begins])
    have version := pseudoAttribute_spell heading.version.layout solid_version
      heading.version.inside (naming encoding ++ (heading.closing ++ rest))
    rw [Layout.spell, begins] at version
    simp only [List.cons_append, List.append_assoc] at version
    rw [leadingDeclaration, expect_append, declared, Layout.spell, begins]
    simp only [List.cons_append, List.append_assoc, blank, if_true, declaration, version,
      Option.bind_eq_bind, Option.bind_some]
  rw [behind, behind]
  split
  next =>
    cases encoding with
    | none => rfl
    | some encoding =>
        exact declarationTail_naming (held _ rfl) (heading.pseudoAttribute_closing rest)
  next => rfl

theorem parseLines?_of_remaining {dialect : Dialect} {chars others : List Char}
    (same : (leadingDeclaration dialect chars).map remaining =
      (leadingDeclaration dialect others).map remaining) :
    parseLines? dialect chars = parseLines? dialect others := by
  simp only [parseLines?]
  cases first : leadingDeclaration dialect chars with
  | none =>
      rw [first, Option.map_none, eq_comm, Option.map_eq_none_iff] at same
      rw [same]
  | some read =>
      rw [first, Option.map_some, eq_comm, Option.map_eq_some_iff] at same
      obtain ⟨other, second, same⟩ := same
      simp only [remaining, Prod.mk.injEq] at same
      rw [second]
      simp only [Option.bind_eq_bind, Option.bind_some, same.1, same.2]

/-! The heading of a text whose line ends have been normalized -/

end Heading

def Blanks.normalized (blanks : Blanks) : Blanks where
  chars := normalizeLines blanks.chars
  blank char member := by
    rcases mem_normalizeLines member with member | rfl
    · exact blanks.blank char member
    · rfl

def Layout.normalized (layout : Layout) : Layout where
  gap := layout.gap.normalized
  before := layout.before.normalized
  after := layout.after.normalized
  quote := layout.quote
  apart := normalizeLines_ne_nil layout.apart
  marks := layout.marks

def Spelling.normalized (spelling : Spelling) : Spelling where
  layout := spelling.layout.normalized
  value := normalizeLines spelling.value
  inside member := by
    rcases mem_normalizeLines member with member | same
    · exact spelling.inside member
    · have solid := spelling.layout.isBlank_quote
      change spelling.layout.quote = _ at same
      rw [same] at solid
      cases solid

def Encoding.normalized (encoding : Encoding) : Encoding :=
  ⟨encoding.layout.normalized, encoding.name⟩

def Heading.normalized (heading : Heading) : Heading :=
  ⟨heading.marked, heading.version.normalized, heading.standalone.map Spelling.normalized,
    heading.ending.normalized⟩

theorem Solid.plain {chars : List Char} (solid : Solid chars) : '\r' ∉ chars :=
  fun member => absurd (solid.2 _ member) (by decide)

theorem normalizeLines_blanks (blanks : Blanks) {rest : List Char} (begins : Begins rest) :
    normalizeLines (blanks.chars ++ rest) = blanks.normalized.chars ++ normalizeLines rest :=
  normalizeLines_append begins.apart _

theorem normalizeLines_solid {chars : List Char} (solid : Solid chars) (rest : List Char) :
    normalizeLines (chars ++ rest) = chars ++ normalizeLines rest :=
  normalizeLines_plain solid.plain rest

theorem Layout.normalizeLines_spell (layout : Layout) {name : String} (solid : Solid name.toList)
    (value rest : List Char) :
    normalizeLines (layout.spell name value ++ rest) =
      layout.normalized.spell name (normalizeLines value) ++ normalizeLines rest := by
  have mark (rest : List Char) : Begins (layout.quote :: rest) := .cons layout.isBlank_quote rest
  have plain : layout.quote ≠ '\r' := by
    rcases layout.marks with same | same <;> rw [same] <;> decide
  rw [spell_append, spell_append, normalizeLines_blanks _ (solid.begins _),
    normalizeLines_solid solid, normalizeLines_blanks _ (solid_equals.begins _),
    normalizeLines_solid solid_equals, normalizeLines_blanks _ (mark _), normalizeLines_cons plain,
    normalizeLines_append (mark _).apart, normalizeLines_cons plain]
  rfl

namespace Heading

theorem normalizeLines_closing (heading : Heading) (rest : List Char) :
    normalizeLines (heading.closing ++ rest) =
      heading.normalized.closing ++ normalizeLines rest := by
  have ending : normalizeLines (heading.ending.chars ++ ("?>".toList ++ rest)) =
      heading.ending.normalized.chars ++ ("?>".toList ++ normalizeLines rest) := by
    rw [normalizeLines_blanks _ (solid_end.begins rest), normalizeLines_solid solid_end]
  simp only [closing, normalized, List.append_assoc]
  cases heading.standalone with
  | none => exact ending
  | some spelling =>
      rw [standing, Layout.normalizeLines_spell _ solid_standalone, ending]
      rfl

theorem normalizeLines_naming (encoding : Option Encoding) (rest : List Char) :
    normalizeLines (naming encoding ++ rest) =
      naming (encoding.map Encoding.normalized) ++ normalizeLines rest := by
  cases encoding with
  | none => rfl
  | some encoding =>
      have whole := normalizeLines_plain encoding.name.plain []
      rw [List.append_nil, normalizeLines_nil, List.append_nil] at whole
      rw [naming, Layout.normalizeLines_spell _ solid_encoding, whole]
      rfl

theorem normalizeLines_declared (heading : Heading) (encoding : Option Encoding)
    (rest : List Char) :
    normalizeLines ("<?xml".toList ++ (heading.declared encoding ++ rest)) =
      "<?xml".toList ++ (heading.normalized.declared (encoding.map Encoding.normalized) ++
        normalizeLines rest) := by
  have opening : Solid "<?xml".toList := by simp [Solid, isBlank]
  rw [normalizeLines_solid opening, declared, declared, List.append_assoc, List.append_assoc,
    List.append_assoc, List.append_assoc, Layout.normalizeLines_spell _ solid_version,
    normalizeLines_naming, normalizeLines_closing]
  rfl

theorem all_isChar_naming (encoding : Option Encoding) : (naming encoding).all isChar = true := by
  cases encoding with
  | none => rfl
  | some encoding =>
      obtain ⟨layout, name⟩ := encoding
      have blanks (blanks : Blanks) : blanks.chars.all isChar = true :=
        List.all_eq_true.mpr fun char member => isChar_of_isBlank (blanks.blank char member)
      have chars : name.chars.all isChar = true := List.all_eq_true.mpr fun _ => name.isChar
      have quote : isChar layout.quote = true := by
        rcases layout.marks with same | same <;> rw [same] <;> rfl
      have fixed : "encoding".toList.all isChar = true ∧ "=".toList.all isChar = true := by decide
      simp only [naming, Layout.spell, List.all_append, List.all_cons, List.all_nil, blanks, chars,
        quote, fixed, Bool.and_self]

theorem parse?_text (heading : Heading) (dialect : Dialect) (encoding : Option Encoding)
    (rest : List Char) :
    parse? dialect (heading.text encoding ++ rest) =
      if ("<?xml".toList ++ (heading.declared encoding ++ rest)).all isChar then
        parseLines? dialect
          (normalizeLines ("<?xml".toList ++ (heading.declared encoding ++ rest)))
      else none := by
  rw [text, List.append_assoc, List.append_assoc]
  cases heading.marked <;> rfl

/-- The document of a text with a heading, whatever encoding the heading names. -/
theorem parse?_encoding (heading : Heading) {dialect : Dialect} {encoding : Option Encoding}
    (held : ∀ named, encoding = some named → dialect.holdsEncoding named.name.chars = true)
    (rest : List Char) :
    parse? dialect (heading.text encoding ++ rest) =
      parse? dialect (heading.text none ++ rest) := by
  have chars : ("<?xml".toList ++ (heading.declared encoding ++ rest)).all isChar =
      ("<?xml".toList ++ (heading.declared none ++ rest)).all isChar := by
    simp only [declared, List.all_append, all_isChar_naming]
  have lines : parseLines? dialect
        (normalizeLines ("<?xml".toList ++ (heading.declared encoding ++ rest))) =
      parseLines? dialect (normalizeLines ("<?xml".toList ++ (heading.declared none ++ rest))) := by
    rw [normalizeLines_declared, normalizeLines_declared]
    refine parseLines?_of_remaining (leadingDeclaration_declared _ (fun named same => ?_) _)
    obtain ⟨encoding, rfl, rfl⟩ := Option.map_eq_some_iff.mp same
    exact held encoding rfl
  rw [parse?_text, parse?_text, chars, lines]

/-! Texts with a declaration -/

theorem exists_closing (version : Spelling) (standalone : Option Spelling) {last rest : List Char}
    (read : expect "?>" (skipBlanks last) = some rest) :
    ∃ heading : Heading, heading.marked = false ∧ heading.version = version ∧
      standing standalone ++ last = heading.closing ++ rest := by
  obtain ⟨ending, split⟩ := exists_blanks last
  refine ⟨⟨false, version, standalone, ending⟩, rfl, rfl, ?_⟩
  rw [closing, List.append_assoc, List.append_assoc, ← expect_eq_some read, ← split]

theorem exists_naming (version : Spelling) {chars rest : List Char} {declared : Declaration}
    {name : String} (read : declarationTail .validating chars = some (declared, rest))
    (encoded : declared.encoding = some name) :
    ∃ (heading : Heading) (encoding : Encoding), heading.marked = false ∧
      heading.version = version ∧ encoding.name.chars = name.toList ∧
      chars = naming (some encoding) ++ (heading.closing ++ rest) := by
  simp only [declarationTail] at read
  split at read
  next word later named =>
    cases held : isEncodingName word && Dialect.validating.holdsEncoding word with
    | false => simp [held] at read
    | true =>
        obtain ⟨valid, room⟩ := Bool.and_eq_true_iff.mp held
        obtain ⟨layout, inside, rfl⟩ := exists_layout named
        have closes (standalone : Option Spelling) {last : List Char} {isStandalone : Bool}
            (same : later = standing standalone ++ last)
            (read : ((expect "?>" (skipBlanks last)).bind fun rest =>
              some (Declaration.mk (some (String.ofList word)) isStandalone, rest)) =
                some (declared, rest)) :
            ∃ (heading : Heading) (encoding : Encoding), heading.marked = false ∧
              heading.version = version ∧ encoding.name.chars = name.toList ∧
              layout.spell "encoding" word ++ later =
                naming (some encoding) ++ (heading.closing ++ rest) := by
          obtain ⟨_, ended, read⟩ := Option.bind_eq_some_iff.mp read
          cases read
          cases encoded
          obtain ⟨heading, unmarked, numbered, closed⟩ := exists_closing version standalone ended
          refine ⟨heading, ⟨layout, word, valid, room⟩, unmarked, numbered, ?_, ?_⟩
          · exact String.toList_ofList.symm
          · rw [same, closed]
            rfl
        simp only [held, if_true, Option.bind_eq_bind, Option.bind_some] at read
        split at read
        next last stands =>
          obtain ⟨layout, inside, same⟩ := exists_layout stands
          exact closes (some ⟨layout, _, inside⟩) same read
        next last stands =>
          obtain ⟨layout, inside, same⟩ := exists_layout stands
          exact closes (some ⟨layout, _, inside⟩) same read
        next => cases read
        next => exact closes none rfl read
  next =>
    simp only [Option.bind_eq_bind, Option.bind_some] at read
    split at read
    case h_3 => cases read
    all_goals
      obtain ⟨_, _, same⟩ := Option.bind_eq_some_iff.mp read
      cases same
      cases encoded

theorem exists_heading {chars rest : List Char} {declaration : Declaration} {name : String}
    (read : leadingDeclaration .validating chars = some (declaration, rest))
    (encoded : declaration.encoding = some name) :
    ∃ (heading : Heading) (encoding : Encoding), chars = heading.text (some encoding) ++ rest ∧
      encoding.name.chars = name.toList := by
  simp only [leadingDeclaration] at read
  split at read
  next char tail opened =>
    split at read
    next blank =>
      simp only [Xml.declaration, Option.bind_eq_bind, Option.bind_eq_some_iff,
        Option.ite_none_right_eq_some] at read
      obtain ⟨⟨value, middle⟩, readVersion, -, read⟩ := read
      obtain ⟨layout, inside, spelled⟩ := exists_layout readVersion
      obtain ⟨heading, encoding, unmarked, version, same, rfl⟩ :=
        exists_naming ⟨layout, value, inside⟩ read encoded
      refine ⟨heading, encoding, ?_, same⟩
      rw [expect_eq_some opened, spelled, text, unmarked, declared, version]
      simp
    next =>
      cases read
      cases encoded
  next =>
    cases read
    cases encoded

end Heading

end Schematron.Xml

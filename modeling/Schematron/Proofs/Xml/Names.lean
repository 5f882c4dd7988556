import Schematron.Xml.Reader

/-!
Names: where one dialect reads a name, another one with a larger alphabet reads the same or refuses,
as long as the name ends before a character that goes on no name.
-/

namespace Schematron.Xml

/-! Readers that may refuse -/

/-- Whatever is found is acceptable, and where the reader is to be lenient, something is found. -/
def Reads {α : Type} (lenient : Prop) (acceptable : α → Prop) (found : Option α) : Prop :=
  (∀ value, found = some value → acceptable value) ∧ (lenient → found.isSome = true)

abbrev Echoes {α : Type} (lenient : Prop) (value : α) (found : Option α) : Prop :=
  Reads lenient (· = value) found

namespace Reads

variable {α β : Type} {lenient : Prop} {acceptable : α → Prop} {found : Option α}

theorem of_some {value : α} (accepted : acceptable value) :
    Reads lenient acceptable (some value) := by
  refine ⟨fun other same => ?_, fun _ => rfl⟩
  cases same
  exact accepted

theorem of_eq {value : α} (read : found = some value) : Echoes lenient value found := by
  rw [read]
  exact .of_some rfl

theorem mono {weaker : α → Prop} (reads : Reads lenient acceptable found)
    (weakens : ∀ value, acceptable value → weaker value) : Reads lenient weaker found :=
  ⟨fun value same => weakens value (reads.1 value same), reads.2⟩

theorem bind {next : β → Prop} {goOn : α → Option β} (reads : Reads lenient acceptable found)
    (others : ∀ value, acceptable value → Reads lenient next (goOn value)) :
    Reads lenient next (found.bind goOn) := by
  cases found with
  | none => exact ⟨fun _ same => (nomatch same), fun asked => (nomatch reads.2 asked)⟩
  | some value => exact others value (reads.1 value rfl)

/-- A condition that leniency grants. -/
theorem guard {condition : Prop} [Decidable condition] (granted : lenient → condition)
    (reads : Reads lenient acceptable found) :
    Reads lenient acceptable (if condition then found else none) := by
  split
  next => exact reads
  next refused => exact ⟨fun _ same => (nomatch same), fun asked => absurd (granted asked) refused⟩

/-- An obstacle that leniency removes. -/
theorem avoid {condition : Prop} [Decidable condition] (granted : lenient → ¬ condition)
    (reads : Reads lenient acceptable found) :
    Reads lenient acceptable (if condition then none else found) := by
  split
  next refused => exact ⟨fun _ same => (nomatch same), fun asked => absurd refused (granted asked)⟩
  next => exact reads

end Reads

namespace Echoes

variable {α β : Type} {lenient : Prop} {value : α} {found : Option α}

theorem bind {acceptable : β → Prop} {goOn : α → Option β} (echoes : Echoes lenient value found)
    (others : Reads lenient acceptable (goOn value)) :
    Reads lenient acceptable (found.bind goOn) :=
  Reads.bind echoes fun _ same => same ▸ others

end Echoes

/-! Where names end -/

def delimiters : List Char :=
  [' ', '\t', '\n', '\r', '=', '/', '>', '?', ';', ':', '[', ')', '|', ',', '*', '+']

def isDelimiter (char : Char) : Bool := delimiters.contains char

def EndsName (rest : List Char) : Prop := ∀ char, rest.head? = some char → isDelimiter char = true

theorem endsName_cons {char : Char} (delimits : isDelimiter char = true) (rest : List Char) :
    EndsName (char :: rest) := by
  intro first found
  cases found
  exact delimits

theorem isDelimiter_of_isBlank {char : Char} (blank : isBlank char = true) :
    isDelimiter char = true := by
  simp only [isBlank, Bool.or_eq_true, beq_iff_eq] at blank
  rcases blank with ((rfl | rfl) | rfl) | rfl <;> rfl

theorem endsName_of_skipBlanks {rest tail : List Char} {char : Char}
    (found : skipBlanks rest = char :: tail) (delimits : isDelimiter char = true) :
    EndsName rest := by
  cases rest with
  | nil => cases found
  | cons first more =>
      by_cases blank : isBlank first = true
      · exact endsName_cons (isDelimiter_of_isBlank blank) more
      · rw [skipBlanks, List.dropWhile_cons_of_neg blank] at found
        cases found
        exact endsName_cons delimits _

theorem head?_ne_of_skipBlanks {rest tail : List Char} {char other : Char}
    (found : skipBlanks rest = char :: tail) (different : char ≠ other ∧ isBlank other = false) :
    rest.head? ≠ some other := by
  cases rest with
  | nil => simp
  | cons first more =>
      rintro ⟨⟩
      rw [skipBlanks, List.dropWhile_cons_of_neg (by simp [different.2])] at found
      cases found
      exact different.1 rfl

theorem endsName_of_requireBlank {rest after : List Char}
    (found : requireBlank rest = some after) : EndsName rest := by
  cases rest with
  | nil => cases found
  | cons first more =>
      by_cases blank : isBlank first = true
      · exact endsName_cons (isDelimiter_of_isBlank blank) more
      · simp [requireBlank, blank] at found

theorem expect_eq_some {wanted : String} {rest after : List Char}
    (found : expect wanted rest = some after) : rest = wanted.toList ++ after := by
  simp only [expect, Option.ite_none_right_eq_some, Option.some.injEq] at found
  obtain ⟨start, rfl⟩ := found
  rw [List.isPrefixOf_iff_prefix] at start
  obtain ⟨tail, rfl⟩ := start
  rw [List.drop_left]

theorem endsName_of_expect {wanted : String} {char : Char} {more rest after : List Char}
    (found : expect wanted rest = some after) (begins : wanted.toList = char :: more)
    (delimits : isDelimiter char = true) : EndsName rest := by
  rw [expect_eq_some found, begins]
  exact endsName_cons delimits _

theorem endsName_of_expect_skipBlanks {wanted : String} {char : Char}
    {more rest after : List Char} (found : expect wanted (skipBlanks rest) = some after)
    (begins : wanted.toList = char :: more) (delimits : isDelimiter char = true) :
    EndsName rest := by
  have same := expect_eq_some found
  rw [begins, List.cons_append] at same
  exact endsName_of_skipBlanks same delimits

/-- A wider class takes no more where it stops at the same place. -/
theorem takeWhile_wider {narrow wide : Char → Bool} (wider : ∀ char, narrow char → wide char)
    {rest : List Char}
    (stops : ∀ char, (rest.drop (rest.takeWhile narrow).length).head? = some char →
      wide char = false) :
    rest.takeWhile wide = rest.takeWhile narrow := by
  induction rest with
  | nil => rfl
  | cons first rest ih =>
      by_cases taken : narrow first = true
      · rw [List.takeWhile_cons_of_pos taken, List.takeWhile_cons_of_pos (wider first taken)]
        rw [List.takeWhile_cons_of_pos taken] at stops
        rw [ih stops]
      · rw [List.takeWhile_cons_of_neg taken] at stops ⊢
        rw [List.takeWhile_cons_of_neg]
        simpa using stops first rfl

theorem stops_takeWhile {taken : Char → Bool} {rest : List Char} {char : Char}
    (found : (rest.drop (rest.takeWhile taken).length).head? = some char) :
    taken char = false := by
  induction rest with
  | nil => cases found
  | cons first rest ih =>
      by_cases more : taken first = true
      · rw [List.takeWhile_cons_of_pos more] at found
        exact ih found
      · rw [List.takeWhile_cons_of_neg more] at found
        cases found
        simpa using more

/-! Two dialects -/

/-- What `narrow` reads, `wide` either refuses or reads alike. The narrow dialect has the smaller
name alphabet, and knows no entities but the predefined ones. -/
structure Dialect.Narrows (narrow wide : Dialect) : Prop where
  nameChar : ∀ char, narrow.isNameChar char = true → wide.isNameChar char = true
  delimiter : ∀ char, isDelimiter char = true → wide.isNameChar char = false
  keyword : narrow.isNameChar 'S' = true ∧ narrow.isNameChar 'P' = true
  colons : narrow.anyColons = false
  entities : narrow.declaresEntities = false
  parameters : narrow.readsPastParameters = false
  unknown : narrow.keepsUnknownReferences = false

structure Dialect.Admits (wide narrow : Dialect) : Prop where
  nameStart : ∀ char, narrow.isNameStart char = true → wide.isNameStart char = true
  limit : ∀ chars, narrow.withinLimit chars = true → wide.withinLimit chars = true
  depth : ∀ depth, wide.isTooDeep depth = true → narrow.isTooDeep depth = true
  version : ∀ chars, narrow.isVersion chars = true → wide.isVersion chars = true
  parameters : wide.readsPastParameters = false
  namespaceName : ∀ uri, narrow.namespaceName uri = true → wide.namespaceName uri = true

namespace Dialect

theorem head_of_name {dialect : Dialect} {rest after : List Char} {name : String}
    (read : dialect.name rest = some (name, after)) {char : Char}
    (found : after.head? = some char) : dialect.isNameChar char = false := by
  cases rest with
  | nil => cases read
  | cons first rest =>
      simp only [Dialect.name, Option.ite_none_right_eq_some, Option.some.injEq,
        Prod.mk.injEq] at read
      obtain ⟨-, -, -, rfl⟩ := read
      exact (Bool.or_eq_false_iff.mp (stops_takeWhile found)).1

namespace Narrows

variable {narrow wide : Dialect}

theorem plainName (narrows : narrow.Narrows wide) {rest after : List Char} {name : String}
    (read : narrow.plainName rest = some (name, after)) (ends : EndsName after) :
    Echoes (wide.Admits narrow) (name, after) (wide.plainName rest) := by
  cases rest with
  | nil => cases read
  | cons first rest =>
      simp only [Dialect.plainName, Option.ite_none_right_eq_some, Option.some.injEq,
        Prod.mk.injEq] at read
      obtain ⟨start, limited, rfl, rfl⟩ := read
      have same : rest.takeWhile wide.isNameChar = rest.takeWhile narrow.isNameChar :=
        takeWhile_wider narrows.nameChar fun char found => narrows.delimiter char (ends char found)
      simp only [Dialect.plainName, same]
      exact .guard (fun admits => admits.nameStart first start)
        (.guard (fun admits => admits.limit _ limited) (.of_some rfl))

theorem takeColons (narrows : narrow.Narrows wide) {rest : List Char}
    (ends : EndsName (rest.drop
      (rest.takeWhile fun next => narrow.isNameChar next || next == ':').length)) :
    (rest.takeWhile fun next => wide.isNameChar next || next == ':') =
      rest.takeWhile fun next => narrow.isNameChar next || next == ':' := by
  refine takeWhile_wider (fun char taken => ?_) fun char found => ?_
  · rw [Bool.or_eq_true] at taken ⊢
    exact taken.imp_left (narrows.nameChar char)
  · have stopped := stops_takeWhile found
    rw [Bool.or_eq_false_iff] at stopped ⊢
    exact ⟨narrows.delimiter char (ends char found), stopped.2⟩

theorem allowsColons (narrows : narrow.Narrows wide) {chars : List Char}
    (allowed : narrow.allowsColons chars = true) : wide.allowsColons chars = true := by
  simp only [Dialect.allowsColons, narrows.colons, Bool.false_or] at allowed ⊢
  rw [allowed, Bool.or_true]

theorem name (narrows : narrow.Narrows wide) {rest after : List Char} {name : String}
    (read : narrow.name rest = some (name, after)) (ends : EndsName after) :
    Echoes (wide.Admits narrow) (name, after) (wide.name rest) := by
  cases rest with
  | nil => cases read
  | cons first rest =>
      simp only [Dialect.name, Option.ite_none_right_eq_some, Option.some.injEq,
        Prod.mk.injEq, Bool.and_eq_true, Bool.or_eq_true] at read
      obtain ⟨start, ⟨limited, allowed⟩, rfl, rfl⟩ := read
      simp only [Dialect.name, narrows.takeColons ends, Bool.or_eq_true, Bool.and_eq_true]
      exact .guard (fun admits => start.imp_left (admits.nameStart first))
        (.guard (fun admits => ⟨admits.limit _ limited, narrows.allowsColons allowed⟩)
          (.of_some rfl))

theorem token (narrows : narrow.Narrows wide) {rest after : List Char} {name : String}
    (read : narrow.token rest = some (name, after)) (ends : EndsName after) :
    Echoes (wide.Admits narrow) (name, after) (wide.token rest) := by
  simp only [Dialect.token, Option.ite_none_left_eq_some, Option.some.injEq,
    Prod.mk.injEq] at read
  obtain ⟨some, rfl, rfl⟩ := read
  simp only [Dialect.token, narrows.takeColons ends]
  exact .avoid (fun _ => some) (.of_some rfl)

/-- A name that ends before no colon is the same where colons are allowed. -/
theorem notationName (narrows : narrow.Narrows wide) {rest after : List Char} {name : String}
    (read : narrow.notationName rest = some (name, after)) (ends : EndsName after)
    (plain : after.head? ≠ some ':') :
    Echoes (wide.Admits narrow) (name, after) (wide.notationName rest) := by
  simp only [Dialect.notationName, narrows.colons, Bool.false_eq_true, if_false] at read
  simp only [Dialect.notationName]
  split
  next anyColons =>
    cases rest with
    | nil => cases read
    | cons first rest =>
        simp only [Dialect.plainName, Option.ite_none_right_eq_some, Option.some.injEq,
          Prod.mk.injEq] at read
        obtain ⟨start, limited, rfl, rfl⟩ := read
        have same : (rest.takeWhile fun next => wide.isNameChar next || next == ':') =
            rest.takeWhile narrow.isNameChar := by
          refine takeWhile_wider (fun char taken => ?_) fun char found => ?_
          · rw [narrows.nameChar char taken, Bool.true_or]
          · have different : char ≠ ':' := by
              rintro rfl
              exact plain found
            simp [narrows.delimiter char (ends char found), different]
        simp only [Dialect.name, Dialect.allowsColons, same, anyColons, Bool.true_or,
          Bool.and_true, Bool.or_eq_true]
        exact .guard (fun admits => .inl (admits.nameStart first start))
          (.guard (fun admits => admits.limit _ limited) (.of_some rfl))
  next => exact narrows.plainName read ends

theorem qualifiedName (narrows : narrow.Narrows wide) {rest after : List Char}
    {name : Option String × String} (read : narrow.qualifiedName rest = some (name, after))
    (ends : EndsName after) :
    Echoes (wide.Admits narrow) (name, after) (wide.qualifiedName rest) := by
  simp only [Dialect.qualifiedName, Option.bind_eq_bind, Option.bind_eq_some_iff] at read ⊢
  obtain ⟨⟨first, middle⟩, readFirst, read⟩ := read
  simp only at read
  split at read
  next tail =>
    refine (narrows.plainName readFirst (endsName_cons rfl _)).bind ?_
    rw [Option.bind_eq_some_iff] at read
    obtain ⟨⟨second, later⟩, readSecond, read⟩ := read
    have same : later = after := by
      simp only [Option.ite_none_left_eq_some, Option.some.injEq, Prod.mk.injEq] at read
      exact read.2.2
    subst same
    exact (narrows.plainName readSecond ends).bind (.of_eq read)
  next tail other =>
    cases read
    refine (narrows.plainName readFirst ends).bind ?_
    split
    next more => exact absurd more (other _)
    next => exact .of_some rfl

theorem reference (narrows : narrow.Narrows wide) {rest after : List Char} {name : Reference}
    (read : narrow.reference rest = some (name, after)) :
    Echoes (wide.Admits narrow) (name, after) (wide.reference rest) := by
  simp only [Dialect.reference] at read ⊢
  split at read
  next => exact .of_eq read
  next =>
    simp only [Option.bind_eq_bind, Option.bind_eq_some_iff] at read ⊢
    obtain ⟨⟨name, middle⟩, readName, read⟩ := read
    simp only at read
    split at read
    next tail => exact (narrows.plainName readName (endsName_cons rfl _)).bind (.of_eq read)
    next => cases read

end Narrows

end Dialect

/-! The reader behind validation, and the guarded one -/

/-- Ranges inside others hold no more than these. -/
theorem within_of_covered {narrow wide : List (Nat × Nat)}
    (covered : (narrow.all fun range =>
      wide.any fun other => decide (other.1 ≤ range.1 ∧ range.2 ≤ other.2)) = true)
    {value : Nat} (inside : within narrow value = true) : within wide value = true := by
  simp only [within, List.any_eq_true, Bool.and_eq_true, decide_eq_true_eq] at inside ⊢
  obtain ⟨range, member, low, high⟩ := inside
  obtain ⟨other, among, lower, higher⟩ : ∃ other ∈ wide, other.1 ≤ range.1 ∧ range.2 ≤ other.2 := by
    simpa using List.all_eq_true.mp covered range member
  exact ⟨other, among, Nat.le_trans lower low, Nat.le_trans high higher⟩

theorem isNameStart_of_letter {char : Char} (letter : isLetterNameStart char = true) :
    isNameStart char = true := by
  simp only [isLetterNameStart, isNameStart, Bool.or_eq_true, Bool.and_eq_true] at letter ⊢
  exact letter.imp_right (And.imp_right (within_of_covered (by decide +kernel)))

theorem isNameChar_of_letter {char : Char} (letter : isLetterNameChar char = true) :
    isNameChar char = true := by
  simp only [isLetterNameChar, isNameChar, Bool.or_eq_true, Bool.and_eq_true,
    decide_eq_true_eq] at letter ⊢
  rcases letter with (((start | digit) | hyphen) | dot) | ⟨beyond, continued⟩
  · simp [isNameStart_of_letter start]
  · simp [digit]
  · simp [hyphen]
  · simp [dot]
  · have inside : within ((0xB7, 0xB7) :: (0x300, 0x36F) :: nameStartRanges) char.toNat = true :=
      within_of_covered (by decide +kernel) continued
    simp only [within, List.any_cons, Bool.or_eq_true, Bool.and_eq_true, decide_eq_true_eq]
      at inside
    rcases inside with middle | combining | begins
    · have middleDot : char.toNat = 0xB7 := by omega
      have same : char = '\u00b7' := Char.ext (UInt32.toNat_inj.mp middleDot)
      simp [same]
    · simp [combining]
    · have start : isNameStart char = true := by
        simp only [isNameStart, Bool.or_eq_true, Bool.and_eq_true, decide_eq_true_eq]
        exact .inr ⟨beyond, begins⟩
      simp [start]

theorem isNameChar_of_isDelimiter {char : Char} (delimits : isDelimiter char = true) :
    isNameChar char = false := by
  have excluded : (delimiters.all fun char => !isNameChar char) = true := by decide
  simpa using List.all_eq_true.mp excluded char (List.contains_iff_mem.mp delimits)

namespace Dialect

theorem guarded_narrows_validating : guarded.Narrows .validating where
  nameChar _ := isNameChar_of_letter
  delimiter _ := isNameChar_of_isDelimiter
  keyword := by decide
  colons := rfl
  entities := rfl
  parameters := rfl
  unknown := rfl

def restricted : Dialect where
  isNameStart := isLetterNameStart
  isNameChar := isLetterNameChar
  anyColons := false
  nameLimit := validating.nameLimit
  depthLimit := validating.depthLimit
  numberedVersions := validating.numberedVersions
  declaresEntities := false
  readsPastParameters := false
  keepsUnknownReferences := false
  addsDefaults := validating.addsDefaults
  namespaceName := fun uri => validating.namespaceName uri && guarded.namespaceName uri

theorem restricted_narrows_guarded : restricted.Narrows .guarded where
  nameChar _ letter := letter
  delimiter char delimits := by
    have excluded := isNameChar_of_isDelimiter delimits
    rw [← Bool.not_eq_true] at excluded ⊢
    exact fun letter => excluded (isNameChar_of_letter letter)
  keyword := by decide
  colons := rfl
  entities := rfl
  parameters := rfl
  unknown := rfl

theorem isVersion_of_numbered {narrow wide : Dialect} {chars : List Char}
    (numbered : narrow.numberedVersions = true) (version : narrow.isVersion chars = true) :
    wide.isVersion chars = true := by
  simp only [isVersion, numbered, if_true] at version
  split at version
  next digits =>
    simp only [isVersion]
    split
    next => exact version
    next =>
      have words : ∀ char ∈ digits, (isAsciiLetter char || isAsciiDigit char ||
          "._-".toList.contains char) = true := by
        intro char member
        simp [List.all_eq_true.mp version char member]
      rw [List.all_cons, List.all_cons, List.all_eq_true.mpr words]
      decide
  next => cases version

theorem guarded_admits_restricted : guarded.Admits .restricted where
  nameStart _ start := start
  limit _ _ := rfl
  depth _ tooDeep := nomatch tooDeep
  version _ := isVersion_of_numbered rfl
  parameters := rfl
  namespaceName _ allowed := (Bool.and_eq_true_iff.mp allowed).2

end Dialect

end Schematron.Xml

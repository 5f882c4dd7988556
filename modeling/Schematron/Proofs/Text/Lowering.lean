import Schematron.Text.Case
import Schematron.Text.Split

/-!
Lower case. Main statement: what has a word of ASCII as its lower case is that word in capitals or
small letters, unless the word has a k, which is the lower case of the Kelvin sign as well.
-/

namespace Schematron.Text

inductive Lowers : Text → Text → Prop
  | nil : Lowers [] []
  | point (point : CodePoint) {rest lowered : Text} : Lowers rest lowered →
      Lowers (point :: rest) (lowerPoint point ++ lowered)
  | sigma {point : CodePoint} {rest lowered : Text} : point.value = 0x3A3 →
      Lowers rest lowered → Lowers (point :: rest) (.ofNat 0x3C2 :: lowered)

theorem lowers_lower (text : Text) : Lowers text (lower text) := by
  induction text with
  | nil => exact .nil
  | cons point rest ih => exact .point point ih

/-! Code points -/

variable {point : CodePoint} {value lowered : Nat}

theorem CaseRun.lower?_eq_some_iff {run : CaseRun} :
    run.lower? value = some lowered ↔ (run.first ≤ value ∧ value ≤ run.last ∧
      (value - run.first) % run.step = 0) ∧ run.lower + (value - run.first) = lowered := by
  simp [CaseRun.lower?]

theorem foreignCapitals_apart : ∀ run ∈ foreignCapitals, 128 ≤ run.first ∧
    (128 ≤ run.lower ∨ run.lower = 0x6B ∧ run.last = run.first) := by
  decide +kernel

theorem value_ofNat (value : Nat) :
    (CodePoint.ofNat value).value = if value < 0x110000 then value else 0xFFFD := by
  rw [CodePoint.ofNat]
  split <;> rfl

theorem lowerPoint_of_ascii (ascii : point.value < 128) :
    lowerPoint point = (asciiCapitals.lower? point.value).elim [point] ([.ofNat ·]) := by
  have none : foreignCapitals.findSome? (·.lower? point.value) = none := by
    rw [List.findSome?_eq_none_iff]
    intro run member
    have first := (foreignCapitals_apart run member).1
    rw [Option.eq_none_iff_forall_ne_some]
    intro lowered found
    obtain ⟨⟨starts, -⟩, -⟩ := CaseRun.lower?_eq_some_iff.mp found
    omega
  rw [lowerPoint, if_neg (by omega), List.findSome?_cons, none]
  cases asciiCapitals.lower? point.value <;> rfl

theorem lowerPoint_ofChar {char : Char} (ascii : char.toNat < 128) :
    lowerPoint (.ofChar char) = [.ofChar char.toLower] := by
  have table : ∀ value < 128, (asciiCapitals.lower? value).elim [CodePoint.ofChar (.ofNat value)]
      ([.ofNat ·]) = [.ofChar (Char.ofNat value).toLower] := by
    decide +kernel
  have found := table char.toNat ascii
  rw [Char.ofNat_toNat] at found
  exact (lowerPoint_of_ascii ascii).trans found

/-- What is not in ASCII has a lower case with something that is not, the Kelvin sign apart. -/
theorem ascii_of_lowerPoint (plain : ∀ other ∈ lowerPoint point, other.value < 128 ∧
    other.value ≠ 0x6B) : point.value < 128 := by
  rcases Nat.lt_or_ge point.value 128 with ascii | foreign
  · exact ascii
  rw [lowerPoint] at plain
  split at plain
  next =>
    have dot := plain (.ofNat 0x307) (by simp)
    exact absurd dot.1 (by decide)
  next =>
    split at plain
    next value found =>
      have plain := plain (.ofNat value) (by simp)
      rw [value_ofNat] at plain
      obtain ⟨run, member, lowers⟩ := List.exists_of_findSome?_eq_some found
      obtain ⟨⟨starts, ends, -⟩, comes⟩ := CaseRun.lower?_eq_some_iff.mp lowers
      rcases List.mem_cons.mp member with rfl | among
      · simp only [asciiCapitals] at ends
        omega
      · -- A run begins beyond ASCII and goes up from there, or it has the Kelvin sign only.
        have apart := (foreignCapitals_apart run among).2
        split at plain <;> omega
    next => exact (plain point (by simp)).1

theorem exists_char_of_ascii (ascii : point.value < 128) :
    ∃ char : Char, point = .ofChar char := by
  have plain : ¬point.isSurrogate = true := by
    rw [CodePoint.isSurrogate_iff]
    omega
  have read : point.toChar? = some (.ofNat point.value) := if_neg plain
  exact ⟨.ofNat point.value, (CodePoint.ofChar_of_toChar? read).symm⟩

theorem ascii_of_toLower {char : Char} (ascii : char.toLower.toNat < 128) : char.toNat < 128 := by
  by_cases capital : char.val ≥ 'A'.val ∧ char.val ≤ 'Z'.val
  · have last : char.toNat ≤ 'Z'.toNat := UInt32.le_iff_toNat_le.mp capital.2
    exact Nat.lt_of_le_of_lt last (by decide)
  · have same : char.toLower = char := dif_neg capital
    rwa [same] at ascii

/-! Words -/

variable {text lowered : Text} {word : String}

theorem exists_ofString_of_ascii (ascii : ∀ point ∈ text, point.value < 128) :
    ∃ word, text = ofString word := by
  induction text with
  | nil => exact ⟨"", rfl⟩
  | cons point rest ih =>
      rw [List.forall_mem_cons] at ascii
      obtain ⟨char, rfl⟩ := exists_char_of_ascii ascii.1
      obtain ⟨word, rfl⟩ := ih ascii.2
      refine ⟨String.ofList (char :: word.toList), ?_⟩
      rw [ofString, ofString, String.toList_ofList]
      rfl

theorem lower_ofString (ascii : ∀ point ∈ ofString word, point.value < 128) :
    lower (ofString word) = ofString (lowerAscii word) := by
  rw [ofString] at ascii ⊢
  rw [lowerAscii, ofString, String.toList_ofList]
  generalize word.toList = chars at ascii ⊢
  induction chars with
  | nil => rfl
  | cons char rest ih =>
      rw [ofChars, List.map_cons, List.forall_mem_cons] at ascii
      have later := ih ascii.2
      rw [lower, ofChars] at later
      rw [lower, ofChars, List.map_cons, List.flatMap_cons, lowerPoint_ofChar ascii.1, later]
      rfl

theorem ascii_of_lowerAscii (ascii : ∀ point ∈ ofString (lowerAscii word), point.value < 128) :
    ∀ point ∈ ofString word, point.value < 128 := by
  simp only [ofString, ofChars, lowerAscii, String.toList_ofList, List.forall_mem_map] at ascii ⊢
  exact fun char member => ascii_of_toLower (ascii char member)

theorem Lowers.eq_lower (lowers : Lowers text lowered)
    (ascii : ∀ point ∈ text, point.value < 128) : lowered = lower text := by
  induction lowers with
  | nil => rfl
  | point point lowers ih =>
      rw [List.forall_mem_cons] at ascii
      rw [ih ascii.2, lower, lower, List.flatMap_cons]
  | sigma sigma lowers ih =>
      rw [List.forall_mem_cons] at ascii
      omega

theorem Lowers.ascii (lowers : Lowers text lowered)
    (plain : ∀ point ∈ lowered, point.value < 128 ∧ point.value ≠ 0x6B) :
    ∀ point ∈ text, point.value < 128 := by
  induction lowers with
  | nil => simp
  | point point lowers ih =>
      rw [List.forall_mem_append] at plain
      exact List.forall_mem_cons.mpr ⟨ascii_of_lowerPoint plain.1, ih plain.2⟩
  | sigma sigma lowers ih =>
      have last := plain (.ofNat 0x3C2) List.mem_cons_self
      exact absurd last.1 (by decide)

/-- A word of ASCII without a k is the lower case of that word, in capitals or small letters, and of
nothing else. -/
theorem Lowers.eq_ofString_iff (lowers : Lowers text lowered)
    (plain : ∀ point ∈ ofString word, point.value < 128 ∧ point.value ≠ 0x6B) :
    lowered = ofString word ↔ ∃ written, text = ofString written ∧ lowerAscii written = word := by
  constructor
  · rintro rfl
    have ascii := lowers.ascii plain
    obtain ⟨written, rfl⟩ := exists_ofString_of_ascii ascii
    refine ⟨written, rfl, eq_of_ofString_eq ?_⟩
    rw [lowers.eq_lower ascii, lower_ofString ascii]
  · rintro ⟨written, rfl, rfl⟩
    have ascii := ascii_of_lowerAscii fun point member => (plain point member).1
    rw [lowers.eq_lower ascii, lower_ofString ascii]

example : lower [.ofNat 0x212A] = ofString "k" := by decide +kernel

end Schematron.Text

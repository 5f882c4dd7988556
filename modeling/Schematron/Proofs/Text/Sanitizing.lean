import Mathlib.Data.List.DropRight
import Schematron.Text.Blank
import Schematron.Text.Split

/-!
Running text on one line. Main statement: a sanitized text is in normal form, it has the words of
the text that it was made from, and layout makes no difference to it.
-/

namespace Schematron.Text

section Gaps

variable {α : Type} {isGap isSpace : α → Bool} {blank item : α} {items rest before after : List α}
  {words : List (List α)}

inductive Spaced (isGap : α → Bool) : List α → List (List α) → Prop
  | gap {gap : List α} : (∀ item ∈ gap, isGap item = true) → Spaced isGap gap []
  | word (gap : List α) {word rest : List α} {words : List (List α)} :
      (∀ item ∈ gap, isGap item = true) → word ≠ [] → (∀ item ∈ word, isGap item = false) →
      (∀ item ∈ rest.head?, isGap item = true) → Spaced isGap rest words →
      Spaced isGap (gap ++ (word ++ rest)) (word :: words)

/-! Words -/

theorem exists_spaced (isGap : α → Bool) (items : List α) : ∃ words, Spaced isGap items words := by
  induction items with
  | nil => exact ⟨[], .gap (by simp)⟩
  | cons item rest ih =>
      obtain ⟨words, spaced⟩ := ih
      by_cases isItem : isGap item = true
      · cases spaced with
        | gap gaps => exact ⟨[], .gap (List.forall_mem_cons.mpr ⟨isItem, gaps⟩)⟩
        | word gap gaps nonempty solid ends later =>
            exact ⟨_, .word (item :: gap) (List.forall_mem_cons.mpr ⟨isItem, gaps⟩) nonempty solid
              ends later⟩
      · have solid : isGap item = false := by simpa using isItem
        -- The item begins a word of its own before a gap, and goes before the word otherwise.
        have begins (ends : ∀ next ∈ rest.head?, isGap next = true) :
            Spaced isGap (item :: rest) ([item] :: words) := by
          have alone : ∀ also ∈ [item], isGap also = false := by simpa using solid
          exact .word [] (by simp) (List.cons_ne_nil _ _) alone ends spaced
        cases spaced with
        | gap gaps =>
            refine ⟨_, begins fun next first => gaps next (List.mem_of_mem_head? first)⟩
        | @word gap word later words gaps nonempty inside ends spaced =>
            cases gap with
            | nil =>
                exact ⟨_, .word [] (by simp) (List.cons_ne_nil item word)
                  (List.forall_mem_cons.mpr ⟨solid, inside⟩) ends spaced⟩
            | cons next gap =>
                exact ⟨_, begins (by simpa using gaps next List.mem_cons_self)⟩

theorem wordsBy_gap {gap : List α} (gaps : ∀ item ∈ gap, isGap item = true) (rest : List α) :
    wordsBy isGap (gap ++ rest) = wordsBy isGap rest := by
  induction gap with
  | nil => rfl
  | cons item gap ih =>
      rw [List.forall_mem_cons] at gaps
      rw [← ih gaps.2]
      simp [wordsBy, gaps.1]

theorem wordsBy_word {word : List α} (nonempty : word ≠ [])
    (solid : ∀ item ∈ word, isGap item = false) (ends : ∀ item ∈ rest.head?, isGap item = true) :
    wordsBy isGap (word ++ rest) = word :: wordsBy isGap rest := by
  induction word with
  | nil => contradiction
  | cons item word ih =>
      rw [List.forall_mem_cons] at solid
      cases word with
      | nil =>
          cases rest with
          | nil => simp [wordsBy, solid.1]
          | cons next rest =>
              have ends : isGap next = true := ends next rfl
              simp [wordsBy, solid.1, ends]
      | cons next word =>
          have inside : isGap next = false := solid.2 next List.mem_cons_self
          have later := ih (List.cons_ne_nil _ _) solid.2
          simp only [List.cons_append] at later ⊢
          rw [wordsBy.eq_def]
          simp [solid.1, inside, later]

theorem Spaced.wordsBy_eq (spaced : Spaced isGap items words) : wordsBy isGap items = words := by
  induction spaced with
  | @gap gap gaps => simpa [wordsBy] using wordsBy_gap gaps []
  | word gap gaps nonempty solid ends _ ih =>
      rw [wordsBy_gap gaps, wordsBy_word nonempty solid ends, ih]

theorem wordsBy_iff : wordsBy isGap items = words ↔ Spaced isGap items words := by
  constructor
  · rintro rfl
    obtain ⟨words, spaced⟩ := exists_spaced isGap items
    rwa [spaced.wordsBy_eq]
  · exact Spaced.wordsBy_eq

theorem Spaced.solid (spaced : Spaced isGap items words) :
    ∀ word ∈ words, word ≠ [] ∧ ∀ item ∈ word, isGap item = false := by
  induction spaced with
  | gap => simp
  | word _ _ nonempty solid _ _ ih => exact List.forall_mem_cons.mpr ⟨⟨nonempty, solid⟩, ih⟩

theorem Spaced.gap_append {gap : List α} (gaps : ∀ item ∈ gap, isGap item = true)
    (spaced : Spaced isGap items words) : Spaced isGap (gap ++ items) words := by
  have both {more : List α} (others : ∀ item ∈ more, isGap item = true) :
      ∀ item ∈ gap ++ more, isGap item = true := fun item member =>
    (List.mem_append.mp member).elim (gaps item) (others item)
  cases spaced with
  | gap others => exact .gap (both others)
  | word more others nonempty solid ends later =>
      rw [← List.append_assoc]
      exact .word (gap ++ more) (both others) nonempty solid ends later

theorem Spaced.append {others : List (List α)} (spaced : Spaced isGap items words)
    (later : Spaced isGap rest others) (ends : ∀ item ∈ rest.head?, isGap item = true) :
    Spaced isGap (items ++ rest) (words ++ others) := by
  induction spaced with
  | gap gaps => exact later.gap_append gaps
  | @word gap word between words gaps nonempty solid apart _ ih =>
      rw [List.append_assoc, List.append_assoc]
      refine .word gap gaps nonempty solid (fun item first => ?_) ih
      cases between with
      | nil => exact ends item first
      | cons next between => exact apart item first

theorem wordsBy_append (ends : ∀ item ∈ rest.head?, isGap item = true) :
    wordsBy isGap (items ++ rest) = wordsBy isGap items ++ wordsBy isGap rest :=
  ((wordsBy_iff.mp rfl).append (wordsBy_iff.mp rfl) ends).wordsBy_eq

theorem Spaced.wordsBy_coarser (spaced : Spaced isGap items words)
    (wider : ∀ item, isGap item = true → isSpace item = true) :
    wordsBy isSpace items = words.flatMap (wordsBy isSpace) := by
  induction spaced with
  | @gap gap gaps =>
      have spaces : Spaced isSpace gap [] := .gap fun item member => wider item (gaps item member)
      rw [spaces.wordsBy_eq, List.flatMap_nil]
  | @word gap word rest words gaps nonempty solid ends spaced ih =>
      have spaces : ∀ item ∈ gap, isSpace item = true := fun item member =>
        wider item (gaps item member)
      rw [wordsBy_gap spaces, wordsBy_append fun item first => wider item (ends item first), ih,
        List.flatMap_cons]

theorem Spaced.congr (spaced : Spaced isGap items words)
    (same : ∀ item ∈ items, isSpace item = isGap item) : Spaced isSpace items words := by
  induction spaced with
  | gap gaps => exact .gap fun item member => (same item member).trans (gaps item member)
  | @word gap word rest words gaps nonempty solid ends _ ih =>
      simp only [List.mem_append] at same
      refine .word gap (fun item member => (same item (.inl member)).trans (gaps item member))
        nonempty (fun item member => (same item (.inr (.inl member))).trans (solid item member))
        (fun item first => ?_) (ih fun item member => same item (.inr (.inr member)))
      exact (same item (.inr (.inr (List.mem_of_mem_head? first)))).trans (ends item first)

/-! Joined words -/

def Solid (isGap : α → Bool) (words : List (List α)) : Prop :=
  ∀ word ∈ words, word ≠ [] ∧ ∀ item ∈ word, isGap item = false

theorem Solid.spaced_join (solid : Solid isGap words) (isBlank : isGap blank = true) :
    Spaced isGap (join [blank] words) words := by
  have blanks : ∀ item ∈ [blank], isGap item = true := by simpa using isBlank
  induction words using join.induct with
  | case1 => exact .gap (by simp [join])
  | case2 word =>
      obtain ⟨nonempty, inside⟩ := solid word List.mem_cons_self
      have spaced : Spaced isGap ([] ++ (word ++ [])) [word] :=
        .word [] (by simp) nonempty inside (by simp) (.gap (by simp))
      simpa [join] using spaced
  | case3 word next words ih =>
      obtain ⟨⟨nonempty, inside⟩, later⟩ := List.forall_mem_cons.mp solid
      rw [join, List.append_assoc]
      exact .word [] (by simp) nonempty inside (by simpa using isBlank)
        ((ih later).gap_append blanks)

theorem Solid.mem_join (solid : Solid isGap words) (member : item ∈ join [blank] words) :
    item = blank ∨ isGap item = false := by
  induction words using join.induct with
  | case1 => cases member
  | case2 word => exact .inr ((solid word List.mem_cons_self).2 item member)
  | case3 word next words ih =>
      obtain ⟨⟨_, inside⟩, later⟩ := List.forall_mem_cons.mp solid
      simp only [join, List.append_assoc, List.mem_append, List.mem_singleton] at member
      rcases member with within | same | after
      · exact .inr (inside item within)
      · exact .inl same
      · exact ih later after

theorem Solid.head_join (solid : Solid isGap words) :
    ∀ item ∈ (join [blank] words).head?, isGap item = false := by
  cases words with
  | nil => simp [join]
  | cons word words =>
      obtain ⟨nonempty, inside⟩ := solid word List.mem_cons_self
      intro item first
      cases words with
      | nil => exact inside item (List.mem_of_mem_head? first)
      | cons next words =>
          rw [join, List.append_assoc, List.head?_append_of_ne_nil _ nonempty] at first
          exact inside item (List.mem_of_mem_head? first)

theorem Solid.join_ne_nil {word : List α} (solid : Solid isGap (word :: words)) :
    join [blank] (word :: words) ≠ [] := by
  have nonempty := (solid word List.mem_cons_self).1
  cases words <;> simp [join, nonempty]

theorem Solid.getLast_join (solid : Solid isGap words) :
    ∀ item ∈ (join [blank] words).getLast?, isGap item = false := by
  induction words using join.induct with
  | case1 => simp [join]
  | case2 word =>
      intro item last
      exact (solid word List.mem_cons_self).2 item (List.mem_of_mem_getLast? last)
  | case3 word next words ih =>
      have later : Solid isGap (next :: words) := (List.forall_mem_cons.mp solid).2
      rw [join, List.getLast?_append_of_ne_nil _ later.join_ne_nil]
      exact ih later

theorem Solid.blanks_apart (solid : Solid isGap words) (isBlank : isGap blank = true) :
    ∀ before after, join [blank] words ≠ before ++ blank :: blank :: after := by
  induction words using join.induct with
  | case1 => simp [join]
  | case2 word =>
      intro before after same
      have within : blank ∈ word := by
        rw [join] at same
        simp [same]
      simp [(solid word List.mem_cons_self).2 blank within] at isBlank
  | case3 word next words ih =>
      intro before after same
      obtain ⟨⟨_, inside⟩, later⟩ := List.forall_mem_cons.mp solid
      have first : ∀ item ∈ (join [blank] (next :: words)).head?, isGap item = false :=
        Solid.head_join later
      rw [join, List.append_assoc, List.singleton_append, List.append_eq_append_iff] at same
      rcases same with ⟨others, rfl, same⟩ | ⟨others, rfl, same⟩
      · cases others with
        | nil =>
            obtain ⟨-, same⟩ := List.cons.inj same
            rw [same] at first
            simp [isBlank] at first
        | cons item others => exact ih later others after (List.cons.inj same).2
      · cases others with
        | nil =>
            obtain ⟨-, same⟩ := List.cons.inj same
            rw [← same] at first
            simp [isBlank] at first
        | cons item others =>
            obtain ⟨rfl, -⟩ := List.cons.inj same
            simp [inside blank (by simp)] at isBlank

/-! Collapsing -/

theorem collapseBy_gap {gap : List α} (nonempty : gap ≠ [])
    (gaps : ∀ item ∈ gap, isGap item = true) (ends : ∀ item ∈ rest.head?, isGap item = false) :
    collapseBy isGap blank (gap ++ rest) = blank :: collapseBy isGap blank rest := by
  induction gap with
  | nil => contradiction
  | cons item gap ih =>
      rw [List.forall_mem_cons] at gaps
      cases gap with
      | nil =>
          cases rest with
          | nil => simp [collapseBy, gaps.1]
          | cons next rest =>
              have ends : isGap next = false := ends next rfl
              rw [List.singleton_append, collapseBy.eq_def]
              simp [gaps.1, ends]
      | cons next gap =>
          have inside : isGap next = true := gaps.2 next List.mem_cons_self
          have later := ih (List.cons_ne_nil _ _) gaps.2
          simp only [List.cons_append] at later ⊢
          rw [collapseBy.eq_def]
          simp [gaps.1, inside, later]

theorem collapseBy_word {word : List α} (solid : ∀ item ∈ word, isGap item = false)
    (rest : List α) :
    collapseBy isGap blank (word ++ rest) = word ++ collapseBy isGap blank rest := by
  induction word with
  | nil => rfl
  | cons item word ih =>
      rw [List.forall_mem_cons] at solid
      simp [collapseBy, solid.1, ih solid.2]

theorem collapseBy_lead {gap : List α} (gaps : ∀ item ∈ gap, isGap item = true)
    (ends : ∀ item ∈ rest.head?, isGap item = false) :
    collapseBy isGap blank (gap ++ rest) =
      (if (gap ++ rest).head?.any isGap then [blank] else []) ++ collapseBy isGap blank rest := by
  cases gap with
  | nil =>
      have none : ¬rest.head?.any isGap = true := by
        simpa [Option.any_eq_true] using ends
      simp [none]
  | cons item gap =>
      have first : isGap item = true := gaps item List.mem_cons_self
      rw [collapseBy_gap (List.cons_ne_nil _ _) gaps ends]
      simp [first]

/-- Collapsing leaves the words, with single blanks between them and perhaps blanks around them. -/
theorem Spaced.collapseBy_eq (blank : α) (spaced : Spaced isGap items words) :
    ∃ after, (∀ item ∈ after, item = blank) ∧
      collapseBy isGap blank items =
        (if items.head?.any isGap then [blank] else []) ++ (join [blank] words ++ after) := by
  induction spaced with
  | @gap gap gaps =>
      have lead : collapseBy isGap blank (gap ++ []) =
          (if (gap ++ []).head?.any isGap then [blank] else []) ++ collapseBy isGap blank [] :=
        collapseBy_lead gaps (by simp)
      exact ⟨[], by simp, by simpa [collapseBy, join] using lead⟩
  | @word gap word rest words gaps nonempty solid ends spaced ih =>
      obtain ⟨after, blanks, collapsed⟩ := ih
      have begins : ∀ item ∈ (word ++ rest).head?, isGap item = false := by
        intro item first
        rw [List.head?_append_of_ne_nil _ nonempty] at first
        exact solid item (List.mem_of_mem_head? first)
      rw [collapseBy_lead gaps begins, collapseBy_word solid, collapsed]
      cases words with
      | nil =>
          refine ⟨(if rest.head?.any isGap then [blank] else []) ++ after, ?_, by simp [join]⟩
          intro item member
          rcases List.mem_append.mp member with lead | later
          · split at lead
            · exact List.mem_singleton.mp lead
            · cases lead
          · exact blanks item later
      | cons next words =>
          -- Another word follows, so that there is a gap before it.
          have lead : rest.head?.any isGap = true := by
            cases rest with
            | nil => cases spaced.wordsBy_eq
            | cons item rest => exact ends item rfl
          exact ⟨after, blanks, by simp [lead, join]⟩

theorem collapseBy_of_apart (layout : ∀ item ∈ items, isGap item = true → item = blank)
    (apart : ∀ before after, items ≠ before ++ blank :: blank :: after) :
    collapseBy isGap blank items = items := by
  induction items with
  | nil => rfl
  | cons item rest ih =>
      obtain ⟨only, others⟩ := List.forall_mem_cons.mp layout
      have later := ih others fun before after same =>
        apart (item :: before) after (by rw [same, List.cons_append])
      by_cases gap : isGap item = true
      · obtain rfl := only gap
        have ends : ∀ next ∈ rest.head?, isGap next = false := by
          intro next first
          by_contra also
          have among := List.mem_of_mem_head? first
          obtain rfl := others next among (by simpa using also)
          obtain ⟨after, rfl⟩ : ∃ after, rest = next :: after := by
            cases rest with
            | nil => cases first
            | cons head after => exact ⟨after, by rw [Option.mem_some_iff.mp first]⟩
          exact apart [] after rfl
        have begins : collapseBy isGap item ([item] ++ rest) = item :: collapseBy isGap item rest :=
          collapseBy_gap (List.cons_ne_nil item []) (by simpa using gap) ends
        rw [← List.singleton_append, begins, later, List.singleton_append]
      · have begins : collapseBy isGap blank ([item] ++ rest) =
            [item] ++ collapseBy isGap blank rest := collapseBy_word (by simpa using gap) rest
        rw [← List.singleton_append, begins, later]

/-! Trimming -/

structure Trims (drop : α → Bool) (items trimmed : List α) : Prop where
  whole : ∃ before after, items = before ++ (trimmed ++ after) ∧
    (∀ item ∈ before, drop item = true) ∧ ∀ item ∈ after, drop item = true
  head : ∀ item ∈ trimmed.head?, drop item = false
  last : ∀ item ∈ trimmed.getLast?, drop item = false

theorem head_dropWhile (drop : α → Bool) (items : List α) :
    ∀ item ∈ (items.dropWhile drop).head?, drop item = false := by
  intro item first
  have stops := List.head?_dropWhile_not drop items
  rwa [Option.mem_def.mp first] at stops

theorem dropWhile_of_head (head : ∀ item ∈ items.head?, isGap item = false) :
    items.dropWhile isGap = items := by
  cases items with
  | nil => rfl
  | cons item rest => simp [head item rfl]

theorem trims_trimBy (drop : α → Bool) (items : List α) :
    Trims drop items (trimBy drop items) where
  whole := by
    refine ⟨items.takeWhile drop, (items.dropWhile drop).rtakeWhile drop, ?_,
      fun item => List.mem_takeWhile_imp, fun item => List.mem_rtakeWhile_imp⟩
    change items = _ ++ ((items.dropWhile drop).rdropWhile drop ++ _)
    rw [List.rdropWhile_append_rtakeWhile, List.takeWhile_append_dropWhile]
  head := by
    intro item first
    have nonempty : trimBy drop items ≠ [] := by
      intro empty
      simp [empty] at first
    have whole := List.rdropWhile_append_rtakeWhile (p := drop) (l := items.dropWhile drop)
    refine head_dropWhile drop items item ?_
    rw [← whole]
    exact (List.head?_append_of_ne_nil _ nonempty).trans first
  last := by
    rw [trimBy, List.getLast?_reverse]
    exact head_dropWhile drop _

theorem trimBy_append (dropped : ∀ item ∈ before, isGap item = true)
    (also : ∀ item ∈ after, isGap item = true) :
    trimBy isGap (before ++ (items ++ after)) = trimBy isGap items := by
  rw [trimBy, List.dropWhile_append_of_pos dropped, List.dropWhile_append, trimBy]
  by_cases empty : (items.dropWhile isGap).isEmpty = true
  · have none : after.dropWhile isGap = [] := List.dropWhile_eq_nil_iff.mpr also
    rw [if_pos empty, none, List.isEmpty_iff.mp empty]
  · have backwards : ∀ item ∈ after.reverse, isGap item = true := by simpa using also
    rw [if_neg empty, List.reverse_append, List.dropWhile_append_of_pos backwards]

theorem trimBy_of_ends (head : ∀ item ∈ items.head?, isGap item = false)
    (last : ∀ item ∈ items.getLast?, isGap item = false) : trimBy isGap items = items := by
  have backwards : items.reverse.dropWhile isGap = items.reverse :=
    dropWhile_of_head (by simpa using last)
  rw [trimBy, dropWhile_of_head head, backwards, List.reverse_reverse]

theorem Trims.trimBy_eq {trimmed : List α} (trims : Trims isGap items trimmed) :
    trimBy isGap items = trimmed := by
  obtain ⟨⟨before, after, rfl, dropped, also⟩, head, last⟩ := trims
  rw [trimBy_append dropped also, trimBy_of_ends head last]

end Gaps

/-! Running text -/

def blank : CodePoint := .ofChar ' '

def isSpacePoint (point : CodePoint) : Bool := isSpace point.value

def isLayoutPoint (point : CodePoint) : Bool := isLayout point.value

/-- Running text on one line, with single blanks in it and none around it. -/
structure Normal (line : Text) : Prop where
  unbroken : ∀ point ∈ line, point.value ∉ [9, 10, 13]
  apart : ∀ before after, line ≠ before ++ blank :: blank :: after
  head : ∀ point ∈ line.head?, isSpacePoint point = false
  last : ∀ point ∈ line.getLast?, isSpacePoint point = false

structure Sanitizes (text line : Text) : Prop extends Normal line where
  fixed : sanitize line = line
  words : words line = words text
  -- Without any other white space, just the words matter.
  joined : (∀ point ∈ text, isSpacePoint point = true → isLayoutPoint point = true) →
    line = join [blank] (Text.words text)
  -- How much layout there is between two stretches, and of which kind, makes no difference.
  alike : ∀ other, wordsBy isLayoutPoint other = wordsBy isLayoutPoint text → sanitize other = line

theorem eq_blank_of_value {point : CodePoint} (same : point.value = 32) : point = blank := by
  obtain ⟨value, inRange⟩ := point
  subst same
  rfl

theorem isSpace_of_isLayout {point : CodePoint} (layout : isLayoutPoint point = true) :
    isSpacePoint point = true := by
  simp only [isLayoutPoint, isLayout, Bool.or_eq_true, beq_iff_eq] at layout
  simp only [isSpacePoint, isSpace, Bool.or_eq_true, Bool.and_eq_true, decide_eq_true_eq,
    beq_iff_eq]
  omega

theorem Normal.sanitize_eq {line : Text} (normal : Normal line) : sanitize line = line := by
  have layout : ∀ point ∈ line, isLayoutPoint point = true → point = blank := by
    intro point member found
    have unbroken := normal.unbroken point member
    simp only [isLayoutPoint, isLayout, Bool.or_eq_true, beq_iff_eq] at found
    simp only [List.mem_cons, List.not_mem_nil, or_false, not_or] at unbroken
    exact eq_blank_of_value (by omega)
  have collapsed : collapseBy isLayoutPoint blank line = line :=
    collapseBy_of_apart layout normal.apart
  change trimBy isSpacePoint (collapseBy isLayoutPoint blank line) = line
  rw [collapsed]
  exact trimBy_of_ends normal.head normal.last

/-- A sanitized text depends on the stretches between its layout alone. -/
theorem sanitize_eq (text : Text) :
    sanitize text = trimBy isSpacePoint (join [blank] (wordsBy isLayoutPoint text)) := by
  obtain ⟨after, blanks, collapsed⟩ :=
    (wordsBy_iff.mp (rfl : wordsBy isLayoutPoint text = _)).collapseBy_eq blank
  change trimBy isSpacePoint (collapseBy isLayoutPoint blank text) = _
  rw [collapsed]
  refine trimBy_append (fun point member => ?_) fun point member => ?_
  · split at member
    · rw [List.mem_singleton.mp member]
      rfl
    · cases member
  · rw [blanks point member]
    rfl

theorem solid_layout (text : Text) : Solid isLayoutPoint (wordsBy isLayoutPoint text) :=
  (wordsBy_iff.mp rfl).solid

theorem isLayoutPoint_blank : isLayoutPoint blank = true := rfl

theorem normal_sanitize (text : Text) : Normal (sanitize text) := by
  have solid := solid_layout text
  rw [sanitize_eq]
  have trims := trims_trimBy isSpacePoint (join [blank] (wordsBy isLayoutPoint text))
  generalize trimBy isSpacePoint (join [blank] (wordsBy isLayoutPoint text)) = line at trims
  obtain ⟨before, after, whole, -, -⟩ := trims.whole
  refine ⟨fun point member => ?_, fun first rest same => ?_, trims.head, trims.last⟩
  · have among : point ∈ join [blank] (wordsBy isLayoutPoint text) := by
      rw [whole]
      simp [member]
    rcases solid.mem_join among with rfl | other
    · decide
    · simp only [isLayoutPoint, isLayout, Bool.or_eq_false_iff, beq_eq_false_iff_ne] at other
      simp [other]
  · refine solid.blanks_apart isLayoutPoint_blank (before ++ first) (rest ++ after) ?_
    rw [whole, same]
    simp

theorem words_sanitize (text : Text) : words (sanitize text) = words text := by
  have wider : ∀ point, isLayoutPoint point = true → isSpacePoint point = true :=
    fun _ => isSpace_of_isLayout
  have spaced : Spaced isLayoutPoint text (wordsBy isLayoutPoint text) := wordsBy_iff.mp rfl
  have joined := (solid_layout text).spaced_join isLayoutPoint_blank
  obtain ⟨before, after, whole, gaps, others⟩ :=
    (trims_trimBy isSpacePoint (join [blank] (wordsBy isLayoutPoint text))).whole
  rw [← sanitize_eq] at whole
  change wordsBy isSpacePoint (sanitize text) = wordsBy isSpacePoint text
  rw [spaced.wordsBy_coarser wider, ← joined.wordsBy_coarser wider, whole, wordsBy_gap gaps]
  have ends : ∀ point ∈ after.head?, isSpacePoint point = true := fun point first =>
    others point (List.mem_of_mem_head? first)
  rw [wordsBy_append ends, (Spaced.gap others).wordsBy_eq, List.append_nil]

theorem sanitize_of_layout {text : Text}
    (only : ∀ point ∈ text, isSpacePoint point = true → isLayoutPoint point = true) :
    sanitize text = join [blank] (words text) := by
  have spaced : Spaced isLayoutPoint text (words text) := by
    refine (wordsBy_iff.mp rfl : Spaced isSpacePoint text (words text)).congr fun point member => ?_
    rw [Bool.eq_iff_iff]
    exact ⟨isSpace_of_isLayout, only point member⟩
  have solid : Solid isSpacePoint (words text) := (wordsBy_iff.mp rfl).solid
  rw [sanitize_eq, spaced.wordsBy_eq]
  exact trimBy_of_ends solid.head_join solid.getLast_join

theorem sanitize_normal_form (text : Text) : Sanitizes text (sanitize text) where
  toNormal := normal_sanitize text
  fixed := (normal_sanitize text).sanitize_eq
  words := words_sanitize text
  joined := sanitize_of_layout
  alike other same := by rw [sanitize_eq, sanitize_eq, same]

example : sanitize (ofString "\tA book must\n  have a title. ") =
    ofString "A book must have a title." := by
  decide +kernel

end Schematron.Text

import Mathlib.Data.List.TakeWhile
import Schematron.Console.Table
import Schematron.Proofs.Sequence
import Schematron.Proofs.Text.Sanitizing

/-!
Printing on a console. Main statements: a text is printed as it is just when nothing in it is read
as markup, and a label in color leaves what follows it alone.
-/

namespace Schematron.Console

namespace Markup

structure IsTag (body : List Char) : Prop where
  starts : ∃ first ∈ body.head?, startsTag first = true
  opened : '[' ∉ body
  closed : ']' ∉ body

structure Unread (chars : List Char) : Prop where
  untagged : ∀ before body after, chars = before ++ '[' :: (body ++ ']' :: after) → ¬IsTag body
  unescaped : ∀ before after, chars ≠ before ++ '\\' :: '[' :: after

/-- Nothing in a text is read as markup, and all of it can be printed. -/
structure Unmarked (chars : List Char) : Prop extends Unread chars where
  printable : ∀ char ∈ chars, isControl char = false

/-! Tags -/

theorem startsTag_bracket {char : Char} (starts : startsTag char = true) :
    char ≠ '[' ∧ char ≠ ']' := by
  constructor <;>
  · rintro rfl
    revert starts
    decide

theorem drop_length_takeWhile {α : Type} (wanted : α → Bool) (items : List α) :
    items.drop (items.takeWhile wanted).length = items.dropWhile wanted := by
  induction items with
  | nil => rfl
  | cons item rest ih => by_cases goes : wanted item = true <;> simp [goes, ih]

theorem takeWhile_until {α : Type} {wanted : α → Bool} {before after : List α} {stop : α}
    (goes : ∀ item ∈ before, wanted item = true) (ends : wanted stop = false) :
    (before ++ stop :: after).takeWhile wanted = before := by
  rw [List.takeWhile_append_of_pos goes, List.takeWhile_cons_of_neg (by simp [ends]),
    List.append_nil]

theorem tagBody?_append {body : List Char} (tag : IsTag body) (rest : List Char) :
    tagBody? (body ++ ']' :: rest) = some (body, rest) := by
  obtain ⟨first, among, starts⟩ := tag.starts
  have head : (body ++ ']' :: rest).head? = some first := by
    cases body with
    | nil => cases among
    | cons char more => exact among
  have inside : ∀ char ∈ body, (char != ']' && char != '[') = true := by
    intro char member
    simp only [Bool.and_eq_true, bne_iff_ne]
    exact ⟨fun same => tag.closed (same ▸ member), fun same => tag.opened (same ▸ member)⟩
  have ends : (body ++ ']' :: rest).takeWhile (fun char => char != ']' && char != '[') = body :=
    takeWhile_until inside (by decide)
  simp only [tagBody?, head, Option.map_some, Option.getD_some, starts, if_true, ends]
  simp

theorem tagBody?_eq_some {chars body rest : List Char}
    (found : tagBody? chars = some (body, rest)) : chars = body ++ ']' :: rest ∧ IsTag body := by
  simp only [tagBody?, drop_length_takeWhile] at found
  split at found
  next begins =>
    split at found
    next dropped =>
      cases found
      have parts := List.takeWhile_append_dropWhile
        (p := fun char => char != ']' && char != '[') (l := chars)
      have inside : ∀ char ∈ chars.takeWhile (fun char => char != ']' && char != '['),
          char ≠ ']' ∧ char ≠ '[' := fun char member => by simpa using List.mem_takeWhile_imp member
      rw [dropped] at parts
      refine ⟨parts.symm, ?_, fun member => (inside '[' member).2 rfl,
        fun member => (inside ']' member).1 rfl⟩
      cases chars with
      | nil => simp at begins
      | cons first more =>
          have starts : startsTag first = true := by simpa using begins
          have other := startsTag_bracket starts
          exact ⟨first, by simp [other.1, other.2], starts⟩
    next => cases found
  next => cases found

theorem tagOf_of_plain {body : List Char} (plain : '=' ∉ body) :
    tagOf body = .tag (String.ofList body) none := by
  have whole : body.takeWhile (· != '=') = body := by
    refine List.takeWhile_eq_self_iff.mpr fun char member => ?_
    exact bne_iff_ne.mpr fun same => plain (same ▸ member)
  simp [tagOf, whole]

theorem tagAt?_of_plain {char : Char} (plain : char ≠ '[' ∧ char ≠ '\\') (rest : List Char) :
    tagAt? (char :: rest) = none := by
  simp [tagAt?, plain.1, plain.2]

/-- A tag with backslashes before it, as it is read. -/
theorem tagAt?_eq_some {chars after : List Char} {pieces : List Piece}
    (found : tagAt? chars = some (pieces, after)) :
    ∃ count body, chars = List.replicate count '\\' ++ '[' :: (body ++ ']' :: after) ∧
      IsTag body ∧ pieces = [.literal (List.replicate (count / 2) '\\'),
        if count % 2 == 1 then .literal ('[' :: body ++ [']']) else tagOf body] := by
  have parts := List.takeWhile_append_dropWhile (p := (· == '\\')) (l := chars)
  have slashes : chars.takeWhile (· == '\\') =
      List.replicate (chars.takeWhile (· == '\\')).length '\\' :=
    List.eq_replicate_iff.mpr ⟨rfl, fun char member => by simpa using List.mem_takeWhile_imp member⟩
  simp only [tagAt?, drop_length_takeWhile] at found
  split at found
  next inside opened =>
    split at found
    next body rest read =>
      cases found
      obtain ⟨rfl, tag⟩ := tagBody?_eq_some read
      rw [opened, slashes] at parts
      exact ⟨_, body, parts.symm, tag, rfl⟩
    next => cases found
  next => cases found

theorem tagAt?_tag {body : List Char} (tag : IsTag body) (after : List Char) :
    tagAt? ('[' :: (body ++ ']' :: after)) = some ([.literal [], tagOf body], after) := by
  simp [tagAt?, tagBody?_append tag]

/-! Pieces -/

theorem length_of_tagAt? {chars after : List Char} {pieces : List Piece}
    (found : tagAt? chars = some (pieces, after)) : after.length < chars.length := by
  obtain ⟨count, body, rfl, -⟩ := tagAt?_eq_some found
  simp
  omega

/-- Any number of rounds will do that is enough. -/
theorem piecesWithin_congr {rounds others : Nat} {chars : List Char}
    (enough : chars.length ≤ rounds) (also : chars.length ≤ others) :
    piecesWithin rounds chars = piecesWithin others chars := by
  induction rounds generalizing others chars with
  | zero =>
      obtain rfl := List.length_eq_zero_iff.mp (Nat.le_zero.mp enough)
      cases others <;> rfl
  | succ rounds ih =>
      cases chars with
      | nil => cases others <;> rfl
      | cons char rest =>
          obtain ⟨others, rfl⟩ : ∃ fewer, others = fewer + 1 :=
            Nat.exists_eq_succ_of_ne_zero (Nat.ne_of_gt (Nat.lt_of_lt_of_le (Nat.succ_pos _) also))
          simp only [List.length_cons, Nat.add_le_add_iff_right] at enough also
          rw [piecesWithin, piecesWithin]
          cases tagged : tagAt? (char :: rest) with
          | none => simp only [ih enough also]
          | some read =>
              obtain ⟨found, after⟩ := read
              have shorter := length_of_tagAt? tagged
              simp only [List.length_cons] at shorter
              have same : piecesWithin rounds after = piecesWithin others after :=
                ih (by omega) (by omega)
              simp only [same]

theorem pieces_of_tagAt? {chars after : List Char} {found : List Piece}
    (tag : tagAt? chars = some (found, after)) : pieces chars = found ++ pieces after := by
  have shorter := length_of_tagAt? tag
  cases chars with
  | nil => cases shorter
  | cons char rest =>
      simp only [List.length_cons] at shorter
      simp only [pieces, List.length_cons, piecesWithin, tag]
      rw [piecesWithin_congr (Nat.lt_succ_iff.mp shorter) (Nat.le_refl _)]

theorem pieces_cons {char : Char} {rest : List Char} (untagged : tagAt? (char :: rest) = none) :
    pieces (char :: rest) = push char (pieces rest) := by
  simp only [pieces, List.length_cons, piecesWithin, untagged]

/-! What is printed -/

theorem unescape_cons (char : Char) (rest : List Char) :
    unescape (char :: rest) =
      if char = '\\' ∧ rest.head? = some '[' then unescape rest else char :: unescape rest := by
  split
  next escapes =>
    obtain ⟨rfl, opens⟩ := escapes
    cases rest with
    | nil => cases opens
    | cons next rest =>
        cases opens
        rfl
  next plain =>
    rw [unescape]
    rintro next rfl rfl
    exact plain ⟨rfl, rfl⟩

def plainHead? : List Piece → Option Char
  | .plain chars :: _ => chars.head?
  | _ => none

theorem plainHead?_push (char : Char) (pieces : List Piece) :
    plainHead? (push char pieces) = some char := by
  cases pieces with
  | nil => rfl
  | cons piece rest => cases piece <;> rfl

theorem printed_plain (chars : List Char) (rest : List Piece) (stack : List OpenTag) :
    printed (.plain chars :: rest) stack = (printed rest stack).map (unescape chars ++ ·) := by
  rw [printed]
  cases printed rest stack <;> rfl

theorem map_append_cons {fault : Type} (char : Char) (chars : List Char)
    (found : Except fault (List Char)) :
    found.map (char :: chars ++ ·) = (found.map (chars ++ ·)).map (char :: ·) := by
  cases found <;> rfl

/-- A backslash before a bracket is lost, and any other character is printed. -/
theorem printed_push (char : Char) (pieces : List Piece) (stack : List OpenTag) :
    printed (push char pieces) stack =
      if char = '\\' ∧ plainHead? pieces = some '[' then printed pieces stack
      else (printed pieces stack).map (char :: ·) := by
  have fresh (others : List Piece) : printed (.plain [char] :: others) stack =
      (printed others stack).map (char :: ·) := by
    simp [printed_plain, unescape_cons, unescape]
  cases pieces with
  | nil => simp [push, plainHead?, fresh]
  | cons piece rest =>
      cases piece with
      | plain chars =>
          simp only [push, printed_plain, plainHead?, unescape_cons]
          split
          · rfl
          · exact map_append_cons char (unescape chars) (printed rest stack)
      | literal chars => simp [push, plainHead?, fresh]
      | tag name parameter => simp [push, plainHead?, fresh]

theorem plainHead?_pieces {chars : List Char} (untagged : tagAt? chars = none) :
    plainHead? (pieces chars) = chars.head? := by
  cases chars with
  | nil => rfl
  | cons char rest => rw [pieces_cons untagged, plainHead?_push, List.head?_cons]

/-- A tag behind a backslash is found from the backslash on. -/
theorem tagAt?_behind {rest : List Char} (untagged : tagAt? ('\\' :: rest) = none)
    (opens : rest.head? = some '[') : tagAt? rest = none := by
  cases rest with
  | nil => rfl
  | cons char rest =>
      cases opens
      rw [← Option.not_isSome_iff_eq_none, Option.isSome_iff_exists]
      rintro ⟨⟨found, after⟩, tag⟩
      obtain ⟨count, body, same, isTag, -⟩ := tagAt?_eq_some tag
      cases count with
      | zero =>
          obtain ⟨-, rfl⟩ := List.cons.inj same
          simp [tagAt?, tagBody?_append isTag] at untagged
      | succ count =>
          rw [List.replicate_succ] at same
          cases same

theorem printed_cons {char : Char} {rest : List Char} (untagged : tagAt? (char :: rest) = none)
    (stack : List OpenTag) :
    printed (pieces (char :: rest)) stack =
      if char = '\\' ∧ rest.head? = some '[' then printed (pieces rest) stack
      else (printed (pieces rest) stack).map (char :: ·) := by
  rw [pieces_cons untagged, printed_push]
  by_cases escapes : char = '\\' ∧ rest.head? = some '['
  · obtain ⟨rfl, opens⟩ := escapes
    have head := plainHead?_pieces (tagAt?_behind untagged opens)
    rw [if_pos ⟨rfl, head.trans opens⟩, if_pos ⟨rfl, opens⟩]
  · rw [if_neg escapes, if_neg]
    rintro ⟨rfl, head⟩
    refine escapes ⟨rfl, ?_⟩
    cases tagged : tagAt? rest with
    | none => rwa [plainHead?_pieces tagged] at head
    | some read =>
        obtain ⟨found, after⟩ := read
        obtain ⟨count, body, -, -, rfl⟩ := tagAt?_eq_some tagged
        rw [pieces_of_tagAt? tagged] at head
        cases head

theorem printed_append {word : List Char} (plain : ∀ char ∈ word, char ≠ '[' ∧ char ≠ '\\')
    (rest : List Char) (stack : List OpenTag) :
    printed (pieces (word ++ rest)) stack = (printed (pieces rest) stack).map (word ++ ·) := by
  induction word with
  | nil => cases found : printed (pieces rest) stack <;> simp [found, Except.map]
  | cons char word ih =>
      rw [List.forall_mem_cons] at plain
      rw [List.cons_append, printed_cons (tagAt?_of_plain plain.1 _), ih plain.2,
        if_neg fun escapes => plain.1.2 escapes.1]
      exact (map_append_cons char word _).symm

/-! Texts without markup -/

theorem Unread.tagAt?_eq_none {chars : List Char} (unread : Unread chars) :
    tagAt? chars = none := by
  rw [← Option.not_isSome_iff_eq_none, Option.isSome_iff_exists]
  rintro ⟨⟨found, after⟩, tagged⟩
  obtain ⟨count, body, same, tag, -⟩ := tagAt?_eq_some tagged
  exact unread.untagged _ body after same tag

theorem unread_cons_iff {char : Char} {rest : List Char} : Unread (char :: rest) ↔
    tagAt? (char :: rest) = none ∧ ¬(char = '\\' ∧ rest.head? = some '[') ∧ Unread rest := by
  constructor
  · intro unread
    refine ⟨unread.tagAt?_eq_none, ?_, fun before body after same => ?_,
      fun before after same => ?_⟩
    · rintro ⟨rfl, opens⟩
      cases rest with
      | nil => cases opens
      | cons next rest =>
          cases opens
          exact unread.unescaped [] rest rfl
    · exact unread.untagged (char :: before) body after (congrArg (char :: ·) same)
    · exact unread.unescaped (char :: before) after (congrArg (char :: ·) same)
  · rintro ⟨untagged, unescaped, unread⟩
    refine ⟨fun before body after same tag => ?_, fun before after same => ?_⟩
    · cases before with
      | nil =>
          rw [same, List.nil_append, tagAt?_tag tag] at untagged
          cases untagged
      | cons _ before => exact unread.untagged before body after (List.cons.inj same).2 tag
    · cases before with
      | nil =>
          obtain ⟨rfl, rfl⟩ := List.cons.inj same
          exact unescaped ⟨rfl, rfl⟩
      | cons _ before => exact unread.unescaped before after (List.cons.inj same).2

theorem Unread.printed_eq {chars : List Char} (unread : Unread chars) (stack : List OpenTag) :
    printed (pieces chars) stack = .ok chars := by
  induction chars with
  | nil => rfl
  | cons char rest ih =>
      obtain ⟨untagged, unescaped, later⟩ := unread_cons_iff.mp unread
      rw [printed_cons untagged, if_neg unescaped, ih later]
      rfl

theorem ok_of_map {fault α β : Type} {found : Except fault α} {change : α → β} {result : β}
    (same : found.map change = .ok result) :
    ∃ value, found = .ok value ∧ result = change value := by
  cases found with
  | error fault => cases same
  | ok value =>
      cases same
      exact ⟨value, rfl, rfl⟩

theorem printed_literal (chars : List Char) (rest : List Piece) (stack : List OpenTag) :
    printed (.literal chars :: rest) stack = (printed rest stack).map (chars ++ ·) := by
  rw [printed]
  cases printed rest stack <;> rfl

theorem printed_tag {name : String} {parameter : Option String} {rest : List Piece}
    {stack : List OpenTag} {out : List Char}
    (prints : printed (.tag name parameter :: rest) stack = .ok out) :
    ∃ later, printed rest later = .ok out := by
  rw [printed] at prints
  split at prints
  · cases closed : closeTag name stack with
    | error fault =>
        rw [closed] at prints
        cases prints
    | ok later =>
        rw [closed] at prints
        exact ⟨later, prints⟩
  · exact ⟨_, prints⟩

theorem length_printed_tagged {chars after out : List Char} {found : List Piece}
    {stack : List OpenTag} (tagged : tagAt? chars = some (found, after))
    (prints : printed (found ++ pieces after) stack = .ok out) :
    ∃ later rest, printed (pieces after) later = .ok rest ∧
      out.length + after.length < chars.length + rest.length := by
  obtain ⟨count, body, rfl, -, rfl⟩ := tagAt?_eq_some tagged
  rw [List.cons_append, printed_literal] at prints
  obtain ⟨shown, further, rfl⟩ := ok_of_map prints
  split at further
  next odd =>
    rw [List.singleton_append, printed_literal] at further
    obtain ⟨rest, goes, rfl⟩ := ok_of_map further
    refine ⟨stack, rest, goes, ?_⟩
    simp only [beq_iff_eq] at odd
    simp only [List.length_append, List.length_cons, List.length_replicate, List.length_nil]
    omega
  next =>
    obtain ⟨later, goes⟩ := printed_tag further
    refine ⟨later, shown, goes, ?_⟩
    simp only [List.length_append, List.length_cons, List.length_replicate]
    omega

/-- No more is printed than is there, and all of it only where nothing is read. -/
theorem length_printed {chars out : List Char} {stack : List OpenTag}
    (prints : printed (pieces chars) stack = .ok out) :
    out.length ≤ chars.length ∧ (out.length = chars.length → out = chars ∧ Unread chars) := by
  -- By the number of characters: a tag leads on to what stands behind it, not to the tail.
  induction size : chars.length using Nat.strongRecOn generalizing chars out stack with
  | ind size ih =>
      cases chars with
      | nil =>
          cases prints
          exact ⟨Nat.zero_le _, fun _ => ⟨rfl, by simp, by simp⟩⟩
      | cons char rest =>
          cases tagged : tagAt? (char :: rest) with
          | some read =>
              obtain ⟨found, after⟩ := read
              rw [pieces_of_tagAt? tagged] at prints
              obtain ⟨later, others, goes, shorter⟩ := length_printed_tagged tagged prints
              have fewer := (ih after.length (size ▸ length_of_tagAt? tagged) goes rfl).1
              constructor <;> omega
          | none =>
              rw [printed_cons tagged] at prints
              simp only [List.length_cons] at size
              split at prints
              next escapes =>
                have fewer := (ih rest.length (by omega) prints rfl).1
                constructor <;> omega
              next plain =>
                obtain ⟨others, goes, rfl⟩ := ok_of_map prints
                obtain ⟨fewer, whole⟩ := ih rest.length (by omega) goes rfl
                refine ⟨by simp only [List.length_cons]; omega, fun all => ?_⟩
                obtain ⟨rfl, unread⟩ := whole (by simp only [List.length_cons] at all; omega)
                exact ⟨rfl, unread_cons_iff.mpr ⟨tagged, plain, unread⟩⟩

/-- A text is printed as it is just when it has no markup. -/
theorem plainText_eq_iff (source : String) :
    plainText source = .ok source ↔ Unmarked source.toList := by
  constructor
  · intro prints
    obtain ⟨out, found, same⟩ := ok_of_map prints
    have kept : out.filter (!isControl ·) = source.toList := by
      rw [same, String.toList_ofList]
    have fewer := List.length_filter_le (!isControl ·) out
    rw [kept] at fewer
    obtain ⟨short, whole⟩ := length_printed found
    obtain ⟨rfl, unread⟩ := whole (Nat.le_antisymm short fewer)
    refine ⟨unread, fun char member => ?_⟩
    simpa using List.filter_eq_self.mp kept char member
  · intro unmarked
    rw [plainText, unmarked.printed_eq]
    have kept : source.toList.filter (!isControl ·) = source.toList :=
      List.filter_eq_self.mpr fun char member => by simp [unmarked.printable char member]
    simp only [Except.map, kept, String.ofList_toList]

/-! Labels in color -/

structure IsWord (name : String) : Prop where
  filled : name.toList ≠ []
  letters : ∀ char ∈ name.toList, 'a' ≤ char ∧ char ≤ 'z'

theorem isWord_of_all {name : String} (filled : name ≠ "")
    (letters : (name.toList.all fun char => 'a' ≤ char && char ≤ 'z') = true) : IsWord name :=
  ⟨by simpa using filled, by simpa using letters⟩

namespace IsWord

variable {name : String} (word : IsWord name)
include word

theorem ne_of_letter {char : Char} (member : char ∈ name.toList) {other : Char}
    (outside : other < 'a' ∨ 'z' < other) : char ≠ other := by
  rintro rfl
  obtain ⟨low, high⟩ := word.letters char member
  rcases outside with below | above
  · exact Char.not_le.mpr below low
  · exact Char.not_le.mpr above high

theorem notMem {char : Char} (outside : char < 'a' ∨ 'z' < char) : char ∉ name.toList :=
  fun member => word.ne_of_letter member outside rfl

theorem isTag : IsTag name.toList := by
  refine ⟨?_, word.notMem (by decide), word.notMem (by decide)⟩
  obtain ⟨first, rest, same⟩ := List.exists_cons_of_ne_nil word.filled
  have letter := word.letters first (by simp [same])
  exact ⟨first, by simp [same], by simp [startsTag, letter]⟩

theorem isTag_slash : IsTag ('/' :: name.toList) where
  starts := ⟨'/', rfl, by decide⟩
  opened := List.not_mem_cons_of_ne_of_not_mem (by decide) (word.notMem (by decide))
  closed := List.not_mem_cons_of_ne_of_not_mem (by decide) (word.notMem (by decide))

theorem trimString_eq : Text.trimString name = name := by
  have solid : ∀ char ∈ name.toList, Text.isSpaceChar char = false := by
    intro char member
    obtain ⟨low, high⟩ := word.letters char member
    have low : 97 ≤ char.toNat := low
    have high : char.toNat ≤ 122 := high
    simp only [Text.isSpaceChar, Text.isSpace, Bool.or_eq_false_iff, Bool.and_eq_false_iff,
      decide_eq_false_iff_not, beq_eq_false_iff_ne]
    omega
  have trimmed : Text.trimBy Text.isSpaceChar name.toList = name.toList :=
    Text.trimBy_of_ends (fun char first => solid char (List.mem_of_mem_head? first))
      fun char last => solid char (List.mem_of_mem_getLast? last)
  rw [Text.trimString, trimmed, String.ofList_toList]

theorem closeTag_slash (stack : List OpenTag) :
    closeTag (String.ofList ('/' :: name.toList)) (⟨Style.canonical name, none⟩ :: stack) =
      .ok stack := by
  have wanted : Text.trimString
      (String.ofList ((String.ofList ('/' :: name.toList)).toList.drop 1)) = name := by
    simp [word.trimString_eq]
  have filled : name.isEmpty = false := by simpa using word.filled
  have checked : checkClosed ⟨Style.canonical name, none⟩ = .ok () := by
    cases action : (Style.canonical name).startsWith "@" <;> simp [checkClosed, action]
  simp only [closeTag, wanted, filled, close?, beq_self_eq_true, if_true, checked]
  rfl

theorem printed_between {label : List Char} (plain : ∀ char ∈ label, char ≠ '[' ∧ char ≠ '\\')
    (rest : List Char) (stack : List OpenTag) :
    printed (pieces ('[' :: (name.toList ++ ']' ::
        (label ++ '[' :: ('/' :: name.toList ++ ']' :: rest))))) stack =
      (printed (pieces rest) stack).map (label ++ ·) := by
  have opens := tagOf_of_plain (word.notMem (by decide) : '=' ∉ name.toList)
  have closes := tagOf_of_plain
    (List.not_mem_cons_of_ne_of_not_mem (by decide) (word.notMem (by decide)) :
      '=' ∉ '/' :: name.toList)
  rw [String.ofList_toList] at opens
  have other : name.startsWith "/" = false := by
    rw [← Bool.not_eq_true, String.startsWith_string_iff]
    exact fun leads => word.notMem (by decide) (leads.subset List.mem_cons_self)
  have slash : (String.ofList ('/' :: name.toList)).startsWith "/" = true := by
    simp [String.startsWith_string_iff]
  have nothing (found : Except MarkupFault (List Char)) : found.map ([] ++ ·) = found := by
    cases found <;> rfl
  -- The tag that closes the word finds the tag that has opened it on top.
  have closed : printed (pieces ('[' :: ('/' :: name.toList ++ ']' :: rest)))
      (⟨Style.canonical name, none⟩ :: stack) = printed (pieces rest) stack := by
    rw [pieces_of_tagAt? (tagAt?_tag word.isTag_slash rest), closes, List.cons_append,
      printed_literal, nothing, List.singleton_append, printed, slash, word.closeTag_slash]
    rfl
  rw [pieces_of_tagAt? (tagAt?_tag word.isTag _), opens, List.cons_append, printed_literal,
    nothing, List.singleton_append, printed, other, ← closed]
  exact printed_append plain _ _

end IsWord

theorem plainText_of_printed {source rest : String} {lead : List Char}
    (prints : printed (pieces source.toList) [] = (printed (pieces rest.toList) []).map (lead ++ ·))
    (printable : ∀ char ∈ lead, isControl char = false) :
    plainText source = (plainText rest).map (String.ofList lead ++ ·) := by
  have kept : lead.filter (!isControl ·) = lead :=
    List.filter_eq_self.mpr fun char member => by simp [printable char member]
  rw [plainText, plainText, prints]
  cases printed (pieces rest.toList) [] with
  | error fault => rfl
  | ok chars => simp [Except.map, kept]

def isSafe (char : Char) : Bool := char != '[' && char != '\\' && !isControl char

/-- A label in color is printed in front of what follows it, which is read on its own. -/
theorem plainText_label {color : String} (word : IsWord color) {before label between : String}
    (safe : (before ++ label ++ between).toList.all isSafe = true) (source : String) :
    plainText (before ++ "[" ++ color ++ "]" ++ label ++ "[/" ++ color ++ "]" ++ between ++
      source) = (plainText source).map (before ++ label ++ between ++ ·) := by
  have plain : ∀ char ∈ (before ++ label ++ between).toList,
      char ≠ '[' ∧ char ≠ '\\' ∧ isControl char = false := by
    intro char member
    simpa [isSafe, and_assoc] using List.all_eq_true.mp safe char member
  simp only [String.toList_append, List.forall_mem_append] at plain
  obtain ⟨⟨first, second⟩, third⟩ := plain
  have parts : (before ++ "[" ++ color ++ "]" ++ label ++ "[/" ++ color ++ "]" ++ between ++
      source).toList = before.toList ++ '[' :: (color.toList ++ ']' :: (label.toList ++
        '[' :: ('/' :: color.toList ++ ']' :: (between.toList ++ source.toList)))) := by
    simp
  have prints : printed (pieces (before ++ "[" ++ color ++ "]" ++ label ++ "[/" ++ color ++ "]" ++
      between ++ source).toList) [] = (printed (pieces source.toList) []).map
        (before.toList ++ label.toList ++ between.toList ++ ·) := by
    rw [parts, printed_append fun char member => ⟨(first char member).1, (first char member).2.1⟩,
      word.printed_between fun char member => ⟨(second char member).1, (second char member).2.1⟩,
      printed_append fun char member => ⟨(third char member).1, (third char member).2.1⟩]
    cases printed (pieces source.toList) [] <;> simp [Except.map]
  have printable : ∀ char ∈ before.toList ++ label.toList ++ between.toList,
      isControl char = false := by
    simp only [List.forall_mem_append]
    exact ⟨⟨fun char member => (first char member).2.2, fun char member =>
      (second char member).2.2⟩, fun char member => (third char member).2.2⟩
  have whole : String.ofList (before.toList ++ label.toList ++ between.toList) =
      before ++ label ++ between := by
    simp [String.append_assoc]
  rw [plainText_of_printed prints printable, whole]

end Markup

/-! Tables -/

namespace Table

def cells (table : Table) : List String :=
  table.title.toList ++ table.columns ++ table.rows.flatten

def framed (title : List String) (header : List (List String))
    (grid : List (List (List String))) : List String :=
  let widths := (List.range header.length).map (columnWidth (header :: grid))
  title ++ [rule widths "┌" "┬" "┐"] ++ drawRow widths header ++
    [rule widths "├" "┼" "┤"] ++ grid.flatMap (drawRow widths) ++ [rule widths "└" "┴" "┘"]

variable {table : Table}

theorem lines_eq_ok {read : String → List String}
    (reads : ∀ cell ∈ table.cells, cellLines cell = .ok (read cell)) :
    table.lines = .ok (framed (table.title.elim [] read) (table.columns.map read)
      (table.rows.map (·.map read))) := by
  obtain ⟨title, columns, rows⟩ := table
  simp only [cells, List.forall_mem_append] at reads
  obtain ⟨⟨titled, headed⟩, filled⟩ := reads
  have grid : rows.mapM (fun row => row.mapM cellLines) = .ok (rows.map (·.map read)) :=
    mapM_eq_ok fun row member => mapM_eq_ok fun cell among =>
      filled cell (List.mem_flatten.mpr ⟨row, member, among⟩)
  simp only [lines, mapM_eq_ok headed, grid]
  cases title with
  | none => simp [framed]; rfl
  | some title =>
      have titled : cellLines title = .ok (read title) := titled title (by simp)
      simp [framed, titled]; rfl

theorem reads_of_lines_eq_ok {drawn : List String} (lines : table.lines = .ok drawn)
    {cell : String} (member : cell ∈ table.cells) : ∃ read, cellLines cell = .ok read := by
  obtain ⟨title, columns, rows⟩ := table
  simp only [cells, List.mem_append, Option.mem_toList, List.mem_flatten] at member
  -- What is in the grid has been read whether there is a title or not.
  have below {next : List (List String) → List (List (List String)) → List String}
      (inside : cell ∈ columns ∨ ∃ row ∈ rows, cell ∈ row)
      (reads : (do
        let header ← columns.mapM cellLines
        let grid ← rows.mapM (List.mapM cellLines)
        return next header grid) = Except.ok drawn) : ∃ read, cellLines cell = .ok read := by
    obtain ⟨header, headed, rest⟩ := bind_eq_ok reads
    obtain ⟨grid, filled, -⟩ := bind_eq_ok rest
    rcases inside with among | ⟨row, inside, among⟩
    · exact reads_of_mapM headed among
    · obtain ⟨_, reads⟩ := reads_of_mapM filled inside
      exact reads_of_mapM reads among
  cases title with
  | none => exact below (member.imp_left fun shown => shown.resolve_left (by simp)) lines
  | some title =>
      obtain ⟨given, titled, rest⟩ := bind_eq_ok lines
      rcases member with (same | among) | inside
      · cases same
        exact ⟨given, titled⟩
      · exact below (.inl among) rest
      · exact below (.inr inside) rest

theorem lines_eq_error {cell : String} (member : cell ∈ table.cells) {fault : MarkupFault}
    (wrong : cellLines cell = .error fault) : ∃ first, table.lines = .error first := by
  cases drawn : table.lines with
  | error first => exact ⟨first, rfl⟩
  | ok lines =>
      obtain ⟨read, reads⟩ := reads_of_lines_eq_ok drawn member
      rw [wrong] at reads
      cases reads

end Table

end Schematron.Console

import Schematron.Document

/-!
Characters as bytes and back. Main statement: what is written in UTF-8 is read as the same
characters again, so that a reader which is given that encoding reads the characters themselves.
-/

namespace Schematron

namespace Text

/-! Sequences of bytes -/

def Reads (bytes : List UInt8) (char : Char) : Prop :=
  ∀ rest fuel position, utf8From (fuel + 1) position (bytes ++ rest) =
    (utf8From fuel (position + bytes.length) rest).map (char :: ·)

theorem reads_single {lead : UInt8} (narrow : lead < 0x80) : Reads [lead] (Char.ofNat lead.toNat) := by
  intro rest fuel position
  rw [List.singleton_append, utf8From, if_pos narrow, List.length_singleton]
  cases utf8From fuel (position + 1) rest <;> rfl

section Sequence

variable {lead first low high : UInt8} {more rest : List UInt8}

theorem trailRun_append (fits : low ≤ first ∧ first ≤ high) (trails : ∀ byte ∈ more, isTrail byte) :
    trailRun (more.length + 1) low high (first :: more ++ rest) = first :: more := by
  have every : (more ++ rest).take more.length = more := List.take_left
  have all : more.takeWhile isTrail = more := by
    rw [← List.append_nil more, List.takeWhile_append_of_pos trails, List.takeWhile_nil]
  rw [List.cons_append, trailRun, every, all, if_pos (by simpa using fits)]

theorem reads_sequence {value : Nat} (wide : ¬lead < 0x80)
    (shape : leadShape? lead = some (more.length + 1, low, high))
    (fits : low ≤ first ∧ first ≤ high) (trails : ∀ byte ∈ more, isTrail byte)
    (whole : (first :: more).foldl (fun value byte => value * 64 + byte.toNat % 64)
      (leadBits (more.length + 1) lead) = value) :
    Reads (lead :: first :: more) (Char.ofNat value) := by
  intro rest fuel position
  have behind : (first :: more ++ rest).drop (more.length + 1) = rest := List.drop_left
  have after : position + 1 + (more.length + 1) = position + (lead :: first :: more).length := by
    simp only [List.length_cons]
    omega
  rw [List.cons_append, utf8From, if_neg wide, shape]
  dsimp only
  rw [trailRun_append fits trails, behind, if_pos (by simp), whole, after]
  cases utf8From fuel (position + (lead :: first :: more).length) rest <;> rfl

end Sequence

/-! Characters -/

theorem leadShape?_two : ∀ bits < 32, 2 ≤ bits →
    leadShape? (.ofNat (bits + 192)) = some (1, 0x80, 0xBF) := by
  decide

theorem leadShape?_three : ∀ bits < 16, leadShape? (.ofNat (bits + 224)) =
    some (2, if bits = 0 then 0xA0 else 0x80, if bits = 13 then 0x9F else 0xBF) := by
  decide

theorem leadShape?_four : ∀ bits < 5, leadShape? (.ofNat (bits + 240)) =
    some (3, if bits = 0 then 0x90 else 0x80, if bits = 4 then 0x8F else 0xBF) := by
  decide

theorem wide_ofNat {value : Nat} (least : 128 ≤ value) (most : value < 256) :
    ¬UInt8.ofNat value < 0x80 := by
  rw [UInt8.lt_iff_toNat_lt, UInt8.toNat_ofNat_of_lt' most]
  exact Nat.not_lt.mpr least

theorem le_ofNat {bound : UInt8} {value : Nat} (most : value < 256) :
    bound ≤ UInt8.ofNat value ↔ bound.toNat ≤ value := by
  rw [UInt8.le_iff_toNat_le, UInt8.toNat_ofNat_of_lt' most]

theorem ofNat_le {bound : UInt8} {value : Nat} (most : value < 256) :
    UInt8.ofNat value ≤ bound ↔ value ≤ bound.toNat := by
  rw [UInt8.le_iff_toNat_le, UInt8.toNat_ofNat_of_lt' most]

theorem isTrail_ofNat (bits : Nat) : isTrail (.ofNat (bits % 64 + 128)) = true := by
  have small : bits % 64 + 128 < 256 := by omega
  rw [isTrail, Bool.and_eq_true, decide_eq_true_iff, decide_eq_true_iff, le_ofNat small,
    ofNat_le small]
  exact ⟨Nat.le_add_left _ _, by simp; omega⟩

section Values

variable {value : Nat}

theorem reads_two (least : 0x80 ≤ value) (most : value < 0x800) :
    Reads [.ofNat (value / 64 % 32 + 192), .ofNat (value % 64 + 128)] (Char.ofNat value) := by
  have shape := leadShape?_two (value / 64 % 32) (by omega) (by omega)
  refine reads_sequence (wide_ofNat (by omega) (by omega)) shape ?_ (by simp) ?_
  · rw [le_ofNat (by omega), ofNat_le (by omega)]
    simp
    omega
  · simp [leadBits]
    omega

theorem reads_three (least : 0x800 ≤ value) (most : value < 0x10000)
    (plain : value < 0xD800 ∨ 0xDFFF < value) :
    Reads [.ofNat (value / 4096 % 16 + 224), .ofNat (value / 64 % 64 + 128),
      .ofNat (value % 64 + 128)] (Char.ofNat value) := by
  have shape := leadShape?_three (value / 4096 % 16) (by omega)
  refine reads_sequence (wide_ofNat (by omega) (by omega)) shape ?_
    (List.forall_mem_singleton.mpr (isTrail_ofNat _)) ?_
  · rw [le_ofNat (by omega), ofNat_le (by omega)]
    constructor
    · split
      next => simp; omega
      next => simp
    · split <;> (simp; omega)
  · simp [leadBits]
    omega

theorem reads_four (least : 0x10000 ≤ value) (most : value < 0x110000) :
    Reads [.ofNat (value / 262144 % 8 + 240), .ofNat (value / 4096 % 64 + 128),
      .ofNat (value / 64 % 64 + 128), .ofNat (value % 64 + 128)] (Char.ofNat value) := by
  have shape := leadShape?_four (value / 262144 % 8) (by omega)
  refine reads_sequence (wide_ofNat (by omega) (by omega)) shape ?_
    (List.forall_mem_cons.mpr ⟨isTrail_ofNat _, List.forall_mem_singleton.mpr (isTrail_ofNat _)⟩) ?_
  · rw [le_ofNat (by omega), ofNat_le (by omega)]
    constructor
    · split
      next => simp; omega
      next => simp
    · split <;> (simp; omega)
  · simp [leadBits]
    omega

end Values

theorem reads_char (char : Char) : Reads (String.utf8EncodeChar char) char := by
  have valid := char.valid
  simp only [UInt32.isValidChar, Nat.isValidChar] at valid
  have same : Char.ofNat char.val.toNat = char := Char.ofNat_toNat char
  generalize written : char.val.toNat = value at valid same
  simp only [String.utf8EncodeChar, written]
  rw [← same]
  split
  next one =>
    have small : value < 256 := by omega
    have bits : (UInt8.ofNat value).toNat = value := UInt8.toNat_ofNat_of_lt' small
    have narrow : UInt8.ofNat value < 0x80 := by
      rw [UInt8.lt_iff_toNat_lt, bits]
      exact Nat.lt_succ_of_le one
    simpa only [bits] using reads_single narrow
  next =>
    split
    next => exact reads_two (by omega) (by omega)
    next =>
      split
      next => exact reads_three (by omega) (by omega) (by omega)
      next => exact reads_four (by omega) (by omega)

theorem length_utf8EncodeChar_pos (char : Char) : 0 < (String.utf8EncodeChar char).length := by
  rw [String.length_utf8EncodeChar]
  exact Char.utf8Size_pos char

theorem utf8From_toUtf8 (chars : List Char) (fuel position : Nat)
    (enough : (toUtf8 chars).length ≤ fuel) : utf8From fuel position (toUtf8 chars) = .ok chars := by
  induction chars generalizing fuel position with
  | nil => cases fuel <;> rfl
  | cons char rest ih =>
      have positive := length_utf8EncodeChar_pos char
      rw [toUtf8, List.flatMap_cons, List.length_append] at enough
      obtain ⟨fuel, rfl⟩ : ∃ less, fuel = less + 1 := ⟨fuel - 1, by omega⟩
      have later := ih fuel (position + (String.utf8EncodeChar char).length) (by
        rw [toUtf8]
        omega)
      rw [toUtf8, List.flatMap_cons, reads_char char, ← toUtf8, later]
      rfl

/-- What is written is read again. -/
theorem ofUtf8_toUtf8 (chars : List Char) : ofUtf8 (toUtf8 chars) = .ok chars :=
  utf8From_toUtf8 chars _ 0 (Nat.le_refl _)

end Text

/-- A reader that is given the encoding of a text reads its characters. -/
theorem Xml.parseBytes?_toUtf8 (dialect : Dialect) (content : Text) :
    content.toUtf8?.bind (parseBytes? dialect (some "utf-8")) =
      content.toChars?.bind (parse? dialect) := by
  rw [Text.toUtf8?]
  cases content.toChars? with
  | none => rfl
  | some chars =>
      have given : Text.ofDocumentBytes (some "utf-8") (Text.toUtf8 chars) =
          (Text.ofUtf8 (Text.toUtf8 chars)).toOption := rfl
      rw [Option.map_some, Option.bind_some, Option.bind_some, parseBytes?, given,
        Text.ofUtf8_toUtf8]
      rfl

theorem guardedReading?_eq (content : Text) :
    guardedReading? content = content.toChars?.bind (Xml.parse? .guarded) :=
  Xml.parseBytes?_toUtf8 .guarded content

end Schematron

/-! Text as it arrives from outside: a list of code points, lone surrogates included. -/

namespace Schematron

structure CodePoint where
  value : Nat
  inRange : value < 0x110000
deriving DecidableEq

namespace CodePoint

def ofChar (char : Char) : CodePoint :=
  ⟨char.toNat, by
    have valid := char.valid
    simp only [UInt32.isValidChar, Nat.isValidChar] at valid
    simp only [Char.toNat]
    omega⟩

def ofNat (value : Nat) : CodePoint :=
  -- A number past the last code point reads as the replacement character.
  if inRange : value < 0x110000 then ⟨value, inRange⟩ else ⟨0xFFFD, by decide⟩

def isSurrogate (point : CodePoint) : Bool :=
  0xD800 ≤ point.value && point.value < 0xE000

def toChar? (point : CodePoint) : Option Char :=
  if point.isSurrogate then none else some (Char.ofNat point.value)

instance : Coe Char CodePoint := ⟨ofChar⟩

theorem isSurrogate_iff (point : CodePoint) :
    point.isSurrogate = true ↔ 0xD800 ≤ point.value ∧ point.value < 0xE000 := by
  simp [isSurrogate]

theorem toChar?_ofChar (char : Char) : (ofChar char).toChar? = some char := by
  have valid := char.valid
  simp only [UInt32.isValidChar, Nat.isValidChar] at valid
  have plain : ¬(ofChar char).isSurrogate = true := by
    simp only [isSurrogate_iff, ofChar, Char.toNat]
    omega
  rw [toChar?, if_neg plain, ofChar, Char.ofNat_toNat]

theorem ofChar_of_toChar? {point : CodePoint} {char : Char} (found : point.toChar? = some char) :
    ofChar char = point := by
  simp only [toChar?] at found
  split at found
  · cases found
  next plain =>
    cases found
    have inRange := point.inRange
    rw [isSurrogate_iff] at plain
    have valid : point.value.isValidChar := by
      simp only [Nat.isValidChar]
      omega
    simp only [ofChar]
    congr 1
    rw [Char.ofNat, dif_pos valid]
    rfl

end CodePoint

abbrev Text := List CodePoint

namespace Text

def ofChars (chars : List Char) : Text := chars.map CodePoint.ofChar

def ofString (source : String) : Text := ofChars source.toList

def toChars? (text : Text) : Option (List Char) := text.mapM CodePoint.toChar?

def toString? (text : Text) : Option String := text.toChars?.map String.ofList

def toStringLossy (text : Text) : String :=
  String.ofList (text.map fun point => point.toChar?.getD (Char.ofNat 0xFFFD))

instance : Coe String Text := ⟨ofString⟩

instance : Coe (Option String) (Option Text) := ⟨Option.map ofString⟩

def surrogateRun? (text : Text) : Option (Nat × Nat) :=
  let plain := text.takeWhile (!·.isSurrogate)
  let rest := text.drop plain.length
  if rest.isEmpty then none
  else some (plain.length, (rest.takeWhile (·.isSurrogate)).length)

theorem toString?_ofString (source : String) : (ofString source).toString? = some source := by
  have read : (ofChars source.toList).toChars? = some source.toList := by
    induction source.toList with
    | nil => rfl
    | cons char rest ih =>
        simp only [toChars?, ofChars, List.map_cons, List.mapM_cons, CodePoint.toChar?_ofChar]
          at ih ⊢
        rw [ih]
        rfl
  rw [toString?, ofString, read, Option.map_some, String.ofList_toList]

theorem toStringLossy_ofString (source : String) : (ofString source).toStringLossy = source := by
  simp only [toStringLossy, ofString, ofChars, List.map_map, Function.comp_def,
    CodePoint.toChar?_ofChar, Option.getD_some, List.map_id_fun', id_eq, String.ofList_toList]

theorem eq_of_ofString_eq {first second : String} (same : ofString first = ofString second) :
    first = second := by
  have read := congrArg toString? same
  simpa only [toString?_ofString, Option.some.injEq] using read

theorem ofString_of_toString? {text : Text} {source : String}
    (found : text.toString? = some source) : ofString source = text := by
  simp only [toString?, Option.map_eq_some_iff] at found
  obtain ⟨chars, found, rfl⟩ := found
  rw [ofString, String.toList_ofList]
  induction text generalizing chars with
  | nil =>
      cases found
      rfl
  | cons point rest ih =>
      simp only [toChars?, List.mapM_cons, Option.pure_def, Option.bind_eq_bind,
        Option.bind_eq_some_iff, Option.some.injEq] at found
      obtain ⟨char, first, others, found, rfl⟩ := found
      simp only [ofChars, List.map_cons, List.cons.injEq]
      exact ⟨CodePoint.ofChar_of_toChar? first, ih others found⟩

end Text

end Schematron

/-! Cutting text at a separator, joining it again, and looking for one text inside another. -/

namespace Schematron.Text

def splitAt {α : Type} [BEq α] (separator : α) : List α → List (List α)
  | [] => [[]]
  | item :: rest =>
      if item == separator then [] :: splitAt separator rest
      else match splitAt separator rest with
        | [] => [[item]]
        | piece :: pieces => (item :: piece) :: pieces

def join {α : Type} (separator : List α) : List (List α) → List α
  | [] => []
  | [piece] => piece
  | piece :: next :: pieces => piece ++ separator ++ join separator (next :: pieces)

def breakOn? {α : Type} [BEq α] (wanted : List α) : List α → Option (List α × List α)
  | [] => if wanted.isEmpty then some ([], []) else none
  | item :: rest =>
      if wanted.isPrefixOf (item :: rest) then some ([], (item :: rest).drop wanted.length)
      else match breakOn? wanted rest with
        | none => none
        | some (before, after) => some (item :: before, after)

def contains {α : Type} [BEq α] (whole wanted : List α) : Bool := (breakOn? wanted whole).isSome

def replaceAll {α : Type} [BEq α] (wanted replacement : List α) (whole : List α) : List α :=
  go whole.length whole
where
  go : Nat → List α → List α
    | 0, rest => rest
    | fuel + 1, rest =>
        if wanted.isEmpty then rest
        else match breakOn? wanted rest with
          | none => rest
          | some (before, after) => before ++ replacement ++ go fuel after

def splitString (separator : Char) (source : String) : List String :=
  (splitAt separator source.toList).map String.ofList

def replaceString (wanted replacement source : String) : String :=
  String.ofList (replaceAll wanted.toList replacement.toList source.toList)

def lowerAscii (source : String) : String := String.ofList (source.toList.map Char.toLower)

end Schematron.Text

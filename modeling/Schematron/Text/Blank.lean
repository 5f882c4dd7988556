import Schematron.Text.CodePoint

/-! White space: trimming, words, and the collapsing of layout runs that makes a message one
line. -/

namespace Schematron.Text

/-- The code points that Unicode calls white space, with the four ASCII separators. -/
def isSpace (value : Nat) : Bool :=
  (9 ≤ value && value ≤ 13) || (28 ≤ value && value ≤ 32) || value == 133 || value == 160 ||
  value == 5760 || (8192 ≤ value && value ≤ 8202) || value == 8232 || value == 8233 ||
  value == 8239 || value == 8287 || value == 12288

def isLayout (value : Nat) : Bool :=
  value == 9 || value == 10 || value == 13 || value == 32

def trimBy {α : Type} (drop : α → Bool) (items : List α) : List α :=
  ((items.dropWhile drop).reverse.dropWhile drop).reverse

def wordsBy {α : Type} (isGap : α → Bool) : List α → List (List α)
  | [] => []
  | item :: rest =>
      if isGap item then wordsBy isGap rest
      else match rest with
        | [] => [[item]]
        | next :: _ =>
            if isGap next then [item] :: wordsBy isGap rest
            else match wordsBy isGap rest with
              | [] => [[item]]
              | word :: words => (item :: word) :: words

def collapseBy {α : Type} (isGap : α → Bool) (gap : α) : List α → List α
  | [] => []
  | item :: rest =>
      if isGap item then
        match rest with
        | [] => [gap]
        | next :: _ =>
            if isGap next then collapseBy isGap gap rest
            else gap :: collapseBy isGap gap rest
      else item :: collapseBy isGap gap rest

def trim (text : Text) : Text := trimBy (fun point => isSpace point.value) text

def words (text : Text) : List Text := wordsBy (fun point => isSpace point.value) text

def sanitize (text : Text) : Text :=
  trim (collapseBy (fun point => isLayout point.value) (CodePoint.ofChar ' ') text)

def isSpaceChar (char : Char) : Bool := isSpace char.toNat

def isLayoutChar (char : Char) : Bool := isLayout char.toNat

def trimString (source : String) : String :=
  String.ofList (trimBy isSpaceChar source.toList)

def normalizeLayout (source : String) : String :=
  " ".intercalate ((wordsBy isLayoutChar source.toList).map String.ofList)

def isBlank (source : String) : Bool := source.toList.all isLayoutChar

end Schematron.Text

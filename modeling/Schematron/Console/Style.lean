import Schematron.Console.Color

/-! Styles by name. Two ways to name one style are told to be the same by its canonical name. -/

namespace Schematron.Console

structure Style where
  attributes : List (Nat × Bool)
  color : Option String
  background : Option String
  link : Option String

namespace Style

def plain : Style := ⟨[], none, none, none⟩

def attributeNames : List String :=
  ["bold", "dim", "italic", "underline", "blink", "blink2", "reverse", "conceal", "strike",
   "underline2", "frame", "encircle", "overline"]

def longName (name : String) : String :=
  match name with
  | "b" => "bold"
  | "d" => "dim"
  | "i" => "italic"
  | "u" => "underline"
  | "r" => "reverse"
  | "c" => "conceal"
  | "s" => "strike"
  | "uu" => "underline2"
  | "o" => "overline"
  | _ => name

def attribute? (name : String) : Option Nat := attributeNames.idxOf? (longName name)

def setAttribute (style : Style) (index : Nat) (value : Bool) : Style :=
  { style with attributes := (index, value) :: style.attributes.filter (·.1 != index) }

def ofWords? : List String → Style → Option Style
  | [], style => some style
  | word :: rest, style =>
      match Text.lowerAscii word with
      | "on" =>
          match rest with
          | name :: rest =>
              let name := Text.lowerAscii name
              if isColor name then ofWords? rest { style with background := some name } else none
          | [] => none
      | "not" =>
          match rest with
          | name :: rest => do ofWords? rest (style.setAttribute (← attribute? name) false)
          | [] => none
      | "link" =>
          match rest with
          | address :: rest => ofWords? rest { style with link := some address }
          | [] => none
      | name =>
          match attribute? name with
          | some index => ofWords? rest (style.setAttribute index true)
          | none => if isColor name then ofWords? rest { style with color := some name } else none

def words (style : Style) : List String :=
  let attributes := attributeNames.zipIdx.flatMap fun (name, index) =>
    match style.attributes.lookup index with
    | some true => [name]
    | some false => ["not", name]
    | none => []
  attributes ++ style.color.toList ++ (style.background.elim [] fun name => ["on", name]) ++
    (style.link.elim [] fun address => ["link", address])

def canonical (name : String) : String :=
  let trimmed := Text.trimString name
  if trimmed == "none" || trimmed.isEmpty then "none"
  else
    let found := (Text.wordsBy Text.isSpaceChar name.toList).map String.ofList
    match ofWords? found plain with
    | some style => if style.words.isEmpty then "none" else " ".intercalate style.words
    | none => Text.lowerAscii trimmed

end Style

end Schematron.Console

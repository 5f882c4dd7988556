/-! Character classes of XML 1.0: characters, and the names of the fifth edition. -/

namespace Schematron.Xml

def within (ranges : List (Nat × Nat)) (value : Nat) : Bool :=
  ranges.any fun range => range.1 ≤ value && value ≤ range.2

def isChar (char : Char) : Bool :=
  let value := char.toNat
  value == 9 || value == 10 || value == 13 || (0x20 ≤ value && value ≤ 0xD7FF) ||
  (0xE000 ≤ value && value ≤ 0xFFFD) || 0x10000 ≤ value

def isBlank (char : Char) : Bool :=
  char == ' ' || char == '\t' || char == '\n' || char == '\r'

def isAsciiLetter (char : Char) : Bool :=
  ('a' ≤ char && char ≤ 'z') || ('A' ≤ char && char ≤ 'Z')

def isAsciiDigit (char : Char) : Bool := '0' ≤ char && char ≤ '9'

def nameStartRanges : List (Nat × Nat) :=
  [(0xC0, 0xD6), (0xD8, 0xF6), (0xF8, 0x2FF), (0x370, 0x37D), (0x37F, 0x1FFF), (0x200C, 0x200D),
   (0x2070, 0x218F), (0x2C00, 0x2FEF), (0x3001, 0xD7FF), (0xF900, 0xFDCF), (0xFDF0, 0xFFFD),
   (0x10000, 0xEFFFF)]

def isNameStart (char : Char) : Bool :=
  isAsciiLetter char || char == '_' || (127 < char.toNat && within nameStartRanges char.toNat)

def isNameChar (char : Char) : Bool :=
  isNameStart char || isAsciiDigit char || char == '-' || char == '.' || char == '\u00b7' ||
  (0x300 ≤ char.toNat && char.toNat ≤ 0x36F) || (0x203F ≤ char.toNat && char.toNat ≤ 0x2040)

end Schematron.Xml

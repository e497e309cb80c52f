/-
Sets of characters as closed ranges of code points.

* `inRanges`: membership.
* `blanks`, `isBlank`: white space, the Unicode property.
* `trimBlanks`, `isVacant`, `lowerAscii`: the text operations built on them.
-/

namespace Datapath.Text

/-- A character lies in one of the ranges. -/
def inRanges (ranges : List (Nat × Nat)) (c : Char) : Bool :=
  ranges.any fun r => r.1 ≤ c.toNat && c.toNat ≤ r.2

/-- White space, the Unicode property of that name: 25 characters. -/
def blanks : List (Nat × Nat) :=
  [(0x09, 0x0D), (0x20, 0x20), (0x85, 0x85), (0xA0, 0xA0), (0x1680, 0x1680),
   (0x2000, 0x200A), (0x2028, 0x2029), (0x202F, 0x202F), (0x205F, 0x205F),
   (0x3000, 0x3000)]

/-- The character is white space. -/
def isBlank (c : Char) : Bool := inRanges blanks c

/-- White space removed from both ends. -/
def trimBlanks (s : String) : String :=
  String.ofList (((s.toList.dropWhile isBlank).reverse.dropWhile isBlank).reverse)

/-- A text of nothing but white space. -/
def isVacant (s : String) : Bool := s.toList.all isBlank

/-- Capital letters of the ASCII alphabet made small. -/
def lowerAscii (s : String) : String := s.map Char.toLower

end Datapath.Text

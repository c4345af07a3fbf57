/-!
# Blank characters

The characters of the Unicode property `White_Space`, twenty-five in all, and
texts with the blank characters at both ends removed.
-/

namespace AccessPolicy.Text

/-- The code points with the Unicode property `White_Space`. -/
def blankCodePoints : List Nat :=
  [0x09, 0x0A, 0x0B, 0x0C, 0x0D, 0x20, 0x85, 0xA0, 0x1680,
    0x2000, 0x2001, 0x2002, 0x2003, 0x2004, 0x2005, 0x2006, 0x2007, 0x2008,
    0x2009, 0x200A, 0x2028, 0x2029, 0x202F, 0x205F, 0x3000]

/-- A character is blank when its code point is in the table. -/
def isBlank (c : Char) : Bool :=
  blankCodePoints.contains c.toNat

/-- A text without the blank characters at its end. -/
def trimEnd (text : List Char) : List Char :=
  (text.reverse.dropWhile isBlank).reverse

/-- A text without the blank characters at its two ends. -/
def trim (text : List Char) : List Char :=
  trimEnd (text.dropWhile isBlank)

end AccessPolicy.Text

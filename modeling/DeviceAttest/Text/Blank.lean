import DeviceAttest.Text.Ranges

/-!
# Blanks

The characters that count as white space, in any script.
-/

namespace DeviceAttest.Text

/-- The ranges of white space. -/
def blankRanges : CharRanges :=
  [(0x09, 0x0d), (0x20, 0x20), (0x85, 0x85), (0xa0, 0xa0), (0x1680, 0x1680), (0x2000, 0x200a),
   (0x2028, 0x2029), (0x202f, 0x202f), (0x205f, 0x205f), (0x3000, 0x3000)]

/-- Whether a character is white space. -/
def isBlank (c : Char) : Bool := blankRanges.contains c

/-- The characters without the blanks around them. -/
def trim (s : List Char) : List Char := ((s.dropWhile isBlank).reverse.dropWhile isBlank).reverse

end DeviceAttest.Text

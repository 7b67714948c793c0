import DispatchTable.Text.Basic

/-!
# Blanks

A blank is a character with the property `White_Space`. Trimming removes the blanks at one end or
at both ends of a text and nothing else.
-/

namespace DispatchTable

/-- The characters with the property `White_Space`. -/
def isBlank (c : Char) : Bool :=
  let n := c.toNat
  (9 ≤ n && n ≤ 13) || n == 0x20 || n == 0x85 || n == 0xA0 || n == 0x1680 ||
    (0x2000 ≤ n && n ≤ 0x200A) || n == 0x2028 || n == 0x2029 || n == 0x202F || n == 0x205F ||
    n == 0x3000

namespace Text

/-- A text without its leading blanks. -/
def trimStart (s : Text) : Text := s.dropWhile isBlank

/-- A text without its trailing blanks. -/
def trimEnd (s : Text) : Text := (s.reverse.dropWhile isBlank).reverse

/-- A text without the blanks at both ends. -/
def trim (s : Text) : Text := s.trimStart.trimEnd

end Text

end DispatchTable

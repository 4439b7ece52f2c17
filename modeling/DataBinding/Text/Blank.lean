/-
# Blank characters

Blanks separate words in texts of every writing system.  `trim` removes them at both ends, and a
text of blanks only counts as empty wherever a text is tested for content.
-/
import DataBinding.Text.Basic

namespace DataBinding.Text

/-- White space: tabs and line ends, the four separator controls, and the space characters. -/
def isBlank (c : Char) : Bool :=
  let n := c.toNat
  (0x09 ≤ n && n ≤ 0x0D) || (0x1C ≤ n && n ≤ 0x20) || n == 0x85 || n == 0xA0 || n == 0x1680 ||
    (0x2000 ≤ n && n ≤ 0x200A) || n == 0x2028 || n == 0x2029 || n == 0x202F || n == 0x205F ||
    n == 0x3000

/-- The text without leading blanks. -/
def trimLeft (t : Text) : Text :=
  t.dropWhile isBlank

/-- The text without blanks at either end. -/
def trim (t : Text) : Text :=
  (trimLeft (trimLeft t).reverse).reverse

/-- The text holds nothing but blanks. -/
def allBlank (t : Text) : Bool :=
  t.all isBlank

end DataBinding.Text

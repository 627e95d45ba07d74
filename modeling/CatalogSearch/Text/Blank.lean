import CatalogSearch.Text.CodePoints

/-!
# Blank text

Blanks are the white space of Unicode together with the four information separators U+001C to
U+001F.  The zero width space and the byte order mark are not blanks.
-/

set_option autoImplicit false

namespace CatalogSearch.Text

def blankRanges : Ranges :=
  [(9, 13), (28, 32), (133, 133), (160, 160), (5760, 5760), (8192, 8202), (8232, 8233),
  (8239, 8239), (8287, 8287), (12288, 12288)]

def isBlankChar (c : Char) : Bool := blankRanges.has c.toNat

/-- White space alone, without the separators. -/
def isWhiteSpace (c : Char) : Bool := isBlankChar c && !(28 ≤ c.toNat && c.toNat ≤ 31)

def isBlank (s : String) : Bool := s.toList.all isBlankChar

def trimmed (isOut : Char → Bool) (s : List Char) : List Char :=
  ((s.dropWhile isOut).reverse.dropWhile isOut).reverse

end CatalogSearch.Text

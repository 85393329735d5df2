/-! # Blank characters

Which characters count as blank, and trimming them from both ends of a text.  The set is the
white space of Unicode together with the four information separators U+001C to U+001F. -/

namespace ScimQuery
namespace Text

/-- A blank character: white space or an information separator. -/
def isBlank (c : Char) : Bool :=
  let n := c.toNat
  (0x09 ≤ n && n ≤ 0x0D) || (0x1C ≤ n && n ≤ 0x20) || n == 0x85 || n == 0xA0 || n == 0x1680 ||
    (0x2000 ≤ n && n ≤ 0x200A) || n == 0x2028 || n == 0x2029 || n == 0x202F || n == 0x205F ||
    n == 0x3000

/-- A list of characters without the blanks at its front. -/
def trimFront (s : List Char) : List Char := s.dropWhile isBlank

/-- A list of characters without the blanks at either end. -/
def trimChars (s : List Char) : List Char := (trimFront (trimFront s).reverse).reverse

/-- A text without the blanks at either end. -/
def trim (s : String) : String := String.ofList (trimChars s.toList)

/-- White space, which the information separators are not. -/
def isWhite (c : Char) : Bool := isBlank c && !(0x1C ≤ c.toNat && c.toNat ≤ 0x1F)

/-- A list of characters without the white space at either end. -/
def trimWhite (s : List Char) : List Char :=
  ((s.dropWhile isWhite).reverse.dropWhile isWhite).reverse

/-- A text of blanks only, the empty text among them. -/
def allBlank (s : String) : Bool := s.toList.all isBlank

end Text
end ScimQuery

/-!
# Storyline.Text.Blank

Blank characters: the spaces of all scripts, the line and paragraph ends, and the
four information separators of ASCII.  Trimming takes them off both ends.
-/

namespace Storyline.Text

/-- Whether a character is blank. -/
def isBlank (c : Char) : Bool :=
  let n := c.toNat
  (9 ≤ n && n ≤ 13) || (28 ≤ n && n ≤ 32) || n == 0x85 || n == 0xA0 || n == 0x1680
    || (0x2000 ≤ n && n ≤ 0x200A) || n == 0x2028 || n == 0x2029 || n == 0x202F
    || n == 0x205F || n == 0x3000

/-- Whether all characters of a text are blank; the empty text is blank too. -/
def allBlank (text : List Char) : Bool := text.all isBlank

/-- Takes the blanks off both ends. -/
def trimChars (text : List Char) : List Char :=
  ((text.dropWhile isBlank).reverse.dropWhile isBlank).reverse

/-- Takes the blanks off both ends of a text. -/
def trim (text : String) : String := String.ofList (trimChars text.toList)

end Storyline.Text

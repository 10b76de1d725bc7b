import Storyline.Text.Hex
import Storyline.Text.Printable
import Storyline.Text.Wide

/-!
# Storyline.Text.Quoted

Texts in quotation marks, as messages show them.  Single marks are used unless
the text holds one and no double mark.  The backslash and the mark itself are
escaped; what cannot be shown is written by its code, in two, four or eight
hexadecimal digits; so is half of a surrogate pair.
-/

namespace Storyline.Text

/-- One character between quotation marks. -/
def quoteChar (mark c : Char) : List Char :=
  if c = mark ∨ c = '\\' then ['\\', c]
  else if c = '\n' then ['\\', 'n']
  else if c = '\r' then ['\\', 'r']
  else if c = '\t' then ['\\', 't']
  else if isPrintable c then [c]
  else if c.toNat < 0x100 then '\\' :: 'x' :: hex 2 c.toNat
  else if c.toNat < 0x10000 then '\\' :: 'u' :: hex 4 c.toNat
  else '\\' :: 'U' :: hex 8 c.toNat

/-- The mark that a text is quoted with. -/
def markFor (text : List Char) : Char :=
  if text.contains '\'' && !text.contains '"' then '"' else '\''

/-- One code point between quotation marks. -/
def quotePoint (mark : Char) : Point → List Char
  | .char c => quoteChar mark c
  | .half h => '\\' :: 'u' :: hex 4 h.unit

/-- A text in quotation marks. -/
def quoted {τ : Type} [Textual τ] (text : τ) : String :=
  let mark := markFor (wide text).faces
  String.ofList (mark :: (wide text).points.flatMap (quotePoint mark) ++ [mark])

/-- A half is shown by its unit, the characters beside it as ever. -/
example : quoted (⟨[.char 'é', .half ⟨0xD83D, by decide, by decide⟩, .char '\'']⟩ : WideString) =
    "\"é\\ud83d'\"" := by
  decide +kernel

end Storyline.Text

import Storyline.Text.Hex
import Storyline.Text.Wide

/-!
# Storyline.Json.Text

The strings of JSON.  Writing keeps to ASCII: what lies outside is written in
UTF-16 units of four hexadecimal digits, so a character past the basic plane
takes a pair of them, and half of a pair takes one.  Reading takes one *piece* at a
time: the closing mark, a code point in one of its spellings, or the reason why
there is neither.

What is read is the characters that a text shows as.  A half shows as a stand-in,
which means nothing outside of a string; inside of one the text itself tells
whether the stand-in that is met there is a half.
-/

namespace Storyline.Json

/-- What is wrong at a place of a JSON text. -/
inductive Problem
  | value
  | extraData
  | memberName
  | colon
  | comma
  | unterminated
  | controlCharacter
  | escape
  | unicodeEscape
  | byteOrderMark
deriving DecidableEq, Repr

/-- The wording of a problem. -/
def Problem.message : Problem → String
  | .value => "Expecting value"
  | .extraData => "Extra data"
  | .memberName => "Expecting property name enclosed in double quotes"
  | .colon => "Expecting ':' delimiter"
  | .comma => "Expecting ',' delimiter"
  | .unterminated => "Unterminated string starting at"
  | .controlCharacter => "Invalid control character at"
  | .escape => "Invalid \\escape"
  | .unicodeEscape => "Invalid \\uXXXX escape"
  | .byteOrderMark => "Unexpected UTF-8 BOM (decode using utf-8-sig)"

/-! ## Writing -/

/-- One UTF-16 unit. -/
def writeUnit (n : Nat) : List Char := '\\' :: 'u' :: Text.hex 4 n

/-- One character inside quotation marks. -/
def writeChar (c : Char) : List Char :=
  if c = '"' then ['\\', '"']
  else if c = '\\' then ['\\', '\\']
  else if c = '\n' then ['\\', 'n']
  else if c = '\r' then ['\\', 'r']
  else if c = '\t' then ['\\', 't']
  else if c = '\x08' then ['\\', 'b']
  else if c = '\x0c' then ['\\', 'f']
  else if 32 ≤ c.toNat ∧ c.toNat < 127 then [c]
  else if c.toNat < 0x10000 then writeUnit c.toNat
  else
    writeUnit (0xD800 + (c.toNat - 0x10000) / 0x400)
      ++ writeUnit (0xDC00 + (c.toNat - 0x10000) % 0x400)

/-- One code point inside quotation marks. -/
def writePoint : Point → List Char
  | .char c => writeChar c
  | .half h => writeUnit h.unit

/-- A text in quotation marks. -/
def writeString {τ : Type} [Textual τ] (s : τ) : List Char :=
  '"' :: (wide s).points.flatMap writePoint ++ ['"']

/-! ## Reading -/

/-- The value of a hexadecimal digit. -/
def hexValue? (c : Char) : Option Nat :=
  if c.isDigit then some (c.toNat - '0'.toNat)
  else if 'a' ≤ c ∧ c ≤ 'f' then some (c.toNat - 'a'.toNat + 10)
  else if 'A' ≤ c ∧ c ≤ 'F' then some (c.toNat - 'A'.toNat + 10)
  else none

/-- A unit of four hexadecimal digits.  Some character has to follow, for the
string is not closed by its digits. -/
def readUnit? : List Char → Option (Nat × List Char)
  | a :: b :: c :: d :: rest =>
    if rest.isEmpty then none
    else
      match hexValue? a, hexValue? b, hexValue? c, hexValue? d with
      | some a, some b, some c, some d => some (((a * 16 + b) * 16 + c) * 16 + d, rest)
      | _, _, _, _ => none
  | _ => none

/-- The second half of a surrogate pair. -/
def readLow? : List Char → Option (Nat × List Char)
  | '\\' :: 'u' :: rest =>
    match readUnit? rest with
    | some (low, rest) => if 0xDC00 ≤ low ∧ low < 0xE000 then some (low, rest) else none
    | none => none
  | _ => none

/-- The characters that a backslash and a letter or mark stand for. -/
def escaped? : Char → Option Char
  | '"' => some '"'
  | '\\' => some '\\'
  | '/' => some '/'
  | 'b' => some '\x08'
  | 'f' => some '\x0c'
  | 'n' => some '\n'
  | 'r' => some '\r'
  | 't' => some '\t'
  | _ => none

/-- The code point of a unit and what follows it: a first half of a pair takes the
second half with it, if that is what follows. -/
def joinUnits (unit : Nat) (rest : List Char) : Point × List Char :=
  if h : 0xD800 ≤ unit ∧ unit < 0xE000 then
    match if unit < 0xDC00 then readLow? rest else none with
    | some (low, rest) =>
      (.char (Char.ofNat (0x10000 + (unit - 0xD800) * 0x400 + (low - 0xDC00))), rest)
    | none => (.half ⟨unit, h.1, h.2⟩, rest)
  else (.char (Char.ofNat unit), rest)

/-- What stands next inside a string. -/
inductive Piece
  /-- The closing mark. -/
  | close (rest : List Char)
  /-- A code point in one of its spellings. -/
  | point (p : Point) (rest : List Char)
  /-- The end of the text. -/
  | ended
  /-- A problem, and the text from its place on. -/
  | bad (problem : Problem) (place : List Char)
deriving DecidableEq, Repr

/-- Takes the next piece of a string from what is left of a text. -/
def nextPiece (text : WideString) : List Char → Piece
  | [] => .ended
  | c :: rest =>
    if c = '"' then .close rest
    else if c = '\\' then
      match rest with
      | [] => .ended
      | e :: after =>
        if e = 'u' then
          match readUnit? after with
          | some (unit, rest) => .point (joinUnits unit rest).1 (joinUnits unit rest).2
          | none => .bad .unicodeEscape (e :: after)
        else
          match escaped? e with
          | some c => .point (.char c) after
          | none => .bad .escape (c :: rest)
    else if c.toNat < 32 then .bad .controlCharacter (c :: rest)
    else .point (text.pointAt c rest) rest

end Storyline.Json

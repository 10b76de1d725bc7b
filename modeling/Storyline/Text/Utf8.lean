import Storyline.Text.Hex

/-!
# Storyline.Text.Utf8

Text as bytes.  A character takes one to four bytes; its first byte says how
many more follow and, for some, narrows the range of the second one, so that no
character has two spellings and no half of a surrogate pair has one.

Bytes that are no text are refused at the first sequence that cannot be
completed, with the bytes of it that were still possible.
-/

namespace Storyline.Text

/-! ## Writing -/

/-- The bytes of a character. -/
def encodeChar (c : Char) : List UInt8 :=
  let n := c.toNat
  if n < 0x80 then [n.toUInt8]
  else if n < 0x800 then [(0xC0 + n / 0x40).toUInt8, (0x80 + n % 0x40).toUInt8]
  else if n < 0x10000 then
    [(0xE0 + n / 0x1000).toUInt8, (0x80 + n / 0x40 % 0x40).toUInt8, (0x80 + n % 0x40).toUInt8]
  else
    [(0xF0 + n / 0x40000).toUInt8, (0x80 + n / 0x1000 % 0x40).toUInt8,
      (0x80 + n / 0x40 % 0x40).toUInt8, (0x80 + n % 0x40).toUInt8]

/-- The bytes of a text. -/
def encode (text : String) : List UInt8 := text.toList.flatMap encodeChar

/-! ## Reading -/

/-- Why bytes are no text. -/
inductive EncodingProblem
  | invalidStart
  | invalidContinuation
  | unexpectedEnd
deriving DecidableEq, Repr

/-- The wording of a problem. -/
def EncodingProblem.text : EncodingProblem → String
  | .invalidStart => "invalid start byte"
  | .invalidContinuation => "invalid continuation byte"
  | .unexpectedEnd => "unexpected end of data"

/-- What stands at the front of some bytes. -/
inductive Sequence
  /-- A character, the number of its bytes, and the bytes after it. -/
  | char (c : Char) (size : Nat) (rest : List UInt8)
  /-- So many bytes that start no character. -/
  | bad (problem : EncodingProblem) (size : Nat)
deriving DecidableEq, Repr

/-- Takes the missing bytes of a character, the next of them in a given range.
`value` is made up by the `seen` bytes before. -/
def continueChar : Nat → (low high value seen : Nat) → List UInt8 → Sequence
  | 0, _, _, value, seen, bytes => .char (Char.ofNat value) seen bytes
  | _ + 1, _, _, _, seen, [] => .bad .unexpectedEnd seen
  | missing + 1, low, high, value, seen, b :: bytes =>
    if low ≤ b.toNat ∧ b.toNat ≤ high then
      continueChar missing 0x80 0xBF (value * 0x40 + b.toNat % 0x40) (seen + 1) bytes
    else .bad .invalidContinuation seen

/-- Takes the character that starts with a byte. -/
def takeChar (first : UInt8) (rest : List UInt8) : Sequence :=
  let b := first.toNat
  if b < 0x80 then .char (Char.ofNat b) 1 rest
  else if b < 0xC2 then .bad .invalidStart 1
  else if b < 0xE0 then continueChar 1 0x80 0xBF (b - 0xC0) 1 rest
  else if b = 0xE0 then continueChar 2 0xA0 0xBF 0 1 rest
  else if b = 0xED then continueChar 2 0x80 0x9F 13 1 rest
  else if b < 0xF0 then continueChar 2 0x80 0xBF (b - 0xE0) 1 rest
  else if b = 0xF0 then continueChar 3 0x90 0xBF 0 1 rest
  else if b < 0xF4 then continueChar 3 0x80 0xBF (b - 0xF0) 1 rest
  else if b = 0xF4 then continueChar 3 0x80 0x8F 4 1 rest
  else .bad .invalidStart 1

/-- Bytes that are no text: the first sequence that cannot be completed. -/
structure EncodingFault where
  problem : EncodingProblem
  /-- The number of bytes before the sequence. -/
  position : Nat
  /-- The bytes of the sequence that were still possible, the first one at least. -/
  bytes : List UInt8
deriving DecidableEq, Repr

/-- The wording of a fault: one byte is shown, of several only the positions. -/
def EncodingFault.message (f : EncodingFault) : String :=
  let place := match f.bytes with
    | [b] => "byte 0x" ++ String.ofList (hex 2 b.toNat) ++ " in position " ++ Nat.repr f.position
    | bytes =>
      "bytes in position " ++ Nat.repr f.position ++ "-"
        ++ Nat.repr (f.position + bytes.length - 1)
  "'utf-8' codec can't decode " ++ place ++ ": " ++ f.problem.text

/-- Decodes bytes, of which the first lies at a position.  Every character takes
at least one byte, so as many steps as there are bytes are enough. -/
def decodeFrom : (steps position : Nat) → List UInt8 → Except EncodingFault (List Char)
  | 0, _, _ => .ok []
  | _ + 1, _, [] => .ok []
  | steps + 1, position, b :: rest =>
    match takeChar b rest with
    | .char c size after => (decodeFrom steps (position + size) after).map (c :: ·)
    | .bad problem size => .error ⟨problem, position, (b :: rest).take size⟩

/-- The text that bytes spell. -/
def decode (bytes : List UInt8) : Except EncodingFault String :=
  (decodeFrom bytes.length 0 bytes).map String.ofList

end Storyline.Text

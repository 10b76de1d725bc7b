import Storyline.Json.Basic
import Storyline.Json.Text

/-!
# Storyline.Json.Reader

Reading JSON text.  Beyond the standard, the words `NaN`, `Infinity` and
`-Infinity` are numbers, and a repeated member keeps its first place and takes
its last value.  A text that is refused is refused at a place, which is reported
by line, column and offset; a whole number of too many digits is a fault of its
own and has no place.  The value has texts of the type that the text has.
-/

namespace Storyline.Json

/-- Why reading stops: a problem with the text from its place on, or a number
that is too long. -/
inductive Refusal
  | malformed (problem : Problem) (place : List Char)
  | number (fault : NumberFault)
deriving DecidableEq, Repr

/-- The four characters that may stand between the tokens. -/
def isGap (c : Char) : Bool := c = ' ' || c = '\t' || c = '\n' || c = '\r'

/-- Passes over what may stand between the tokens. -/
def skipGap (cs : List Char) : List Char := cs.dropWhile isGap

/-! ## Numbers -/

/-- A number as it is written. -/
structure WrittenNumber where
  negative : Bool
  whole : List Char
  fraction : List Char
  exponent : Option Int
deriving DecidableEq, Repr

/-- The digits before the point: a lone zero, or digits that do not start with one. -/
def readWhole? : List Char → Option (List Char × List Char)
  | '0' :: rest => some (['0'], rest)
  | c :: rest =>
    if c.isDigit then some (c :: rest.takeWhile Char.isDigit, rest.dropWhile Char.isDigit)
    else none
  | [] => none

/-- The digits after a point; a point without digits does not belong to the number. -/
def readFraction : List Char → List Char × List Char
  | '.' :: rest =>
    if (rest.takeWhile Char.isDigit).isEmpty then ([], '.' :: rest)
    else (rest.takeWhile Char.isDigit, rest.dropWhile Char.isDigit)
  | rest => ([], rest)

/-- The exponent; a letter without digits does not belong to the number. -/
def readExponent : List Char → Option Int × List Char
  | e :: rest =>
    let (negative, digits) := Numeral.splitSign rest
    if (e = 'e' ∨ e = 'E') ∧ ¬(digits.takeWhile Char.isDigit).isEmpty then
      (some (Numeral.withSign negative
        (Nat.ofDigitChars 10 (digits.takeWhile Char.isDigit) 0)),
        digits.dropWhile Char.isDigit)
    else (none, e :: rest)
  | [] => (none, [])

/-- Splits a minus sign off. -/
def splitMinus : List Char → Bool × List Char
  | '-' :: rest => (true, rest)
  | rest => (false, rest)

/-- The number at the front of a text. -/
def readNumber? (cs : List Char) : Option (WrittenNumber × List Char) :=
  let (negative, cs) := splitMinus cs
  match readWhole? cs with
  | none => none
  | some (whole, cs) =>
    let (fraction, cs) := readFraction cs
    let (exponent, cs) := readExponent cs
    some (⟨negative, whole, fraction, exponent⟩, cs)

/-- The amount that a number denotes: a whole number if it has neither a fraction
nor an exponent, else a double. -/
def WrittenNumber.amount (n : WrittenNumber) : Except NumberFault Amount :=
  if n.fraction = [] ∧ n.exponent = none then
    (Numeral.readDigits n.whole).map fun m =>
      .int (Numeral.withSign n.negative m)
  else
    .ok (.real (Binary64.ofDecimal n.negative
      (Nat.ofDigitChars 10 (n.whole ++ n.fraction) 0)
      (n.exponent.getD 0 - n.fraction.length)))

/-! ## Values -/

section Values

variable {τ : Type}

/-- The words that stand for values. -/
def words : List (String × Json τ) := [
  ("null", .null), ("true", .bool true), ("false", .bool false),
  ("NaN", .number (.real .nan)),
  ("Infinity", .number (.real (.infinity false))),
  ("-Infinity", .number (.real (.infinity true)))]

/-- The word at the front of a text, whatever follows it. -/
def readWord? (cs : List Char) : Option (Json τ × List Char) :=
  words.findSome? fun word => (word.1.toList.isPrefixOf? cs).map fun rest => (word.2, rest)

/-- The number or word at the front of a text. -/
def readScalar (cs : List Char) : Except Refusal (Json τ × List Char) :=
  match readWord? cs with
  | some (word, rest) => .ok (word, rest)
  | none =>
    match readNumber? cs with
    | some (written, rest) =>
      match written.amount with
      | .ok a => .ok (.number a, rest)
      | .error fault => .error (.number fault)
    | none => .error (.malformed .value cs)

/-- The code points of a string up to its closing mark.  `opening` is what is left of
the text from the opening mark on, where a string without end is reported. -/
def readPoints (text : WideString) (opening : List Char) :
    Nat → List Char → Except Refusal (List Point × List Char)
  | 0, _ => .error (.malformed .unterminated opening)
  | fuel + 1, cs =>
    match nextPiece text cs with
    | .close rest => .ok ([], rest)
    | .point p rest =>
      (readPoints text opening fuel rest).map fun (points, rest) => (p :: points, rest)
    | .ended => .error (.malformed .unterminated opening)
    | .bad problem place => .error (.malformed problem place)

variable [Textual τ] (text : WideString)

/-- The string after an opening mark. -/
def readString (opening cs : List Char) : Except Refusal (τ × List Char) :=
  (readPoints text opening (cs.length + 1) cs).map fun (points, rest) => (ofWide ⟨points⟩, rest)

variable [DecidableEq τ]

mutual

/-- The value at the front of what is left of a text. -/
def readValue : Nat → List Char → Except Refusal (Json τ × List Char)
  | 0, cs => .error (.malformed .value cs)
  | fuel + 1, cs =>
    match cs with
    | '"' :: rest => (readString text cs rest).map fun (s, rest) => (.string s, rest)
    | '[' :: rest =>
      match skipGap rest with
      | ']' :: rest => .ok (.array [], rest)
      | rest => (readItems fuel rest).map fun (items, rest) => (.array items, rest)
    | '\x7b' :: rest =>
      match skipGap rest with
      | '\x7d' :: rest => .ok (.object [], rest)
      | rest => (readMembers fuel rest).map fun (members, rest) =>
          (.object (Table.ofList members).entries, rest)
    | cs => readScalar cs

/-- The items of an array up to its closing bracket; there is at least one. -/
def readItems : Nat → List Char → Except Refusal (List (Json τ) × List Char)
  | 0, cs => .error (.malformed .value cs)
  | fuel + 1, cs => do
    let (item, rest) ← readValue fuel cs
    match skipGap rest with
    | ']' :: rest => .ok ([item], rest)
    | ',' :: rest =>
      let (items, rest) ← readItems fuel (skipGap rest)
      .ok (item :: items, rest)
    | rest => .error (.malformed .comma rest)

/-- The members of an object up to its closing brace; there is at least one. -/
def readMembers : Nat → List Char → Except Refusal (List (τ × Json τ) × List Char)
  | 0, cs => .error (.malformed .value cs)
  | fuel + 1, cs =>
    match cs with
    | '"' :: rest => do
      let (name, rest) ← readString text cs rest
      match skipGap rest with
      | ':' :: rest =>
        let (value, rest) ← readValue fuel (skipGap rest)
        match skipGap rest with
        | '\x7d' :: rest => .ok ([(name, value)], rest)
        | ',' :: rest =>
          let (members, rest) ← readMembers fuel (skipGap rest)
          .ok ((name, value) :: members, rest)
        | rest => .error (.malformed .comma rest)
      | rest => .error (.malformed .colon rest)
    | cs => .error (.malformed .memberName cs)

end

/-- The value that makes up a whole text. -/
def readText : Except Refusal (Json τ) :=
  if text.faces.head? = some '\ufeff' then .error (.malformed .byteOrderMark text.faces)
  else do
    let start := skipGap text.faces
    let (value, rest) ← readValue text (2 * start.length + 2) start
    match skipGap rest with
    | [] => .ok value
    | rest => .error (.malformed .extraData rest)

end Values

/-! ## Places -/

/-- A place in a text: line and column count from one, the offset from zero. -/
structure Position where
  line : Nat
  column : Nat
  offset : Nat
deriving DecidableEq, Repr

/-- The place at which so many characters of a text have gone by. -/
def Position.after (passed : List Char) : Position where
  line := passed.count '\n' + 1
  column := (passed.reverse.takeWhile (· ≠ '\n')).length + 1
  offset := passed.length

/-- Why a text is not read. -/
inductive ReadError
  /-- The text is not JSON, by the first problem and its place. -/
  | malformed (problem : Problem) (position : Position)
  /-- A whole number in it has too many digits. -/
  | number (fault : NumberFault)
deriving DecidableEq, Repr

/-- The wording of the error. -/
def ReadError.message : ReadError → String
  | .malformed problem position =>
    problem.message ++ ": line " ++ Nat.repr position.line ++ " column "
      ++ Nat.repr position.column ++ " (char " ++ Nat.repr position.offset ++ ")"
  | .number fault => fault.message

/-- A refusal with its place found in the whole text. -/
def Refusal.located (text : List Char) : Refusal → ReadError
  | .malformed problem place =>
    .malformed problem (Position.after (text.take (text.length - place.length)))
  | .number fault => .number fault

/-- Reads a JSON text. -/
def read {τ : Type} [Textual τ] [DecidableEq τ] (text : τ) : Except ReadError (Json τ) :=
  (readText (wide text)).mapError (Refusal.located (wide text).faces)

end Storyline.Json

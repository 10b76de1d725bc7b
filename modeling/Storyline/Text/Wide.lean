/-!
# Storyline.Text.Wide

Texts of code points.  A code point is a character or one half of a surrogate
pair.  A half alone is no character, so a string cannot hold it, but an escape
can spell it and a text in memory can contain it; a *wide* text holds both.

What deals with texts need not say which texts they are: a type is *textual* if
its texts can be made wide and a wide text can be taken back.  In a string a half
comes back as the stand-in U+FFFD; a wide text comes back whole.
-/

namespace Storyline

/-- One half of a surrogate pair. -/
structure Half where
  unit : Nat
  first_le : 0xD800 ≤ unit
  lt_end : unit < 0xE000
deriving DecidableEq, Repr

/-- A code point. -/
inductive Point
  | char (c : Char)
  | half (h : Half)
deriving DecidableEq, Repr

namespace Point

/-- The number of a code point. -/
def code : Point → Nat
  | .char c => c.toNat
  | .half h => h.unit

/-- The character that stands in for a half. -/
def standIn : Char := Char.ofNat 0xFFFD

/-- The character that a code point shows as. -/
def face : Point → Char
  | .char c => c
  | .half _ => standIn

/-- Whether one text of code points comes before another: the first code points in
which they differ decide. -/
def precedes : List Point → List Point → Bool
  | _, [] => false
  | [], _ :: _ => true
  | p :: ps, q :: qs => if p.code = q.code then precedes ps qs else p.code < q.code

end Point

/-- A text of code points. -/
structure WideString where
  points : List Point
deriving DecidableEq, Repr

namespace WideString

instance : LT WideString := ⟨fun v w => Point.precedes v.points w.points = true⟩

instance : LE WideString := ⟨fun v w => ¬w < v⟩

instance : DecidableLT WideString := fun v w =>
  inferInstanceAs (Decidable (Point.precedes v.points w.points = true))

instance : DecidableLE WideString := fun v w => inferInstanceAs (Decidable ¬w < v)

/-- A string as a wide text. -/
def ofString (s : String) : WideString := ⟨s.toList.map .char⟩

/-- The characters that a wide text shows as. -/
def faces (w : WideString) : List Char := w.points.map Point.face

/-- A wide text as a string, with the stand-in for every half. -/
def narrow (w : WideString) : String := String.ofList w.faces

/-- The half that has so many code points after it, if there is one. -/
def halfBefore : List Point → Nat → Option Half
  | [], _ => none
  | .half h :: rest, n => if rest.length = n then some h else halfBefore rest n
  | .char _ :: rest, n => halfBefore rest n

/-- The code point that shows as a character with this text after it. -/
def pointAt (w : WideString) (c : Char) (after : List Char) : Point :=
  if c = Point.standIn then ((halfBefore w.points after.length).map .half).getD (.char c)
  else .char c

end WideString

/-- Types of texts that can be made wide and taken back. -/
class Textual (τ : Type) where
  /-- A text made wide. -/
  wide : τ → WideString
  /-- The text that a wide one is taken back to. -/
  ofWide : WideString → τ
  /-- A string as a text. -/
  ofString : String → τ
  ofWide_wide : ∀ t, ofWide (wide t) = t
  wide_ofString : ∀ s, wide (ofString s) = .ofString s

export Textual (wide ofWide ofString)

instance : Textual WideString where
  wide := id
  ofWide := id
  ofString := .ofString
  ofWide_wide _ := rfl
  wide_ofString _ := rfl

instance : Textual String where
  wide := .ofString
  ofWide := WideString.narrow
  ofString := id
  ofWide_wide s := by
    have hface : Point.face ∘ Point.char = id := rfl
    rw [WideString.narrow, WideString.faces, WideString.ofString, List.map_map, hface, List.map_id,
      String.ofList_toList]
  wide_ofString _ := rfl

end Storyline

import Mathlib.Data.List.Chain
import Storyline.Text.Wide

/-!
# Storyline.Proofs.Text.Wide

Laws of wide texts.  Code points have different numbers, so the order by them is linear.  A
text is *joined* if the two halves of a pair never stand side by side in it; a string holds no
half at all, so made wide it is joined.
-/

namespace Storyline

/-- The numbers of the characters leave out those of the halves. -/
theorem toNat_valid (c : Char) : c.toNat < 0xD800 ∨ 0xDFFF < c.toNat ∧ c.toNat < 0x110000 :=
  c.valid

namespace Point

theorem toNat_ne_unit (c : Char) (h : Half) : c.toNat ≠ h.unit := by
  have hc := toNat_valid c
  have hfirst := h.first_le
  have hend := h.lt_end
  omega

theorem code_injective {p q : Point} (h : p.code = q.code) : p = q := by
  cases p with
  | char c =>
    cases q with
    | char d => exact congrArg char (Char.toNat_inj.1 h)
    | half k => exact absurd h (toNat_ne_unit c k)
  | half k =>
    cases q with
    | char c => exact absurd h.symm (toNat_ne_unit c k)
    | half l =>
      cases k
      cases l
      cases h
      rfl

/-! ## Order -/

theorem precedes_cons (p q : Point) (ps qs : List Point) :
    precedes (p :: ps) (q :: qs) = true ↔
      p.code < q.code ∨ p.code = q.code ∧ precedes ps qs = true := by
  rw [precedes]
  split
  · next h => simp [h]
  · next h => simp [h]

theorem not_precedes_nil (ps : List Point) : ¬precedes ps [] = true := by
  cases ps <;> exact Bool.false_ne_true

theorem precedes_asymm : ∀ {ps qs : List Point}, precedes ps qs = true → ¬precedes qs ps = true
  | ps, [], h => absurd h (not_precedes_nil ps)
  | [], _ :: _, _ => not_precedes_nil _
  | p :: ps, q :: qs, h => by
    rw [precedes_cons] at h ⊢
    rintro (hlt | ⟨heq, hrest⟩)
    · omega
    · obtain hlt | ⟨-, h⟩ := h
      · omega
      · exact precedes_asymm h hrest

/-- What comes before something comes before all that does not come before it. -/
theorem precedes_or_of_precedes : ∀ {ps qs : List Point} (rs : List Point),
    precedes ps qs = true → precedes ps rs = true ∨ precedes rs qs = true
  | ps, [], _, h => absurd h (not_precedes_nil ps)
  | _, _ :: _, [], _ => .inr rfl
  | [], _ :: _, _ :: _, _ => .inl rfl
  | p :: ps, q :: qs, r :: rs, h => by
    rw [precedes_cons] at h
    rw [precedes_cons, precedes_cons]
    obtain hlt | ⟨heq, hrest⟩ := h
    · omega
    · obtain h | h := precedes_or_of_precedes rs hrest
      · by_cases hr : p.code = r.code
        · exact .inl (.inr ⟨hr, h⟩)
        · omega
      · by_cases hr : r.code = q.code
        · exact .inr (.inr ⟨hr, h⟩)
        · omega

theorem eq_of_not_precedes : ∀ {ps qs : List Point}, ¬precedes ps qs = true →
    ¬precedes qs ps = true → ps = qs
  | [], [], _, _ => rfl
  | [], _ :: _, h, _ => absurd rfl h
  | _ :: _, [], _, h => absurd rfl h
  | p :: ps, q :: qs, h, h' => by
    rw [precedes_cons, not_or, not_and] at h h'
    have hcode : p.code = q.code := by omega
    rw [code_injective hcode, eq_of_not_precedes (h.2 hcode) (h'.2 hcode.symm)]

end Point

namespace WideString

instance : Std.LawfulOrderLT WideString where
  lt_iff v w := by
    refine ⟨fun h => ⟨Point.precedes_asymm h, fun hn => hn h⟩, fun h => ?_⟩
    exact Decidable.not_not.1 h.2

instance : Std.IsLinearOrder WideString where
  le_refl v h := Point.precedes_asymm h h
  le_trans u v w huv hvw h :=
    (Point.precedes_or_of_precedes v.points h).elim hvw huv
  le_antisymm v w hvw hwv := by
    cases v
    cases w
    exact congrArg mk (Point.eq_of_not_precedes hwv hvw)
  le_total v w := by
    by_cases h : w < v
    · exact .inr (Point.precedes_asymm h)
    · exact .inl h

end WideString

/-! ## Strings -/

@[simp] theorem ofString_string (s : String) : (ofString s : String) = s := rfl

theorem wide_injective {τ : Type} [Textual τ] {s t : τ} (h : wide s = wide t) : s = t := by
  rw [← Textual.ofWide_wide s, h, Textual.ofWide_wide]

theorem ofString_injective {τ : Type} [Textual τ] {s t : String}
    (h : (ofString s : τ) = ofString t) : s = t := by
  have hwide : wide s = wide t := by
    have h := congrArg wide h
    rwa [Textual.wide_ofString, Textual.wide_ofString] at h
  exact wide_injective hwide

namespace WideString

@[simp] theorem faces_ofString (s : String) : (ofString s).faces = s.toList := by
  have hface : Point.face ∘ Point.char = id := rfl
  rw [faces, ofString, List.map_map, hface, List.map_id]

theorem halfBefore_chars (cs : List Char) (n : Nat) : halfBefore (cs.map .char) n = none := by
  induction cs with
  | nil => rfl
  | cons c rest ih => exact ih

/-- In a string all that is met is characters. -/
@[simp] theorem pointAt_ofString (s : String) (c : Char) (after : List Char) :
    (ofString s).pointAt c after = .char c := by
  rw [pointAt, ofString, halfBefore_chars]
  split <;> rfl

/-- What is not the stand-in is no half. -/
theorem pointAt_of_ne (w : WideString) {c : Char} (h : c ≠ Point.standIn) (after : List Char) :
    w.pointAt c after = .char c :=
  if_neg h

end WideString

/-! ## Joined texts -/

/-- Whether a half is the first one of a pair. -/
def Half.IsFirst (h : Half) : Prop := h.unit < 0xDC00

/-- Whether two code points are the halves of one pair, each on its own. -/
def Point.IsSplit : Point → Point → Prop
  | .half h, .half k => h.IsFirst ∧ ¬k.IsFirst
  | _, _ => False

/-- Whether the two halves of a pair never stand side by side. -/
def WideString.Joined (w : WideString) : Prop := w.points.IsChain fun p q => ¬p.IsSplit q

theorem WideString.joined_ofString (s : String) : (ofString s).Joined := by
  have hchars : ∀ cs : List Char, (cs.map Point.char).IsChain fun p q => ¬p.IsSplit q := by
    intro cs
    induction cs with
    | nil => exact .nil
    | cons c rest ih =>
      cases rest with
      | nil => exact .singleton _
      | cons d rest => exact .cons_cons id ih
  exact hchars s.toList

end Storyline

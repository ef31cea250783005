import Mathlib
import Reckoner.Proofs.Evaluation.Value
import Reckoner.Proofs.Number.Zero

/-!
# Operators of equal operands

Equal doubles may be different zeros.  Where a left operand or the operand of a factorial is
replaced with an equal one, the value is an equal one too (`Evaluation.beq_of_gives_operator`).
About powers, this is a property of the mathematical library.
-/

namespace Reckoner

/-- The two zeros have equal powers, where both are finite. -/
def MathLibrary.PowIgnoresSign [MathLibrary] : Prop :=
  ∀ y : Float, y.isFinite = true → (pow 0 y).isFinite = true → (pow (-0) y).isFinite = true →
    (pow 0 y == pow (-0) y) = true

namespace Evaluation

variable [MathLibrary] {a a' b x x' : Float} {source source' : Text}

/-- A power that has a value is what the library says. -/
theorem eq_of_gives_power (h : Gives (power source a b) x) :
    x = MathLibrary.pow a b ∧ x.isFinite = true := by
  unfold power at h
  split at h
  · exact absurd h (not_gives_fail _ x)
  · simp only at h
    split at h
    · exact absurd h (not_gives_fail _ x)
    · rename_i hreal
      split at h
      · exact absurd h (not_gives_fail _ x)
      · rename_i hinf
        obtain rfl := gives_pure_iff.1 h.of_trace
        simp only [Bool.or_eq_true, not_or, Bool.not_eq_true] at hreal
        exact ⟨rfl, Number.isFinite_iff.2 ⟨hreal.1, Bool.eq_false_iff.2 hinf⟩⟩

section

variable (ha : a.isFinite = true) (ha' : a'.isFinite = true) (h : (a == a') = true)
include ha ha' h

/-- Equal left operands have equal values. -/
theorem beq_of_gives_arithmetic (hpow : MathLibrary.PowIgnoresSign) {op : Arithmetic}
    (hb : b.isFinite = true) (hx : Gives (arithmetic op source a b) x)
    (hx' : Gives (arithmetic op source' a' b) x') : (x == x') = true := by
  cases op with
  | add =>
    obtain ⟨rfl, hfinite⟩ := hx.of_trace.of_checkFinite
    obtain ⟨rfl, hfinite'⟩ := hx'.of_trace.of_checkFinite
    exact (Number.beq_iff_unsigned hfinite hfinite').2 (Number.unsigned_add_congr ha ha' hb h)
  | subtract =>
    obtain ⟨rfl, hfinite⟩ := hx.of_trace.of_checkFinite
    obtain ⟨rfl, hfinite'⟩ := hx'.of_trace.of_checkFinite
    exact (Number.beq_iff_unsigned hfinite hfinite').2 (Number.unsigned_sub_congr ha ha' hb h)
  | multiply =>
    obtain ⟨rfl, hfinite⟩ := hx.of_trace.of_checkFinite
    obtain ⟨rfl, hfinite'⟩ := hx'.of_trace.of_checkFinite
    exact (Number.beq_iff_unsigned hfinite hfinite').2 (Number.unsigned_mul_congr ha ha' hb h)
  | divide =>
    simp only [arithmetic] at hx hx'
    split at hx
    · exact absurd hx (not_gives_fail _ x)
    · rename_i hne
      rw [if_neg hne] at hx'
      obtain ⟨rfl, hfinite⟩ := hx.of_trace.of_checkFinite
      obtain ⟨rfl, hfinite'⟩ := hx'.of_trace.of_checkFinite
      exact (Number.beq_iff_unsigned hfinite hfinite').2
        (Number.unsigned_div_congr ha ha' hb h (by simpa using hne))
  | power =>
    obtain ⟨rfl, hfinite⟩ := eq_of_gives_power hx
    obtain ⟨rfl, hfinite'⟩ := eq_of_gives_power hx'
    rw [Number.beq_iff_unsigned hfinite hfinite']
    rcases Number.eq_or_isZero_of_beq ha ha' h with rfl | ⟨hzero, hzero'⟩
    · rfl
    · rcases hzero.eq_zero_or with rfl | rfl <;> rcases hzero'.eq_zero_or with rfl | rfl
      · rfl
      · exact Number.unsigned_eq_of_beq hfinite hfinite' (hpow b hb hfinite hfinite')
      · exact (Number.unsigned_eq_of_beq hfinite' hfinite (hpow b hb hfinite' hfinite)).symm
      · rfl
  | remainder =>
    have hfinite : ∀ {c : Float}, c.isFinite = true → (!(c.isFinite && b.isFinite)) = false := by
      intro c hc
      simp [hc, hb]
    simp only [arithmetic, hfinite ha, hfinite ha'] at hx hx'
    split at hx
    · exact absurd hx (not_gives_fail _ x)
    · rename_i hne
      rw [if_neg hne] at hx'
      obtain rfl := gives_pure_iff.1 hx.of_trace
      obtain rfl := gives_pure_iff.1 hx'.of_trace
      exact (Number.beq_iff_unsigned (Number.isFinite_remainder b ha)
        (Number.isFinite_remainder b ha')).2 (Number.unsigned_remainder_congr ha ha' h b)

theorem beq_of_gives_operator (hpow : MathLibrary.PowIgnoresSign) {op : Operator}
    (hop : ∀ loud, op ≠ .dice loud) (hb : b.isFinite = true)
    (hx : Gives (operator op source a b) x) (hx' : Gives (operator op source' a' b) x') :
    (x == x') = true := by
  cases op with
  | arithmetic op => exact beq_of_gives_arithmetic ha ha' h hpow hb hx hx'
  | dice loud => exact absurd rfl (hop loud)

omit [MathLibrary] in
/-- Equal numbers have the same factorial. -/
theorem eq_of_gives_factorial (hx : Gives (Reckoner.factorial a) x)
    (hx' : Gives (Reckoner.factorial a') x') : x = x' := by
  unfold Reckoner.factorial at hx hx'
  rw [ha, if_neg (by decide)] at hx
  rw [ha', if_neg (by decide), ← Number.round_congr ha ha' h] at hx'
  simp only at hx hx'
  split at hx
  · exact absurd hx (not_gives_fail _ x)
  · rename_i product hproduct
    rw [hproduct] at hx'
    rw [gives_pure_iff.1 hx.of_trace, gives_pure_iff.1 hx'.of_trace]

end

end Evaluation

end Reckoner

import Mathlib
import Reckoner.Proofs.Evaluation.Coupling
import Reckoner.Proofs.Evaluation.Group

/-!
# Numbers that are written and evaluated

A finite double is written as a literal, and evaluating the literal gives the double back
(`Evaluation.evaluateText_ofFloat`).  Only the sign of zero is lost: it is not written.
-/

namespace Reckoner

namespace Literal

/-- Finite doubles that are written the same way are equal. -/
theorem beq_of_ofFloat_eq {x y : Float} (hx : x.isFinite = true) (hy : y.isFinite = true)
    (h : ofFloat x = ofFloat y) : (x == y) = true := by
  obtain ⟨l, hl, htext, -, hvalue⟩ := exists_ofFloat hx
  obtain ⟨l', hl', htext', -, hvalue'⟩ := exists_ofFloat hy
  have hread : some l = some l' := by
    rw [← read?_text hl, ← read?_text hl', htext, htext', h]
  rw [Number.beq_iff_unsigned hx hy, ← hvalue, ← hvalue', Option.some.inj hread]

end Literal

namespace Evaluation

section

variable {l : Literal}

/-- A literal in the range of doubles is evaluated in one step. -/
theorem runOn_literal (h : l.numeral.value.isFinite = true) (limits : Limits) (s : Session) :
    (literal l).runOn limits s =
      .ok (Number.negateIf l.negative l.numeral.value)
        (s.addStep limits ⟨.number (Number.negateIf l.negative l.numeral.value), l.shown⟩) := by
  simp only [literal, h, Bool.not_true]
  rfl

variable [MathLibrary] [Stack]

/-- A literal is evaluated as it is written, whatever nothing counts as. -/
theorem evaluateText_literal (h : l.WellFormed) (neutral : Float) :
    evaluateText neutral l.text = literal l := by
  have hparenthesis : hasParenthesis l.text = false := by
    have hopening : '(' ∉ l.text := Literal.not_mem_text h (by decide)
    have hclosing : ')' ∉ l.text := Literal.not_mem_text h (by decide)
    simp [hasParenthesis, hopening, hclosing]
  obtain ⟨room, hroom⟩ := Term.exists_ofText_eq (show 1 ≤ 700 by decide)
  rw [evaluateText_def, hparenthesis, if_neg (by decide), evaluateFlat, hroom,
    Term.read_literal h, Term.evaluate]

/-- Every finite double is written as a literal that is evaluated to it, in one step and without a
problem.  The value is equal to the double, and is the same double unless that is the negative zero.
So it is written as the double is, and doubles that are written the same way are equal. -/
theorem evaluateText_ofFloat {x : Float} (h : x.isFinite = true) :
    (∃ source, ∀ neutral limits s, (evaluateText neutral (Literal.ofFloat x)).runOn limits s =
        .ok (Number.unsigned x) (s.addStep limits ⟨.number (Number.unsigned x), source⟩)) ∧
      (x == Number.unsigned x) = true ∧ (x ≠ -0 → Number.unsigned x = x) ∧
      Literal.ofFloat (Number.unsigned x) = Literal.ofFloat x ∧
      ∀ y : Float, y.isFinite = true → Literal.ofFloat x = Literal.ofFloat y → (x == y) = true := by
  obtain ⟨l, hl, htext, hfinite, hvalue⟩ := Literal.exists_ofFloat h
  refine ⟨⟨l.shown, fun neutral limits s => ?_⟩, Number.beq_unsigned h, Number.unsigned_eq_self h,
    Literal.ofFloat_unsigned h, fun y hy => Literal.beq_of_ofFloat_eq h hy⟩
  rw [← htext, evaluateText_literal hl, runOn_literal hfinite, hvalue]

end

/-- A double that is written with a minus and a power of ten. -/
theorem evaluateText_ofFloat_small :
    (-1.5e-7 : Float).isFinite = true ∧ ∃ source,
      (evaluateText 1 ['_', '1', '.', '5', 'E', '-', '0', '7']).runOn {} ⟨{}, .ofSeed 0⟩ =
        .ok (-1.5e-7)
          (Session.addStep {} ⟨{}, .ofSeed 0⟩ ⟨.number (-1.5e-7), source⟩) := by
  have hfinite : (-1.5e-7 : Float).isFinite = true := by decide
  have htext : Literal.ofFloat (-1.5e-7) = ['_', '1', '.', '5', 'E', '-', '0', '7'] := by
    decide +kernel
  obtain ⟨⟨source, hrun⟩, -, hself, -⟩ := evaluateText_ofFloat hfinite
  have h := hrun 1 {} ⟨{}, .ofSeed 0⟩
  rw [htext, hself (by decide)] at h
  exact ⟨hfinite, source, h⟩

end Evaluation

end Reckoner

import Mathlib
import Reckoner.Proofs.Expression.Listed

/-!
# Texts that begin with an operand

Some texts are passed as a whole in the search for an operator, and a sign behind them is an
operator (`Text.IsOperand`).  Whatever follows such a text is split as if nothing stood before it
(`Split.loosest?_append`).
-/

namespace Reckoner

/-- A split with a text put before it. -/
def Split.prepend (x : Text) (s : Split) : Split := { s with before := x ++ s.before }

/-- A text in which there is no operator, and that ends like a number or a list. -/
structure Text.IsOperand (x : Text) : Prop where
  /-- The text is passed at every tier. -/
  passes : ∀ tier, Split.Passes tier [] x
  /-- The text ends with a digit, a point or a bracket. -/
  last : ∃ start c, x = start ++ [c] ∧ (Numeral.isMantissa c = true ∨ c = ']')

namespace Text.IsOperand

variable {x : Text} (h : x.IsOperand)
include h

theorem ne_nil : x ≠ [] := by
  obtain ⟨start, c, rfl, -⟩ := h.last
  simp

/-- What stands before a sign is not looked at beyond the operand. -/
theorem isSignAfter_append {r : Text} (hr : r.getLast? ≠ some 'E') :
    Operator.isSignAfter (r ++ x.reverse) = Operator.isSignAfter r := by
  obtain ⟨start, c, rfl, hc⟩ := h.last
  have hoperator : Operator.isOperator c = false := by
    rcases hc with hc | rfl
    · exact Split.not_isOperator_of_isMantissa hc
    · decide
  have hE : c ≠ 'E' := by
    rintro rfl
    exact absurd hc (by decide)
  rw [List.reverse_concat]
  match r with
  | [] => simp [Operator.isSignAfter, hoperator, hE]
  | [e] =>
    have he : e ≠ 'E' := by simpa using hr
    simp [Operator.isSignAfter, he]
  | e :: e' :: r => rfl

end Text.IsOperand

namespace Split

open ArgumentList

variable {x : Text} (h : x.IsOperand)
include h

/-- The search for an operator goes on before a text when it found none in it. -/
theorem goLeft_append {r : Text} (hr : r.getLast? ≠ some 'E') (tier : Tier) (depth : Int)
    (after : Text) :
    goLeft tier depth after (r ++ x.reverse) =
      ((goLeft tier depth after r).map (prepend x)).or
        (goLeft tier (depth - r.reverse.foldl depthAfter 0) (r.reverse ++ after) x.reverse) := by
  induction r generalizing depth after with
  | nil =>
    rw [List.nil_append, goLeft, List.reverse_nil, List.foldl_nil, Int.sub_zero]
    rfl
  | cons c r ih =>
    have hr' : r.getLast? ≠ some 'E' := by
      intro hlast
      rw [List.getLast?_cons, hlast] at hr
      exact hr rfl
    have hdepth : (c :: r).reverse.foldl depthAfter 0 =
        r.reverse.foldl depthAfter 0 + depthAfter 0 c := by
      rw [List.reverse_cons, foldl_depthAfter_append]
      rfl
    have htext : (c :: r).reverse ++ after = r.reverse ++ c :: after := by simp
    rw [List.cons_append, goLeft, goLeft, hdepth, htext]
    by_cases hclose : c = ']'
    · rw [if_pos hclose, if_pos hclose, ih hr', hclose]
      congr 2
      show depth + 1 - _ = depth - (_ + -1)
      omega
    · by_cases hopen : c = '['
      · rw [if_neg hclose, if_neg hclose, if_pos hopen, if_pos hopen, ih hr', hopen]
        congr 2
        show depth - 1 - _ = depth - (_ + 1)
        omega
      · have hat : Operator.at? tier (r ++ x.reverse) c = Operator.at? tier r c := by
          rw [Operator.at?, Operator.at?, h.isSignAfter_append hr']
        rw [if_neg hclose, if_neg hclose, if_neg hopen, if_neg hopen, hat,
          depthAfter_of_ne 0 hopen hclose, Int.add_zero]
        cases (if depth = 0 then Operator.at? tier r c else none) with
        | none => exact ih hr' depth (c :: after)
        | some op => simp [prepend]

/-- What follows an operand is split as if the operand was not there. -/
theorem loosest?_append {t : Text} (hdepth : t.foldl depthAfter 0 = 0) (ht : t.head? ≠ some 'E') :
    loosest? (x ++ t) = (loosest? t).map (prepend x) := by
  have htier : ∀ tier, atTier? tier (x ++ t) = (atTier? tier t).map (prepend x) := by
    intro tier
    have hpass : goLeft tier 0 (t ++ []) x.reverse = none := by
      have hpass := h.passes tier (t ++ [])
      rwa [List.append_nil x.reverse, goLeft] at hpass
    rw [atTier?, List.reverse_append, goLeft_append h (by simpa using ht), List.reverse_reverse,
      hdepth, Int.sub_zero, hpass]
    exact Option.or_none
  unfold loosest?
  induction Tier.all with
  | nil => rfl
  | cons tier tiers ih =>
    rw [List.findSome?_cons, List.findSome?_cons, htier, ih]
    cases atTier? tier t <;> rfl

end Split

end Reckoner

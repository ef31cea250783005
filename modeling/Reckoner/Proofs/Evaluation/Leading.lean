import Mathlib
import Reckoner.Proofs.Evaluation.Reading
import Reckoner.Proofs.Evaluation.Zero
import Reckoner.Proofs.Expression.Apart

/-!
# Texts that begin with equal operands

Where one operand stands for another one of an equal value at the beginning of a text, the value of
the text is an equal one (`Term.beqValues_append`): the operators behind it are found in the same
places, and whatever they do, they do to equal left operands.
-/

namespace Reckoner

namespace Term

open Evaluation Text

/-! ## Equal operands -/

section

variable [MathLibrary]

/-- Two terms whose values are equal where both have one. -/
def BeqValues (left left' : Term) : Prop :=
  ∀ neutral neutral' a a', Gives (left.evaluate neutral) a → Gives (left'.evaluate neutral') a' →
    (a == a') = true

/-- An operator with equal left operands and one right operand. -/
theorem BeqValues.binary {op : Operator} {source source' : Text} {left left' right right' : Term}
    (hleft : BeqValues left left') (hpow : MathLibrary.PowIgnoresSign)
    (hright : ∀ {b b' : Float}, Gives (right.evaluate op.neutral) b →
      Gives (right'.evaluate op.neutral) b' → b = b')
    (hdice : (binary op source left right).DiceIn fun _ => False)
    (hdice' : (binary op source' left' right').DiceIn fun _ => False) :
    BeqValues (binary op source left right) (binary op source' left' right') := by
  intro neutral neutral' a a' ha ha'
  obtain ⟨x, y, hx, hy, hgives, hgives', hvalue⟩ := gives_binary hdice ha
  obtain ⟨x', y', hx', -, hother, hother', hvalue'⟩ := gives_binary hdice' ha'
  obtain rfl := hright hgives' hother'
  exact beq_of_gives_operator hx hx' (hleft _ _ _ _ hgives hother) hpow
    (fun loud hop => hdice.1 loud hop) hy hvalue hvalue'

/-- A factorial of equal operands. -/
theorem BeqValues.factorial {operand operand' : Term} (h : BeqValues operand operand')
    (hdice : (factorial operand).DiceIn fun _ => False)
    (hdice' : (factorial operand').DiceIn fun _ => False) :
    BeqValues (factorial operand) (factorial operand') := by
  intro neutral neutral' a a' ha ha'
  obtain ⟨x, hx, hgives, hvalue⟩ := gives_factorial hdice ha
  obtain ⟨x', hx', hgives', hvalue'⟩ := gives_factorial hdice' ha'
  obtain rfl := eq_of_gives_factorial hx hx' (h _ _ _ _ hgives hgives') hvalue hvalue'
  exact Number.beq_self ((diceless_factorial hx).of_gives hvalue)

end

/-! ## Equal beginnings -/

section

variable [MathLibrary] [Stack] {x y : Text} (hx : x.IsOperand) (hy : y.IsOperand)
  (hdice : x.WithoutDice) (hdice' : y.WithoutDice)
  (hdepth : x.foldl ArgumentList.depthAfter 0 = 0) (hpow : MathLibrary.PowIgnoresSign)
  (hvalue : ∀ room room', BeqValues (read room 0 x) (read room' 0 y))
  (halone : ∀ {room : Nat} {t : Text} {neutral a : Float}, StandsApart t → t.WithoutDice →
    t ≠ [] → t.foldl ArgumentList.depthAfter 0 = 0 → Split.loosest? t = none →
      t.getLast? ≠ some '!' → ¬ Gives ((read room 0 (x ++ t)).evaluate neutral) a)
include hx hy hdice hdice' hdepth hpow hvalue halone

/-- A text is worth as much if an equal operand begins it, provided that what stands behind the
operand cannot belong to it. -/
theorem beqValues_append {t : Text} (hapart : StandsApart t) (ht : t.WithoutDice)
    (room room' : Nat) : BeqValues (read room 0 (x ++ t)) (read room' 0 (y ++ t)) := by
  induction room generalizing room' t with
  | zero => exact fun _ _ _ _ ha _ => absurd ha not_gives_tooDeep
  | succ room ih =>
    cases room' with
    | zero => exact fun _ _ _ _ _ ha' => absurd ha' not_gives_tooDeep
    | succ room' =>
      intro neutral neutral' a a' ha ha'
      have hread := diceIn_read (room + 1) 0 (diceIn_append.2 ⟨hdice, ht⟩)
      have hread' := diceIn_read (room' + 1) 0 (diceIn_append.2 ⟨hdice', ht⟩)
      have hdepth' : t.foldl ArgumentList.depthAfter 0 = 0 := by
        have htext := (unseparated_of_gives hread ha).listed.foldl_depthAfter 0
        rwa [ArgumentList.foldl_depthAfter_append, hdepth, Int.zero_add] at htext
      have hloosest := Split.loosest?_append hx hdepth' hapart.head?_ne_exponent
      have hloosest' := Split.loosest?_append hy hdepth' hapart.head?_ne_exponent
      cases hsplit : Split.loosest? t with
      | some s =>
        obtain ⟨tier, c, hat, htext⟩ := Split.text_of_loosest? hsplit
        rw [hsplit] at hloosest hloosest'
        rw [read_of_loosest? (List.append_ne_nil_of_left_ne_nil hx.ne_nil t) hloosest] at ha hread
        rw [read_of_loosest? (List.append_ne_nil_of_left_ne_nil hy.ne_nil t) hloosest']
          at ha' hread'
        have hbefore : BeqValues (read room 0 (x ++ s.before)) (read room' 0 (y ++ s.before)) :=
          ih (StandsApart.of_append (htext ▸ hapart))
            (ht.mono (htext ▸ List.subset_append_left _ _)) room'
        exact hbefore.binary hpow (eq_of_gives_read hread.2.2) hread hread' _ _ _ _ ha
          ha'
      | none =>
        rw [hsplit] at hloosest hloosest'
        by_cases hnil : t = []
        · rw [hnil, List.append_nil] at ha ha'
          exact hvalue _ _ _ _ _ _ ha ha'
        · by_cases hbang : t.getLast? = some '!'
          · obtain ⟨start, rfl⟩ := List.getLast?_eq_some_iff.1 hbang
            rw [← List.append_assoc] at ha ha' hread hread' hloosest hloosest'
            rw [read_of_bang hloosest] at ha hread
            rw [read_of_bang hloosest'] at ha' hread'
            have hoperand := ih hapart.of_append (ht.mono (List.subset_append_left _ _)) room'
            exact hoperand.factorial hread hread' _ _ _ _ ha ha'
          · exact absurd ha (halone hapart ht hnil hdepth' hsplit hbang)

end

end Term

end Reckoner

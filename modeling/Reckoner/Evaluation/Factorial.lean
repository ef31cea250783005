import Reckoner.Evaluation.Basic

/-!
# Factorials

The operand is rounded to a whole number `n`, and the result is `n * (n - 1) * ... * 2`, multiplied
in this order in doubles; below two it is one.  The product ends as soon as it is infinite.
-/

namespace Reckoner

/-- Multiplies the whole numbers from `n` down to two to the product so far, while it is finite. -/
def fallingProduct : Nat → Float → Option Float
  | 0, product => some product
  | 1, product => some product
  | n + 2, product =>
    let next := product * Number.ofRat (n + 2 : Nat)
    if next.isInf then none else fallingProduct (n + 1) next

/-- The factorial of a number. -/
def factorial (operand : Float) : Evaluation Float := do
  if !operand.isFinite then Evaluation.fail (.infiniteFactorial operand)
  else
    let n := Number.round operand
    match fallingProduct n.toNat 1 with
    | none => Evaluation.fail .factorialOverflow
    | some product =>
      Evaluation.trace (.factorial operand n) (Number.plainText operand ++ ['!'])
      return product

end Reckoner

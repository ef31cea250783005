import Mathlib
import Reckoner.Proofs.Evaluation.Factor
import Reckoner.Proofs.Evaluation.Levels
import Reckoner.Proofs.Evaluation.Phrase
import Reckoner.Proofs.Evaluation.RoundTrip
import Reckoner.Proofs.Expression.Sign
import Reckoner.Proofs.Number.Product

/-!
# The signs of powers of ten

A plus or minus that is no operator is the sign of a power of ten, where the text can be read, and
unless the `E` is a name behind something that looks like a number (`Evaluation.exponentSign`).
Behind every other constant the `E` is a constant too, and a minus behind it subtracts.
-/

namespace Reckoner

/-! ## A constant times the constant `E` -/

/-- The text of a constant and the constant `E`. -/
def MathConstant.timesEuler (c : MathConstant) : Text := (Symbol.constant c).letters ++ ['E']

/-- The product of a constant and Euler's number. -/
def MathConstant.eulerProduct (c : MathConstant) : Float := c.value * euler.value

theorem MathConstant.eulerProduct_spec (c : MathConstant) :
    c.eulerProduct.isFinite = true ∧ c.eulerProduct ≠ -0 := by
  cases c <;> decide +kernel

namespace Term

variable [Stack] {room : Nat}

theorem read_timesEuler (c : MathConstant) :
    read (room + 5) 0 c.timesEuler = constant c.timesEuler none c
      (constant ['E'] none .euler absent) := by
  cases c <;> rfl

/-- A text is split at a minus that is an operator and has a literal behind it. -/
theorem read_minus_literal {left : Text} {l : Literal} (hl : l.WellFormed)
    (hsign : Operator.isSignAfter left.reverse = false) :
    read (room + 2) 0 (left ++ '-' :: l.text) =
      binary (.arithmetic .subtract) (left ++ '-' :: l.text) (read (room + 1) 0 left)
        (literal l) := by
  have hsplit := Split.loosest?_eq_some
    (@Split.atTier?_eq_some .sum left l.text '-' _ rfl (fun _ => hsign) (Split.passes_literal hl))
    fun looser hlooser => absurd hlooser (by simp [Tier.rank])
  rw [read_of_loosest? (by simp) hsplit, read_literal hl]

end Term

namespace Evaluation

variable [MathLibrary] [Stack]

/-- The product is computed without a problem. -/
theorem runs_timesEuler (c : MathConstant) (room : Nat) (neutral : Float) :
    Runs ((Term.read (room + 5) 0 c.timesEuler).evaluate neutral) c.eulerProduct := by
  have htail : checkFinite (1 * MathConstant.euler.value * 1) (.constantOverflow ['E']) =
      pure MathConstant.euler.value := by
    have hone : MathConstant.euler.value * 1 = MathConstant.euler.value := by decide +kernel
    rw [Number.one_mul_double, hone, checkFinite, if_pos (by decide +kernel)]
  have hproduct : checkFinite (1 * c.value * MathConstant.euler.value)
      (.constantOverflow c.timesEuler) = pure c.eulerProduct := by
    rw [Number.one_mul_double]
    exact if_pos c.eulerProduct_spec.1
  rw [Term.read_timesEuler]
  simp only [Term.evaluate, factor, pure_bind, bind_assoc, htail, hproduct]
  exact (runs_trace _ _).bind ((runs_trace _ _).bind (runs_pure _))

omit [MathLibrary] [Stack] in
theorem isGroupContent_timesEuler (c : MathConstant) : c.timesEuler.IsGroupContent := by
  cases c <;> exact ⟨by decide, by decide, by decide, by decide⟩

theorem hasValue_timesEuler (c : MathConstant) : HasValue c.timesEuler c.eulerProduct := by
  have hnormalize : normalize c.timesEuler = c.timesEuler := by cases c <;> rfl
  have hflat : evaluateNormalized c.timesEuler = evaluateFlat 1 c.timesEuler := by
    cases c <;> exact evaluateNormalized_flat (by decide) (by decide) (by rfl)
  refine hasValue_of_runs (isGroupContent_timesEuler c) (by cases c <;> decide)
    (by cases c <;> decide) ?_
  obtain ⟨room, hroom⟩ := Term.exists_ofText_eq (show 5 ≤ 700 by decide)
  rw [hnormalize, hflat, evaluateFlat, hroom]
  exact runs_timesEuler c room 1

/-! ## A minus behind it -/

section

variable {c : MathConstant} (hc : c ≠ .permeability) {l : Literal} (hl : l.WellFormed)
include hc hl

omit [MathLibrary] [Stack] in
/-- No power of ten begins in the name of a constant without a digit. -/
theorem hasUnfinishedExponent_timesEuler :
    hasUnfinishedExponent (c.timesEuler ++ '-' :: l.text) = false := by
  have hplain : (c.timesEuler ++ ['-']).all (fun d => !Numeral.isMantissa d) = true := by
    cases c <;> first | exact absurd rfl hc | rfl
  rw [List.append_cons, hasUnfinishedExponent_of_not_mantissa fun d hd => by
    simpa using List.all_eq_true.1 hplain d hd, Literal.hasUnfinishedExponent_text hl]

/-- The minus subtracts from the product, as it does from the literal of the product. -/
theorem couples_timesEuler_minus (limits : Limits) :
    (TextCoupling.untraced limits).CouplesFinite (evaluateFlat 1 (c.timesEuler ++ '-' :: l.text))
      (evaluateFlat 1 (Literal.ofFloat c.eulerProduct ++ '-' :: l.text)) := by
  obtain ⟨hfinite, hzero⟩ := c.eulerProduct_spec
  have hsign : Operator.isSignAfter c.timesEuler.reverse = false := by
    cases c <;> first | exact absurd rfl hc | rfl
  obtain ⟨m, hm, htext, hmagnitude, hvalue⟩ := Literal.exists_ofFloat hfinite
  have hsign' : Operator.isSignAfter m.text.reverse = false := by
    simpa [Phrase.text] using
      (@Phrase.Fits.literal false 0 m hm).isSignAfter_eq_false []
  have hself : Number.unsigned c.eulerProduct = c.eulerProduct :=
    Number.unsigned_eq_self hfinite hzero
  obtain ⟨room, hroom⟩ := Term.exists_ofText_eq (show 6 ≤ 700 by decide)
  have hleft : (TextCoupling.untraced limits).CouplesFinite
      ((Term.read (room + 5) 0 c.timesEuler).evaluate 0) (literal m) := by
    have hliteral := runs_literal hmagnitude
    rw [hvalue, hself] at hliteral
    exact (runs_timesEuler c room 0).couples hliteral hfinite
  rw [← htext, evaluateFlat, evaluateFlat, hroom, hroom,
    Term.read_minus_literal hl hsign, Term.read_minus_literal hl hsign', Term.read_literal hm]
  simp only [Term.evaluate]
  exact hleft.bind fun a ha => (Coupling.couples_literal l).bind fun b hb =>
    Coupling.couples_operator (fun _ => trivial) (fun _ _ => trivial) ha hb

omit hc [MathLibrary] [Stack] in
/-- A minus and a literal are read as they are written, behind a name and behind a literal. -/
theorem normalize_minus_literal :
    normalize ('-' :: l.text) = '-' :: l.text ∧
      normalize (c.timesEuler ++ '-' :: l.text) = c.timesEuler ++ '-' :: l.text ∧
      ∀ m : Literal, m.WellFormed →
        normalize (m.text ++ '-' :: l.text) = m.text ++ '-' :: l.text := by
  have hrest : normalize ('-' :: l.text) = '-' :: l.text := by
    rw [normalize_cons (by decide) (by decide), Literal.normalize_text hl]
  have hblank : c.timesEuler.all (fun d => !Text.isBlank d) = true := by
    cases c <;> rfl
  refine ⟨hrest, ?_, fun m hm => by rw [Literal.normalize_append hm, hrest]⟩
  rw [normalize_append (fun d hd => by simpa using List.all_eq_true.1 hblank d hd)
    (by cases c <;> decide), hrest]

/-- Without parentheses, both texts are evaluated as they are. -/
theorem couples_evaluateNormalized_timesEuler_minus (limits : Limits) :
    (TextCoupling.untraced limits).CouplesFinite
      (evaluateNormalized (c.timesEuler ++ '-' :: l.text))
      (evaluateNormalized (Literal.ofFloat c.eulerProduct ++ '-' :: l.text)) := by
  obtain ⟨m, hm, htext, -⟩ := Literal.exists_ofFloat c.eulerProduct_spec.1
  have hexponent : hasUnfinishedExponent (Literal.ofFloat c.eulerProduct ++ '-' :: l.text) =
      false := by
    have hhead : l.text.head? ≠ some 'E' := by simpa using Literal.head?_append_ne hl []
    rw [← htext, Literal.hasUnfinishedExponent_append hm (by simp),
      hasUnfinishedExponent_cons hhead, Literal.hasUnfinishedExponent_text hl]
  have hplain : ∀ d, Literal.isLetter d = false → d ≠ '-' →
      d ∉ Literal.ofFloat c.eulerProduct ++ '-' :: l.text := by
    intro d hd hminus
    rw [← htext]
    simp [Literal.not_mem_text hm hd, Literal.not_mem_text hl hd, hminus]
  have hname : ∀ d, Literal.isLetter d = false → d ≠ '-' → d ∉ c.timesEuler →
      d ∉ c.timesEuler ++ '-' :: l.text := by
    intro d hd hminus hd'
    simp [hd', Literal.not_mem_text hl hd, hminus]
  rw [evaluateNormalized_flat (hname '(' (by decide) (by decide) (by cases c <;> decide))
      (hname ')' (by decide) (by decide) (by cases c <;> decide))
      (hasUnfinishedExponent_timesEuler hc hl),
    evaluateNormalized_flat (hplain '(' (by decide) (by decide))
      (hplain ')' (by decide) (by decide)) hexponent]
  exact couples_timesEuler_minus hc hl limits

/-- Behind a constant but `mu0`, an `E` is a constant too, and a minus behind it subtracts. -/
theorem untraced_evaluate_timesEuler_minus (limits : Limits) (dice : DiceSource) :
    (evaluate limits dice (c.timesEuler ++ '-' :: l.text)).map Outcome.untraced =
      (evaluate limits dice ('(' :: (c.timesEuler ++ ')' :: '-' :: l.text))).map
        Outcome.untraced := by
  obtain ⟨m, hm, htext, -⟩ := Literal.exists_ofFloat c.eulerProduct_spec.1
  obtain ⟨hrest, hwritten, hliteral⟩ := @normalize_minus_literal c l hl
  have hgroup : normalize ('(' :: (c.timesEuler ++ ')' :: '-' :: l.text)) =
      [] ++ '(' :: (normalize c.timesEuler ++ ')' :: '-' :: l.text) := by
    rw [normalize_cons (by decide) (by decide), normalize_append_cons (by decide) (by decide),
      hrest]
    rfl
  have hvalue : normalize (Literal.ofFloat c.eulerProduct ++ '-' :: l.text) =
      [] ++ (Group.starBefore ⟨[], c.timesEuler, '-' :: l.text⟩ ++
        Literal.ofFloat c.eulerProduct ++
        Group.starAfter ⟨[], c.timesEuler, '-' :: l.text⟩) ++ '-' :: l.text := by
    rw [← htext, hliteral m hm]
    exact congrArg (· ++ _) (List.append_nil _).symm
  rw [untraced_evaluate_value (hasValue_timesEuler c) List.not_mem_nil hgroup hvalue limits dice]
  refine untraced_evaluate_of_couples ?_ dice
  rw [hwritten, ← htext, hliteral m hm, htext]
  exact couples_evaluateNormalized_timesEuler_minus hc hl limits

end

/-! ## All signs -/

/-- In a text without parentheses and lists, a plus or minus that stands behind no operator and is
no operator is the sign of the power of ten of a numeral that is read, unless the text cannot be
read there, or has a power of ten without digits, or the `E` is a name behind `mu0` or behind a
numeral with a power of ten of its own.  Behind every constant but `mu0` the minus subtracts, as it
does behind the constant and the `E` in parentheses. -/
theorem exponentSign :
    (∀ (t before after : Text) (s : Char), '(' ∉ t → ')' ∉ t → '[' ∉ t → ']' ∉ t →
      t = before ++ s :: after → (s = '+' ∨ s = '-') →
      before.getLast?.any Operator.isOperator = false →
      Operator.isSignAfter before.reverse = true → (⟨[], t, []⟩ : Piece).SignFate before s) ∧
    ∀ (c : MathConstant) (n : Numeral), c ≠ .permeability → n.WellFormed →
      ∀ (limits : Limits) (dice : DiceSource),
        (evaluate limits dice ((Symbol.constant c).letters ++ 'E' :: '-' :: n.text)).map
            Outcome.untraced =
          (evaluate limits dice ('(' :: ((Symbol.constant c).letters ++
            'E' :: ')' :: '-' :: n.text))).map Outcome.untraced := by
  refine ⟨fun t before after s _ _ hbracket _ htext hs hoperator hsign =>
    Term.signFate_of_isSignAfter hbracket htext hs hoperator hsign, ?_⟩
  intro c n hc hn limits dice
  have hl : Literal.WellFormed ⟨false, n⟩ := hn
  have h := untraced_evaluate_timesEuler_minus hc hl limits dice
  rwa [MathConstant.timesEuler, List.append_assoc, List.append_assoc] at h

end Evaluation

/-- The sign of a power of ten, and a minus behind the product of two constants. -/
theorem Evaluation.exponentSign_pi :
    (⟨[], ['2', '*', '1', 'E', '-', '3'], []⟩ : Piece).SignFate ['2', '*', '1', 'E'] '-' ∧
      (evaluate {} (.ofSeed 1) ['p', 'i', 'E', '-', '3']).map Outcome.untraced =
        (evaluate {} (.ofSeed 1) ['(', 'p', 'i', 'E', ')', '-', '3']).map Outcome.untraced := by
  obtain ⟨hfate, hminus⟩ := exponentSign
  have hthree : Numeral.WellFormed ⟨['3'], false, [], none⟩ :=
    Numeral.wellFormed_iff_scan?.2 (by rfl)
  exact ⟨hfate _ ['2', '*', '1', 'E'] ['3'] '-' (by decide) (by decide) (by decide) (by decide) rfl
    (.inr rfl) (by decide) (by rfl), hminus .pi _ (by decide) hthree {} (.ofSeed 1)⟩

/-- Behind `mu0`, the minus does not subtract from the product: what is computed is `mu0` times the
difference of `E` and three. -/
theorem Evaluation.evaluate_permeability_exponent :
    Operator.isSignAfter ['m', 'u', '0', 'E'].reverse = true ∧
      evaluatesTo ['m', 'u', '0', 'E', '-', '3'] (-3.5401749543104375e-7) = true ∧
      evaluatesTo ['(', 'm', 'u', '0', 'E', ')', '-', '3'] (-2.999996584106309) = true ∧
      evaluatesTo ['m', 'u', '0', '*', '(', 'E', '-', '3', ')'] (-3.5401749543104375e-7) = true ∧
      ((-3.5401749543104375e-7 : Float) == -2.999996584106309) = false :=
  ⟨by rfl, by decide +kernel, by decide +kernel, by decide +kernel, by decide +kernel⟩

end Reckoner

import Mathlib
import Reckoner.Expression.Split
import Reckoner.Proofs.Expression.Literal

/-!
# Where a text is split

The scan for an operator of a tier goes left and passes the parts of a text in which the tier has
no operator (`Split.Passes`).  A text is then split at the operator in front of what was passed
(`Split.loosest?_eq_some`), or nowhere (`Split.loosest?_eq_none`).  Literals are always passed, and
so are argument lists.
-/

namespace Reckoner

/-! ## Characters that are operators -/

namespace Tier

/-- The place of a tier among the tiers, the loosest first. -/
def rank : Tier → Nat
  | sum => 0
  | product => 1
  | power => 2
  | random => 3

/-- The characters that are binary operators. -/
def letters : Text := ['+', '-', '*', '×', '/', '÷', '^', 'd', 'D', '%']

theorem mem_letters {tier : Tier} {c : Char} {op : Operator} (h : tier.operator? c = some op) :
    c ∈ letters := by
  unfold operator? at h
  split at h <;> first | decide | cases h

theorem operator?_eq_none {tier : Tier} {c : Char} (h : c ∉ letters) : tier.operator? c = none := by
  cases hop : tier.operator? c with
  | none => rfl
  | some op => exact absurd (mem_letters hop) h

end Tier

namespace Operator

theorem isOperator_iff {c : Char} : isOperator c = true ↔ c ∈ Tier.letters := by
  constructor
  · intro h
    obtain ⟨tier, -, hsome⟩ := List.any_eq_true.1 h
    obtain ⟨op, hop⟩ := Option.isSome_iff_exists.1 hsome
    exact Tier.mem_letters hop
  · have hall : Tier.letters.all isOperator = true := by decide
    exact List.all_eq_true.1 hall c

theorem isOperator_of_operator? {tier : Tier} {c : Char} {op : Operator}
    (h : tier.operator? c = some op) : isOperator c = true :=
  isOperator_iff.2 (Tier.mem_letters h)

theorem at?_eq_none {tier : Tier} {before : Text} {c : Char} (h : tier.operator? c = none) :
    at? tier before c = none := by
  unfold at?
  split
  · rfl
  · exact h

/-- A sign after another operator is no operator. -/
theorem at?_sum_eq_none {before : Text} {c : Char} (h : isSignAfter before = true) :
    at? .sum before c = none := by
  simp [at?, h]

theorem at?_of_not_isSignAfter {tier : Tier} {before : Text} {c : Char} {op : Operator}
    (h : tier.operator? c = some op) (hsign : tier = .sum → isSignAfter before = false) :
    at? tier before c = some op := by
  unfold at?
  rw [if_neg]
  · exact h
  · intro hboth
    simp only [Bool.and_eq_true, decide_eq_true_eq] at hboth
    rw [hsign hboth.1] at hboth
    exact absurd hboth.2 (by decide)

theorem isSignAfter_of_operator? {tier : Tier} {before : Text} {c : Char} {op : Operator}
    (h : tier.operator? c = some op) : isSignAfter (c :: before) = true := by
  simp [isSignAfter, isOperator_of_operator? h]

end Operator

/-! ## Passing -/

namespace Split

variable {tier : Tier} {before : Text}

/-- The scan for an operator of a tier finds none in a text that stands after the reversed
`before`. -/
def Passes (tier : Tier) (before t : Text) : Prop :=
  ∀ after, goLeft tier 0 after (t.reverse ++ before) = goLeft tier 0 (t ++ after) before

theorem passes_nil : Passes tier before [] := fun _ => rfl

theorem Passes.append {s t : Text} (hs : Passes tier before s)
    (ht : Passes tier (s.reverse ++ before) t) : Passes tier before (s ++ t) := by
  intro after
  rw [List.reverse_append, List.append_assoc, ht, hs, List.append_assoc]

/-- Outside of every list, the scan passes a character that is no operator. -/
theorem goLeft_of_at? {c : Char} {after : Text} (h : c ≠ ']') (h' : c ≠ '[')
    (hat : Operator.at? tier before c = none) :
    goLeft tier 0 after (c :: before) = goLeft tier 0 (c :: after) before := by
  rw [goLeft, if_neg h, if_neg h', if_pos rfl, hat]

theorem passes_cons {c : Char} {t : Text} (h : c ≠ ']') (h' : c ≠ '[')
    (hat : Operator.at? tier before c = none) (ht : Passes tier (c :: before) t) :
    Passes tier before (c :: t) := by
  have hc : Passes tier before [c] := by
    intro after
    exact goLeft_of_at? h h' hat
  exact hc.append ht

/-- Whether a character is neither an operator nor a bracket of a list. -/
def isPlain (c : Char) : Bool := c != ']' && c != '[' && !Operator.isOperator c

theorem passes_of_isPlain {t : Text} (h : ∀ c ∈ t, isPlain c = true) : Passes tier before t := by
  induction t generalizing before with
  | nil => exact passes_nil
  | cons c t ih =>
    have hc := h c (by simp)
    simp only [isPlain, Bool.and_eq_true, bne_iff_ne, Bool.not_eq_true'] at hc
    have hop : tier.operator? c = none := by
      refine Tier.operator?_eq_none ?_
      intro hmem
      rw [Operator.isOperator_iff.2 hmem] at hc
      exact absurd hc.2 (by decide)
    exact passes_cons hc.1.1 hc.1.2 (Operator.at?_eq_none hop)
      (ih fun d hd => h d (List.mem_cons_of_mem _ hd))

/-! ## Numerals and literals -/

theorem ne_of_isMantissa {c d : Char} (h : Numeral.isMantissa c = true)
    (hd : Numeral.isMantissa d = false) : c ≠ d := by
  rintro rfl
  rw [h] at hd
  exact absurd hd (by decide)

theorem not_isOperator_of_isMantissa {c : Char} (h : Numeral.isMantissa c = true) :
    Operator.isOperator c = false := by
  have hnone : Tier.letters.all (fun d => !Numeral.isMantissa d) = true := by decide
  cases hop : Operator.isOperator c with
  | false => rfl
  | true =>
    have hc := List.all_eq_true.1 hnone c (Operator.isOperator_iff.1 hop)
    simp [h] at hc

theorem isPlain_of_isMantissa {c : Char} (h : Numeral.isMantissa c = true) : isPlain c = true := by
  simp [isPlain, ne_of_isMantissa h (show Numeral.isMantissa ']' = false by decide),
    ne_of_isMantissa h (show Numeral.isMantissa '[' = false by decide),
    not_isOperator_of_isMantissa h]

/-- The sign of a power of ten is no operator. -/
theorem isSignAfter_exponent {c : Char} (h : Numeral.isMantissa c = true) :
    Operator.isSignAfter ('E' :: c :: before) = true := by
  simp only [Numeral.isMantissa, Bool.or_eq_true] at h
  rcases h with h | h <;> simp [Operator.isSignAfter, Text.isDigit, h]

/-- A numeral is passed. -/
theorem passes_numeral {n : Numeral} (h : n.WellFormed) : Passes tier before n.text := by
  have hmantissa := Numeral.isMantissa_of_mem h
  rw [Numeral.text_eq]
  refine (passes_of_isPlain fun c hc => isPlain_of_isMantissa (hmantissa c hc)).append ?_
  obtain ⟨start, c, hlast⟩ := (List.eq_nil_or_concat' _).resolve_left (Numeral.mantissa_ne_nil h)
  have hc : Numeral.isMantissa c = true := hmantissa c (by simp [hlast])
  rw [hlast, List.reverse_append]
  cases he : n.exponent with
  | none => exact passes_nil
  | some e =>
    have hwell := h.exponent e he
    have hdigits : ∀ before, Passes tier before e.digits := by
      intro before
      exact passes_of_isPlain fun d hd =>
        isPlain_of_isMantissa (by simp [Numeral.isMantissa, hwell.digits d hd])
    have hsum : ∀ d, Operator.at? .sum ('E' :: c :: (start.reverse ++ before)) d = none := by
      intro d
      exact Operator.at?_sum_eq_none (isSignAfter_exponent hc)
    simp only [Option.map_some, Option.getD_some, WrittenExponent.text, List.cons_append]
    refine passes_cons (by decide) (by decide) (Operator.at?_eq_none (by cases tier <;> rfl)) ?_
    cases hsign : e.sign with
    | none => exact hdigits _
    | some d =>
      have hat : Operator.at? tier ('E' :: c :: (start.reverse ++ before)) d = none := by
        rcases hwell.sign d hsign with rfl | rfl <;> cases tier <;>
          first | exact hsum _ | rfl
      rcases hwell.sign d hsign with rfl | rfl <;>
        exact passes_cons (by decide) (by decide) hat (hdigits _)

/-- A literal is passed. -/
theorem passes_literal {l : Literal} (h : l.WellFormed) : Passes tier before l.text := by
  rw [Literal.text]
  refine Passes.append ?_ (passes_numeral h)
  split
  · exact passes_cons (by decide) (by decide) (Operator.at?_eq_none (by cases tier <;> rfl))
      passes_nil
  · exact passes_nil

/-! ## Splitting -/

theorem ne_bracket_of_operator? {c : Char} {op : Operator} (h : tier.operator? c = some op) :
    c ≠ ']' ∧ c ≠ '[' := by
  have hmem := Tier.mem_letters h
  constructor <;>
  · rintro rfl
    exact absurd hmem (by decide)

theorem ne_separator_of_operator? {c : Char} {op : Operator} (h : tier.operator? c = some op) :
    c ≠ ',' ∧ c ≠ ';' := by
  have hmem := Tier.mem_letters h
  constructor <;>
  · rintro rfl
    exact absurd hmem (by decide)

theorem atTier?_eq_none {t : Text} (h : Passes tier [] t) : atTier? tier t = none := by
  have := h []
  rw [List.append_nil, List.append_nil] at this
  rw [atTier?, this, goLeft]

/-- A text is split at an operator with nothing but passed text after it. -/
theorem atTier?_eq_some {left right : Text} {c : Char} {op : Operator}
    (hop : tier.operator? c = some op)
    (hsign : tier = .sum → Operator.isSignAfter left.reverse = false)
    (h : Passes tier (c :: left.reverse) right) :
    atTier? tier (left ++ c :: right) = some ⟨left, op, right⟩ := by
  have hreverse : (left ++ c :: right).reverse = right.reverse ++ c :: left.reverse := by simp
  obtain ⟨hclose, hopen⟩ := ne_bracket_of_operator? hop
  rw [atTier?, hreverse, h, goLeft, if_neg hclose, if_neg hopen, if_pos rfl,
    Operator.at?_of_not_isSignAfter hop hsign]
  simp

theorem loosest?_eq_none {t : Text} (h : ∀ tier, Passes tier [] t) : loosest? t = none := by
  simp [loosest?, Tier.all, atTier?_eq_none (h _)]

/-- A text is split at a tier if the looser tiers have no operator in it. -/
theorem loosest?_eq_some {t : Text} {s : Split} (hs : atTier? tier t = some s)
    (h : ∀ looser : Tier, looser.rank < tier.rank → Passes looser [] t) : loosest? t = some s := by
  cases tier with
  | sum => simp [loosest?, Tier.all, hs]
  | product =>
    simp [loosest?, Tier.all, hs, atTier?_eq_none (h .sum (by decide))]
  | power =>
    simp [loosest?, Tier.all, hs, atTier?_eq_none (h .sum (by decide)),
      atTier?_eq_none (h .product (by decide))]
  | random =>
    simp [loosest?, Tier.all, hs, atTier?_eq_none (h .sum (by decide)),
      atTier?_eq_none (h .product (by decide)), atTier?_eq_none (h .power (by decide))]

end Split

end Reckoner

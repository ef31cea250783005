import Mathlib
import Reckoner.Evaluation.Group
import Reckoner.Proofs.Expression.Term

/-!
# Phrases

A phrase is a tree of operators over literals, written without parentheses.  Which trees a text
without parentheses stands for is told by `Phrase.Fits`: the tiers bind in their order, every tier
binds to the left, and a sign binds a whole operand.  The text of such a phrase is read as the
phrase (`Phrase.Fits.evaluate_read`), however long its chains of operators are, if there is room
for their nesting.
-/

namespace Reckoner

/-! ## Trees of operators -/

/-- A binary operator of a tier as it is spelled. -/
structure Spelling (tier : Tier) where
  /-- The character. -/
  letter : Char
  /-- What it stands for. -/
  operator : Operator
  /-- It is a character of the tier. -/
  spells : tier.operator? letter = some operator

/-- The sign of an operand. -/
inductive Sign where
  | plus
  | minus
  deriving DecidableEq, Repr

namespace Sign

/-- The character of a sign. -/
def letter : Sign → Char
  | plus => '+'
  | minus => '-'

/-- A sign is an addition to zero or a subtraction from zero. -/
def arithmetic : Sign → Arithmetic
  | plus => .add
  | minus => .subtract

theorem operator?_letter (s : Sign) :
    Tier.sum.operator? s.letter = some (.arithmetic s.arithmetic) := by
  cases s <;> rfl

theorem neutral_arithmetic (s : Sign) : (Operator.arithmetic s.arithmetic).neutral = 0 := by
  cases s <;> rfl

end Sign

/-- A tree of operators over literals. -/
inductive Phrase where
  /-- A literal. -/
  | literal (l : Literal)
  /-- A factorial. -/
  | factorial (operand : Phrase)
  /-- A sign before an operand. -/
  | signed (sign : Sign) (operand : Phrase)
  /-- An operator between two operands. -/
  | binary {tier : Tier} (spelling : Spelling tier) (left right : Phrase)

namespace Phrase

/-- The text of a phrase. -/
def text : Phrase → Text
  | literal l => l.text
  | factorial operand => operand.text ++ ['!']
  | signed sign operand => sign.letter :: operand.text
  | binary spelling left right => left.text ++ spelling.letter :: right.text

/-- How deep a phrase is nested. -/
def height : Phrase → Nat
  | literal _ => 0
  | factorial operand => operand.height + 1
  | signed _ operand => operand.height + 1
  | binary _ left right => max left.height right.height + 1

/-- The value of a phrase: operands from left to right, then their operator.  A sign adds to zero
or subtracts from it. -/
def evaluate [MathLibrary] : Phrase → Evaluation Float
  | literal l => Evaluation.literal l
  | factorial operand => do
    Reckoner.factorial (← operand.evaluate)
  | signed sign operand => do
    let x ← operand.evaluate
    Evaluation.arithmetic sign.arithmetic (signed sign operand).text 0 x
  | binary spelling left right => do
    let a ← left.evaluate
    let b ← right.evaluate
    Evaluation.operator spelling.operator (binary spelling left right).text a b

/-- The phrases that can stand where operators of a tier, by its rank, or tighter ones may be used;
`lead` tells whether a sign may lead them.  The right operand of an operator is tighter than the
operator, and both what leads a sum and what follows an operator may be signed. -/
inductive Fits : (lead : Bool) → (rank : Nat) → Phrase → Prop where
  /-- A literal fits everywhere. -/
  | literal {lead : Bool} {rank : Nat} {l : Literal} (h : l.WellFormed) : Fits lead rank (literal l)
  /-- The operand of a factorial is a literal or a factorial. -/
  | factorial {lead : Bool} {rank : Nat} {operand : Phrase} (h : Fits false 4 operand) :
    Fits lead rank (factorial operand)
  /-- A sign binds a whole operand of the tier, or of the products in a sum. -/
  | signed {rank : Nat} {sign : Sign} {operand : Phrase} (h : Fits true (max rank 1) operand) :
    Fits true rank (signed sign operand)
  /-- An operator has operands of its tier on the left and tighter ones on the right. -/
  | binary {lead : Bool} {rank : Nat} {tier : Tier} {spelling : Spelling tier}
    {left right : Phrase} (hrank : rank ≤ tier.rank) (hlead : tier = .sum → lead = true)
    (hleft : Fits (tier = .sum) tier.rank left) (hright : Fits true (tier.rank + 1) right) :
    Fits lead rank (binary spelling left right)

end Phrase

/-! ## Tiers of characters -/

/-- A character is an operator of one tier only. -/
theorem Tier.operator?_eq_none_of_ne {tier other : Tier} {c : Char} {op : Operator}
    (h : tier.operator? c = some op) (hne : other.rank ≠ tier.rank) : other.operator? c = none := by
  unfold Tier.operator? at h
  split at h <;> cases other <;> first | rfl | exact (hne rfl).elim | cases h

namespace Phrase.Fits

variable {lead : Bool} {rank : Nat} {p : Phrase}

/-- What fits without a sign fits where looser operators or signs may stand too. -/
theorem weaken {k : Nat} (h : Fits false k p) (hrank : rank ≤ k) : Fits lead rank p := by
  cases h with
  | literal h => exact .literal h
  | factorial h => exact .factorial h
  | binary hk hlead hleft hright =>
    exact .binary (hrank.trans hk) (fun hsum => absurd (hlead hsum) (by decide)) hleft hright

/-- No phrase ends with an operator or an unfinished power of ten. -/
theorem isSignAfter_eq_false (h : Fits lead rank p) (before : Text) :
    Operator.isSignAfter (p.text.reverse ++ before) = false := by
  induction h generalizing before with
  | literal h =>
    obtain ⟨start, c, hl, hc⟩ := Term.exists_last_literal h
    have hE : c ≠ 'E' := Split.ne_of_isMantissa hc (by decide)
    simp [text, hl, Operator.isSignAfter, Split.not_isOperator_of_isMantissa hc, hE]
  | factorial h ih =>
    simp only [text, List.reverse_append]
    rfl
  | signed h ih =>
    simp only [text, List.reverse_cons, List.append_assoc]
    exact ih _
  | binary hrank hlead hleft hright ihleft ihright =>
    simp only [text, List.reverse_append, List.reverse_cons, List.append_assoc]
    exact ihright _

/-- The characters that a phrase is written with. -/
theorem mem_text (h : Fits lead rank p) {c : Char} (hc : c ∈ p.text) :
    Literal.isLetter c = true ∨ c = '!' ∨ Operator.isOperator c = true := by
  induction h with
  | literal h => exact .inl (Literal.isLetter_of_mem h c hc)
  | factorial h ih =>
    rcases List.mem_append.1 hc with hc | hc
    · exact ih hc
    · exact .inr (.inl (List.mem_singleton.1 hc))
  | @signed rank sign operand h ih =>
    rcases List.mem_cons.1 hc with rfl | hc
    · exact .inr (.inr (Operator.isOperator_of_operator? sign.operator?_letter))
    · exact ih hc
  | @binary lead rank tier spelling left right hrank hlead hleft hright ihleft ihright =>
    rcases List.mem_append.1 hc with hc | hc
    · exact ihleft hc
    · rcases List.mem_cons.1 hc with rfl | hc
      · exact .inr (.inr (Operator.isOperator_of_operator? spelling.spells))
      · exact ihright hc

theorem hasParenthesis_eq_false (h : Fits lead rank p) :
    Evaluation.hasParenthesis p.text = false := by
  have hopening : '(' ∉ p.text := by
    intro hc
    exact absurd (h.mem_text hc) (by decide)
  have hclosing : ')' ∉ p.text := by
    intro hc
    exact absurd (h.mem_text hc) (by decide)
  simp [Evaluation.hasParenthesis, hopening, hclosing]

/-- A phrase has no operator of a looser tier, except for the signs of its operands. -/
theorem passes (h : Fits lead rank p) {tier : Tier} (htier : tier.rank < rank) {before : Text}
    (hbefore : lead = true → tier = .sum → Operator.isSignAfter before = true) :
    Split.Passes tier before p.text := by
  induction h generalizing before with
  | literal h => exact Split.passes_literal h
  | factorial h ih =>
    have hfour : tier.rank < 4 := by cases tier <;> decide
    refine (ih hfour (by simp)).append (Split.passes_cons (by decide) (by decide) ?_
      Split.passes_nil)
    exact Operator.at?_eq_none (by cases tier <;> rfl)
  | @signed rank sign operand h ih =>
    have hsign := sign.operator?_letter
    obtain ⟨hclose, hopen⟩ := Split.ne_bracket_of_operator? hsign
    refine Split.passes_cons hclose hopen ?_ (ih (by omega) fun _ _ => ?_)
    · by_cases hsum : tier = .sum
      · rw [hsum]
        exact Operator.at?_sum_eq_none (hbefore rfl hsum)
      · refine Operator.at?_eq_none (Tier.operator?_eq_none_of_ne hsign ?_)
        cases tier <;> simp_all [Tier.rank]
    · exact Operator.isSignAfter_of_operator? hsign
  | @binary lead rank other spelling left right hrank hlead hleft hright ihleft ihright =>
    obtain ⟨hclose, hopen⟩ := Split.ne_bracket_of_operator? spelling.spells
    have hsum : other ≠ .sum := by
      rintro rfl
      simp only [Tier.rank] at hrank
      omega
    refine (ihleft (by omega) (by simp [hsum])).append (Split.passes_cons hclose hopen ?_
      (ihright (by omega) fun _ _ => Operator.isSignAfter_of_operator? spelling.spells))
    exact Operator.at?_eq_none (Tier.operator?_eq_none_of_ne spelling.spells (by omega))

/-! ## Reading phrases -/

/-- The text of a phrase is read as the phrase, if there is room for its nesting. -/
theorem evaluate_read [MathLibrary] [Stack] (h : Fits lead rank p) {room : Nat}
    (hroom : p.height < room) (neutral : Float) :
    (Term.read room 0 p.text).evaluate neutral = p.evaluate := by
  obtain ⟨room, rfl⟩ : ∃ r, room = r + 1 := ⟨room - 1, by omega⟩
  induction h generalizing room neutral with
  | literal h =>
    rw [text, Term.read_literal h, Term.evaluate, evaluate]
  | @factorial lead rank operand h ih =>
    have hfour : ∀ tier : Tier, tier.rank < 4 := by
      intro tier
      cases tier <;> decide
    have hfits : Fits false 4 operand.factorial := .factorial h
    have hpass : ∀ tier, Split.Passes tier [] (operand.text ++ ['!']) := by
      intro tier
      exact hfits.passes (hfour tier) (by simp)
    simp only [height] at hroom
    obtain ⟨room, rfl⟩ : ∃ r, room = r + 1 := ⟨room - 1, by omega⟩
    rw [text, Term.read_of_bang (Split.loosest?_eq_none hpass), Term.evaluate, evaluate,
      ih _ _ (by omega)]
  | @signed rank sign operand h ih =>
    have hsign := sign.operator?_letter
    have hpass : Split.Passes .sum [sign.letter] operand.text :=
      h.passes (by simp [Tier.rank]) fun _ _ => Operator.isSignAfter_of_operator? hsign
    have hsplit : Split.atTier? .sum (sign.letter :: operand.text) =
        some ⟨[], .arithmetic sign.arithmetic, operand.text⟩ :=
      @Split.atTier?_eq_some _ [] _ _ _ hsign (fun _ => rfl) hpass
    simp only [height] at hroom
    obtain ⟨room, rfl⟩ : ∃ r, room = r + 1 := ⟨room - 1, by omega⟩
    rw [text, Term.read_of_loosest? (by simp)
      (Split.loosest?_eq_some hsplit fun looser hlooser => absurd hlooser (by simp [Tier.rank]))]
    -- nothing stands before the sign, which counts as zero
    simp only [Term.read_nil, Term.evaluate, sign.neutral_arithmetic, pure_bind,
      evaluate, Evaluation.operator, ih _ _ (show operand.height < room + 1 by omega)]
    rfl
  | @binary lead rank tier spelling left right hrank hlead hleft hright ihleft ihright =>
    have hspells := spelling.spells
    have hsign : Operator.isSignAfter (spelling.letter :: left.text.reverse) = true :=
      Operator.isSignAfter_of_operator? hspells
    have hpass : Split.Passes tier (spelling.letter :: left.text.reverse) right.text :=
      hright.passes (by omega) fun _ _ => hsign
    have hafter : Operator.isSignAfter left.text.reverse = false := by
      simpa using hleft.isSignAfter_eq_false []
    have hsplit := Split.atTier?_eq_some hspells (fun _ => hafter) hpass
    have hlooser : ∀ looser : Tier, looser.rank < tier.rank →
        Split.Passes looser [] (left.text ++ spelling.letter :: right.text) := by
      intro looser hlt
      have hsum : tier ≠ .sum := by
        rintro rfl
        exact absurd hlt (by simp [Tier.rank])
      have hfits : Fits false tier.rank (.binary spelling left right) :=
        .binary le_rfl (fun h => absurd h hsum) hleft hright
      exact hfits.passes hlt (by simp)
    simp only [height] at hroom
    obtain ⟨room, rfl⟩ : ∃ r, room = r + 1 := ⟨room - 1, by omega⟩
    rw [text, Term.read_of_loosest? (by simp) (Split.loosest?_eq_some hsplit hlooser)]
    simp only [Term.evaluate, evaluate, ihleft _ _ (show left.height < room + 1 by omega),
      ihright _ _ (show right.height < room + 1 by omega), text]

end Phrase.Fits

end Reckoner

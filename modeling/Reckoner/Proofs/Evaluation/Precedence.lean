import Mathlib
import Reckoner.Proofs.Evaluation.Phrase

/-!
# Precedence

The grammar of the texts without parentheses and lists, with its four tiers of binary operators.
An operand of a tier is a chain of the next tighter tier, any operand but the first of a chain may
be signed, and so may be the first of a sum.  The value of such a text is the value of the tree in
which every chain binds to the left and every run of signs binds the operand that it precedes
(`Sums.evaluateText_text`).
-/

namespace Reckoner.Grammar

/-! ## Derivations -/

/-- A numeral with factorials behind it. -/
structure Factors where
  /-- The numeral. -/
  numeral : Numeral
  /-- It can be written. -/
  wellFormed : numeral.WellFormed
  /-- How many factorials are taken of it. -/
  bangs : Nat

/-- An operator of a tier with its right operand, which may be signed. -/
structure Link (tier : Tier) (α : Type) where
  /-- The operator. -/
  spelling : Spelling tier
  /-- The signs before the operand. -/
  signs : List Sign
  /-- The operand. -/
  operand : α

/-- A chain of operands with operators of a tier between them. -/
structure Chain (tier : Tier) (α : Type) where
  /-- The first operand. -/
  first : α
  /-- The other operands, each with the operator before it. -/
  links : List (Link tier α)

/-- Operands of dice operators and remainders. -/
abbrev Randoms := Chain .random Factors

/-- Operands of powers. -/
abbrev Powers := Chain .power Randoms

/-- Operands of products and quotients. -/
abbrev Products := Chain .product Powers

/-- A sum, whose first operand may be signed too. -/
structure Sums where
  /-- The signs before the first operand. -/
  signs : List Sign
  /-- The operands. -/
  chain : Chain .sum Products

/-! ## Texts and trees -/

/-- The text of a run of signs. -/
def signsText (signs : List Sign) : Text := signs.map Sign.letter

/-- A run of signs before an operand; the sign next to the operand applies first. -/
def signed (signs : List Sign) (operand : Phrase) : Phrase := signs.foldr Phrase.signed operand

namespace Factors

/-- The text of a numeral with its factorials. -/
def text (f : Factors) : Text := f.numeral.text ++ List.replicate f.bangs '!'

/-- The tree of a numeral with its factorials. -/
def phrase (f : Factors) : Phrase := Phrase.factorial^[f.bangs] (.literal ⟨false, f.numeral⟩)

end Factors

section

variable {tier : Tier} {α : Type} (write : α → Text) (tree : α → Phrase)

/-- The text of an operator with its right operand. -/
def Link.text (l : Link tier α) : Text :=
  l.spelling.letter :: signsText l.signs ++ write l.operand

/-- The tree of an operator between a tree and its right operand. -/
def Link.attach (left : Phrase) (l : Link tier α) : Phrase :=
  .binary l.spelling left (signed l.signs (tree l.operand))

/-- The text of a chain. -/
def Chain.text (c : Chain tier α) : Text := write c.first ++ c.links.flatMap (Link.text write)

/-- The tree of a chain, which binds to the left. -/
def Chain.phrase (c : Chain tier α) : Phrase :=
  c.links.foldl (Link.attach tree) (tree c.first)

end

/-- The text of a chain of dice operators and remainders. -/
def Randoms.text : Randoms → Text := Chain.text Factors.text

/-- The tree of a chain of dice operators and remainders. -/
def Randoms.phrase : Randoms → Phrase := Chain.phrase Factors.phrase

/-- The text of a chain of powers. -/
def Powers.text : Powers → Text := Chain.text Randoms.text

/-- The tree of a chain of powers. -/
def Powers.phrase : Powers → Phrase := Chain.phrase Randoms.phrase

/-- The text of a chain of products and quotients. -/
def Products.text : Products → Text := Chain.text Powers.text

/-- The tree of a chain of products and quotients. -/
def Products.phrase : Products → Phrase := Chain.phrase Powers.phrase

/-- The text of a sum. -/
def Sums.text (s : Sums) : Text := signsText s.signs ++ s.chain.text Products.text

/-- The tree of a sum: the signs before it bind its first operand. -/
def Sums.phrase (s : Sums) : Phrase :=
  s.chain.links.foldl (Link.attach Products.phrase) (signed s.signs s.chain.first.phrase)

/-! ## The trees have the texts -/

theorem text_signed (signs : List Sign) (operand : Phrase) :
    (signed signs operand).text = signsText signs ++ operand.text := by
  induction signs with
  | nil => rfl
  | cons sign signs ih =>
    show sign.letter :: (signed signs operand).text = _
    rw [ih]
    rfl

theorem Factors.text_phrase (f : Factors) : f.phrase.text = f.text := by
  obtain ⟨n, h, bangs⟩ := f
  simp only [phrase, text]
  induction bangs with
  | zero => simp [Phrase.text, Literal.text]
  | succ k ih =>
    rw [Function.iterate_succ_apply', Phrase.text, ih, List.replicate_succ', List.append_assoc]

section

variable {tier : Tier} {α : Type} {write : α → Text} {tree : α → Phrase}

theorem text_foldl_attach (h : ∀ x, (tree x).text = write x) (links : List (Link tier α))
    (start : Phrase) :
    (links.foldl (Link.attach tree) start).text =
      start.text ++ links.flatMap (Link.text write) := by
  induction links generalizing start with
  | nil => simp
  | cons l links ih =>
    rw [List.foldl_cons, ih, Link.attach, Phrase.text, text_signed, h, List.flatMap_cons, Link.text]
    simp

theorem Chain.text_phrase (h : ∀ x, (tree x).text = write x) (c : Chain tier α) :
    (c.phrase tree).text = c.text write := by
  rw [Chain.phrase, text_foldl_attach h, h]
  rfl

end

theorem Products.text_phrase (p : Products) : p.phrase.text = p.text :=
  Chain.text_phrase (Chain.text_phrase (Chain.text_phrase Factors.text_phrase)) p

theorem Sums.text_phrase (s : Sums) : s.phrase.text = s.text := by
  rw [Sums.phrase, text_foldl_attach Products.text_phrase, text_signed, Products.text_phrase,
    Sums.text, Chain.text, List.append_assoc]

/-! ## The trees fit their tiers -/

/-- Signs may be written before what fits without them. -/
theorem fits_signed {rank : Nat} {operand : Phrase} (h : operand.Fits false (max rank 1))
    (signs : List Sign) : (signed signs operand).Fits true rank := by
  induction signs generalizing rank with
  | nil => exact h.weaken (le_max_left _ _)
  | cons sign signs ih => exact .signed (ih (by simpa using h))

theorem Factors.fits_phrase (f : Factors) (rank : Nat) : f.phrase.Fits false rank := by
  obtain ⟨n, h, bangs⟩ := f
  simp only [phrase]
  induction bangs generalizing rank with
  | zero => exact .literal h
  | succ k ih =>
    rw [Function.iterate_succ_apply']
    exact .factorial (ih _)

section

variable {tier : Tier} {α : Type} {tree : α → Phrase}

/-- A chain fits its tier, if its operands fit the next tighter one. -/
theorem fits_foldl_attach (h : ∀ x, (tree x).Fits false (tier.rank + 1))
    (links : List (Link tier α)) {start : Phrase} (hstart : start.Fits (tier = .sum) tier.rank) :
    (links.foldl (Link.attach tree) start).Fits (tier = .sum) tier.rank := by
  induction links generalizing start with
  | nil => exact hstart
  | cons l links ih =>
    refine ih (.binary le_rfl (fun hsum => decide_eq_true hsum) hstart (fits_signed ?_ _))
    simpa using h l.operand

theorem Chain.fits_phrase (htier : tier ≠ .sum) (h : ∀ x, (tree x).Fits false (tier.rank + 1))
    (c : Chain tier α) : (c.phrase tree).Fits false tier.rank := by
  have hfits := fits_foldl_attach h c.links ((h c.first).weaken (Nat.le_succ _))
  rw [decide_eq_false htier] at hfits
  exact hfits

end

theorem Products.fits_phrase (p : Products) : p.phrase.Fits false Tier.product.rank :=
  Chain.fits_phrase (by decide) (Chain.fits_phrase (by decide) (Chain.fits_phrase (by decide)
    fun f => f.fits_phrase _)) p

theorem Sums.fits_phrase (s : Sums) : s.phrase.Fits true 0 := by
  have hfirst : (signed s.signs s.chain.first.phrase).Fits true Tier.sum.rank :=
    fits_signed s.chain.first.fits_phrase s.signs
  exact fits_foldl_attach Products.fits_phrase s.chain.links hfirst

/-! ## The value of a text -/

/-- The value of a text of the grammar is the value of its tree: the same number, the same problems
and the same dice, in every session and under all limits. -/
theorem Sums.evaluateText_text [MathLibrary] [Stack] (s : Sums) (neutral : Float)
    (h : s.phrase.height < Stack.levels) :
    Evaluation.evaluateText neutral s.text = s.phrase.evaluate := by
  rw [← s.text_phrase, Evaluation.evaluateText_def, s.fits_phrase.hasParenthesis_eq_false,
    if_neg (by decide), evaluateFlat, Term.ofText, s.fits_phrase.evaluate_read h]

/-- A numeral of one digit. -/
def digit (c : Char) (h : Text.isDecimal c = true) : Factors where
  numeral := ⟨[c], false, [], none⟩
  wellFormed := ⟨by simpa using h, by simp, .inl (by simp), fun _ => rfl, by simp⟩
  bangs := 0

/-- A signed power after a product sign. -/
def signedPower : Sums where
  signs := []
  chain :=
    { first :=
        { first := ⟨⟨digit '2' (by decide), []⟩, []⟩
          links := [⟨⟨'*', _, rfl⟩, [.minus],
            ⟨⟨digit '3' (by decide), []⟩, [⟨⟨'^', _, rfl⟩, [], ⟨digit '2' (by decide), []⟩⟩]⟩⟩] }
      links := [] }

theorem evaluateText_signedPower :
    signedPower.phrase.height < Stack.levels ∧
      Evaluation.evaluateText 1 ['2', '*', '-', '3', '^', '2'] = signedPower.phrase.evaluate := by
  have h : signedPower.phrase.height < Stack.levels := Stack.lt_levels (by decide)
  exact ⟨h, signedPower.evaluateText_text 1 h⟩

end Reckoner.Grammar

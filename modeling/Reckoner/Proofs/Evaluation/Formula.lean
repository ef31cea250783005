import Mathlib
import Reckoner.Proofs.Evaluation.Rewriting

/-!
# Formulas

A formula is a tree of numerals, operators, factorials, constants and function calls.  Its text has
every node but a numeral in its own parentheses, and evaluating the text rewrites it from the inside
out: the value of each subtree is written back as a literal and read again.  The result is that of
evaluating the tree (`Formula.evaluateExpression_text`), because at every moment the text is the
rendering of the tree with literals in place of the subtrees that are done (`Formula.settles`).
-/

namespace Reckoner

/-! ## Trees -/

/-- A tree of operations over numerals. -/
inductive Formula where
  /-- A numeral without a sign. -/
  | numeral (n : Numeral) (h : n.WellFormed)
  /-- An operator between two formulas. -/
  | binary {tier : Tier} (spelling : Spelling tier) (left right : Formula)
  /-- A factorial. -/
  | factorial (operand : Formula)
  /-- A constant. -/
  | constant (c : MathConstant)
  /-- A function of one or more formulas. -/
  | call (f : MathFunction) (first : Formula) (rest : List Formula)

namespace Formula

mutual
/-- The text of a formula. -/
def text : Formula → Text
  | numeral n _ => n.text
  | binary spelling left right => '(' :: (left.text ++ spelling.letter :: (right.text ++ [')']))
  | factorial operand => '(' :: (operand.text ++ ['!', ')'])
  | constant c => '(' :: ((Symbol.constant c).letters ++ [')'])
  | call f first rest =>
    '(' :: ((Symbol.function f).letters ++ '(' :: (first.text ++ (restText rest ++ [')', ')'])))

/-- The text of the arguments of a function behind the first one. -/
def restText : List Formula → Text
  | [] => []
  | t :: rest => ',' :: (t.text ++ restText rest)
end

mutual
/-- The value of a formula: operands from left to right, then what is done to them.  What is
computed is never a negative zero. -/
def evaluate [MathLibrary] [Stack] : Formula → Evaluation Float
  | numeral n _ => Evaluation.literal ⟨false, n⟩
  | binary spelling left right => do
    let a ← left.evaluate
    let b ← right.evaluate
    let x ← Evaluation.operator spelling.operator (binary spelling left right).text a b
    return Number.unsigned x
  | factorial operand => do
    let a ← operand.evaluate
    let x ← Reckoner.factorial a
    return Number.unsigned x
  | constant c => return Number.unsigned c.value
  | call f first rest => do
    let a ← first.evaluate
    let args ← evaluateRest rest
    let x ← Evaluation.function (call f first rest).text 1 f (call f first rest).text (a :: args)
    return Number.unsigned x

/-- The values of the arguments of a function behind the first one. -/
def evaluateRest [MathLibrary] [Stack] : List Formula → Evaluation (List Float)
  | [] => return []
  | t :: rest => do
    let a ← t.evaluate
    let args ← evaluateRest rest
    return a :: args
end

end Formula

/-! ## Whole formulas -/

namespace Formula

open Evaluation

/-- No number follows the text of an argument. -/
theorem joinsRight_restText (rest : List Formula) {after : Text}
    (h : after.head?.any Group.joinsRight = false) :
    (restText rest ++ after).head?.any Group.joinsRight = false := by
  cases rest with
  | nil => simpa [restText] using h
  | cons t rest => simp only [restText, List.cons_append, List.head?_cons]; decide

section

variable [MathLibrary] [Stack]

mutual
/-- While a formula is evaluated, its text between other texts becomes a literal of its value.  The
induction is on the formula, and the texts around it change from node to node. -/
theorem settles {limits : Limits} {k : Nat} {before after : Text} :
    (t : Formula) → before.head?.any Group.joinsLeft = false →
      after.head?.any Group.joinsRight = false →
      Reaches limits k (replaceGroups before (t.text ++ after)) t.evaluate
        (Settled k before after)
  | numeral n h, _, _ => by
    intro s t hst
    have hl : (⟨false, n⟩ : Literal).WellFormed := h
    obtain ⟨t', hrun, howes⟩ := pays_literal ⟨false, n⟩ limits t
    simp only [text, evaluate, hrun]
    refine ⟨_, _, s, ⟨⟨false, n⟩, hl, rfl, Literal.unsigned_worth n, rfl, rfl⟩, hst.trans howes, ?_⟩
    have hpass := replaceGroups_append (Text.isFlat_literal hl).closing before after
    exact congrArg (·.runOn limits s) hpass
  | binary spelling left right, hbefore, hafter => by
    obtain ⟨hletter, -, hjoins, hjoins'⟩ := spelling.letter_spec
    simp only [text, evaluate, List.cons_append, List.append_assoc, List.nil_append]
    rw [replaceGroups_cons (by decide)]
    refine (settles left rfl (by simpa using hjoins')).bind ?_
    rintro _ _ _ ⟨a, ha, rfl, -, rfl, rfl⟩
    rw [replaceGroups_cons hletter.2.1]
    refine (settles right (by simpa using hjoins) rfl).bind ?_
    rintro _ _ _ ⟨b, hb, rfl, -, rfl, rfl⟩
    exact reaches_binary spelling ha hb hbefore hafter _
  | factorial operand, hbefore, hafter => by
    simp only [text, evaluate, List.cons_append, List.append_assoc, List.nil_append]
    rw [replaceGroups_cons (by decide)]
    refine (settles operand rfl rfl).bind ?_
    rintro _ _ _ ⟨a, ha, rfl, -, rfl, rfl⟩
    rw [replaceGroups_cons (by decide)]
    exact reaches_factorial ha hbefore hafter
  | constant c, hbefore, hafter => by
    simp only [text, evaluate, List.cons_append, List.append_assoc, List.nil_append]
    rw [replaceGroups_cons (by decide), replaceGroups_append (Text.isFlat_letters _).closing]
    exact reaches_constant c hbefore hafter
  | call f first rest, hbefore, hafter => by
    simp only [text, evaluate, List.cons_append, List.append_assoc, List.nil_append]
    rw [replaceGroups_cons (by decide), replaceGroups_append (Text.isFlat_letters _).closing,
      replaceGroups_cons (by decide)]
    refine (settles first rfl (joinsRight_restText rest rfl)).bind ?_
    rintro _ _ _ ⟨a, ha, rfl, hunsigned, rfl, rfl⟩
    refine (settles_rest rest rfl).bind ?_
    rintro _ _ _ ⟨ls, hls, rfl, rfl, rfl⟩
    cases ls with
    | nil => exact reaches_call_literal f ha hunsigned hbefore hafter _ _
    | cons l ls =>
      have hall : ∀ l' ∈ a :: l :: ls, l'.WellFormed := List.forall_mem_cons.2 ⟨ha, hls⟩
      exact reaches_call_list f hall hbefore hafter _ _

/-- While the other arguments of a function are evaluated, their texts become literals of their
values. -/
theorem settles_rest {limits : Limits} {k : Nat} {before after : Text} :
    (rest : List Formula) → after.head?.any Group.joinsRight = false →
      Reaches limits k (replaceGroups before (restText rest ++ after)) (evaluateRest rest)
        (AllSettled k before after)
  | [], hafter => reaches_pure ⟨[], by simp, rfl, rfl, rfl⟩
  | t :: rest, hafter => by
    simp only [restText, evaluateRest, List.cons_append, List.append_assoc]
    rw [replaceGroups_cons (by decide)]
    refine (settles t rfl (joinsRight_restText rest hafter)).bind ?_
    rintro _ _ _ ⟨a, ha, rfl, -, rfl, rfl⟩
    refine (settles_rest rest hafter).bind ?_
    rintro _ _ _ ⟨ls, hls, rfl, rfl, rfl⟩
    refine reaches_pure ⟨a :: ls, List.forall_mem_cons.2 ⟨ha, hls⟩, rfl, ?_, ?_⟩
    · rw [List.map_cons, List.sum_cons, Nat.add_assoc]
    · simp [ArgumentList.separated]
end

end

/-! ## Spelling -/

theorem not_isBlank_of_mem_letters (s : Symbol) {c : Char} (hc : c ∈ s.letters) :
    Text.isBlank c = false := by
  have hall : Symbol.alphabet.all (fun c => !Text.isBlank c) = true := by decide
  simpa using List.all_eq_true.1 hall c (Symbol.mem_alphabet hc)

theorem not_isBlank_letter {tier : Tier} (s : Spelling tier) : Text.isBlank s.letter = false := by
  have hall : Tier.letters.all (fun c => !Text.isBlank c) = true := by decide
  simpa using List.all_eq_true.1 hall s.letter (Tier.mem_letters s.spells)

mutual
/-- No character of a formula is blank. -/
theorem not_isBlank_of_mem : (t : Formula) → ∀ c ∈ t.text, Text.isBlank c = false
  | numeral n h => @Literal.not_isBlank_of_mem ⟨false, n⟩ h
  | binary spelling left right => by
    have hleft := not_isBlank_of_mem left
    have hright := not_isBlank_of_mem right
    simp only [text, List.forall_mem_cons, List.forall_mem_append]
    exact ⟨by decide, hleft, not_isBlank_letter spelling, hright, by decide, by simp⟩
  | factorial operand => by
    have hoperand := not_isBlank_of_mem operand
    simp only [text, List.forall_mem_cons, List.forall_mem_append]
    exact ⟨by decide, hoperand, by decide, by decide, by simp⟩
  | constant c => by
    simp only [text, List.forall_mem_cons, List.forall_mem_append]
    exact ⟨by decide, fun _ => not_isBlank_of_mem_letters _, by decide, by simp⟩
  | call f first rest => by
    have hfirst := not_isBlank_of_mem first
    have hrest := not_isBlank_of_mem_rest rest
    simp only [text, List.forall_mem_cons, List.forall_mem_append]
    exact ⟨by decide, fun _ => not_isBlank_of_mem_letters _, by decide, hfirst, hrest, by decide,
      by decide, by simp⟩

theorem not_isBlank_of_mem_rest :
    (rest : List Formula) → ∀ c ∈ restText rest, Text.isBlank c = false
  | [] => by simp [restText]
  | t :: rest => by
    have ht := not_isBlank_of_mem t
    have hrest := not_isBlank_of_mem_rest rest
    simp only [restText, List.forall_mem_cons, List.forall_mem_append]
    exact ⟨by decide, ht, hrest⟩
end

/-- A formula begins with a digit, a point or a parenthesis. -/
theorem head?_append_ne (t : Formula) (after : Text) : (t.text ++ after).head? ≠ some '*' := by
  cases t with
  | numeral n h =>
    obtain ⟨c, rest, hn, hc⟩ := Numeral.exists_head h
    rw [text, hn, List.cons_append, List.head?_cons]
    intro heq
    rw [Option.some.inj heq] at hc
    exact absurd hc (by decide)
  | _ => simp [text]

theorem star_not_mem_letters {s : Symbol} : '*' ∉ s.letters := fun hc =>
  absurd (Symbol.isPlain_of_mem hc) (by decide)

mutual
/-- No formula holds two stars next to each other. -/
theorem caretForDoubleStar_text : (t : Formula) → (after : Text) →
    caretForDoubleStar (t.text ++ after) = t.text ++ caretForDoubleStar after
  | numeral n h, after => by
    refine caretForDoubleStar_append (fun hc => ?_) after
    exact absurd (Numeral.mem_text h hc) (by decide)
  | binary spelling left right, after => by
    simp only [text, List.cons_append, List.append_assoc, List.nil_append]
    rw [caretForDoubleStar_cons (by simp), caretForDoubleStar_text left,
      caretForDoubleStar_cons fun _ => head?_append_ne right _, caretForDoubleStar_text right,
      caretForDoubleStar_cons (by simp)]
  | factorial operand, after => by
    simp only [text, List.cons_append, List.append_assoc, List.nil_append]
    rw [caretForDoubleStar_cons (by simp), caretForDoubleStar_text operand,
      caretForDoubleStar_cons (by simp), caretForDoubleStar_cons (by simp)]
  | constant c, after => by
    simp only [text, List.cons_append, List.append_assoc, List.nil_append]
    rw [caretForDoubleStar_cons (by simp), caretForDoubleStar_append star_not_mem_letters,
      caretForDoubleStar_cons (by simp)]
  | call f first rest, after => by
    simp only [text, List.cons_append, List.append_assoc, List.nil_append]
    rw [caretForDoubleStar_cons (by simp), caretForDoubleStar_append star_not_mem_letters,
      caretForDoubleStar_cons (by simp), caretForDoubleStar_text first,
      caretForDoubleStar_restText rest, caretForDoubleStar_cons (by simp),
      caretForDoubleStar_cons (by simp)]

theorem caretForDoubleStar_restText : (rest : List Formula) → (after : Text) →
    caretForDoubleStar (restText rest ++ after) = restText rest ++ caretForDoubleStar after
  | [], after => rfl
  | t :: rest, after => by
    simp only [restText, List.cons_append, List.append_assoc]
    rw [caretForDoubleStar_cons (by simp), caretForDoubleStar_text t,
      caretForDoubleStar_restText rest]
end

/-- A formula is evaluated as it is written. -/
theorem normalize_text (t : Formula) : normalize t.text = t.text := by
  have hcaret := caretForDoubleStar_text t []
  rw [List.append_nil] at hcaret
  rw [normalize, Text.removeBlanks_eq_self (not_isBlank_of_mem t), hcaret, caretForDoubleStar,
    List.append_nil]

/-! ## The value of a text -/

section

variable [MathLibrary] [Stack]

/-- The text of a formula comes to the literal of its value, which is then read. -/
theorem coupled_evaluateNormalized (t : Formula) (limits : Limits) :
    Clears limits 0 0 (evaluateNormalized t.text) t.evaluate := by
  intro s u hst
  have hsettles := @settles _ _ limits 0 [] [] t rfl rfl s u hst
  rw [List.append_nil] at hsettles
  cases hrun : t.evaluate.runOn limits u with
  | ok x u' =>
    rw [hrun] at hsettles
    obtain ⟨_, _, s', ⟨l, hl, rfl, -, rfl, rfl⟩, howes, hresolve⟩ := hsettles
    rw [List.append_nil, replaceGroups_nil (by simpa using (Text.isFlat_literal hl).opening),
      List.reverse_reverse, runOn_pure] at hresolve
    obtain ⟨s'', hliteral, hpaid⟩ := pays_literal l limits s'
    rw [evaluateNormalized_def, resolve, runOn_bind_of_ok hresolve]
    simp only [checkExponents_eq_pure (Literal.hasUnfinishedExponent_text hl), pure_bind,
      evaluateFlat_literal hl, hliteral]
    exact ⟨rfl, l.isFinite_worth, howes.pay hpaid⟩
  | error halt u' =>
    rw [hrun] at hsettles
    obtain ⟨s', hresolve, hstop⟩ := hsettles
    rw [evaluateNormalized_def, resolve, runOn_bind_of_error hresolve]
    exact ⟨rfl, hstop⟩

/-- Evaluating the text of a formula gives the value of the formula, with as many problems, the same
dice thrown in the same order, and the same summary of the rolls.  If the one stops, the other stops
for the same cause after the same dice.  This holds for all formulas, however deep, under all limits
and with every source of dice. -/
theorem evaluateExpression_text (t : Formula) (limits : Limits) (dice : DiceSource) :
    Agree
      (fun x y s u => (x == y) = true ∧
        s.report.problems.length = u.report.problems.length ∧
        s.report.thrown = u.report.thrown ∧ s.dice = u.dice ∧ s.report.rolls = u.report.rolls)
      (fun _ s u => s.report.thrown = u.report.thrown ∧ s.dice = u.dice)
      ((evaluateExpression t.text).runOn limits ⟨{}, dice⟩)
      (t.evaluate.runOn limits ⟨{}, dice⟩) := by
  have h := coupled_evaluateNormalized t limits ⟨{}, dice⟩ ⟨{}, dice⟩ (Session.owes_refl _)
  rw [evaluateExpression_def, normalize_text, runOn_tryCatch]
  rcases h.cases with ⟨x, y, s, u, h₁, h₂, hpost⟩ | ⟨halt, s, u, h₁, h₂, hdeep, hdice⟩
  · rw [h₁, h₂]
    obtain ⟨rfl, hfinite, howes⟩ := hpost
    exact ⟨Number.beq_self hfinite, howes.problems, howes.thrown, howes.dice, howes.rolls⟩
  · rw [h₁, h₂]
    cases halt with
    | tooDeep => exact (hdeep rfl).elim
    | sumTooLarge | tooManyDigits | fault => exact ⟨rfl, hdice⟩

end

end Formula

end Reckoner

import Mathlib
import Reckoner.Proofs.Evaluation.Debt
import Reckoner.Proofs.Evaluation.Group
import Reckoner.Proofs.Expression.Balance
import Reckoner.Proofs.Expression.Items

/-!
# Texts that are rewritten

While a text is evaluated, its innermost groups become literals one after the other.  Beside this
run stands another one that computes the same values without a text (`Reaches`): when it has a
value, the text holds a literal of the value (`Settled`).  The second run is ahead by the problems
of the numerals that the text still holds.
-/

namespace Reckoner

/-! ## Going on with a text -/

namespace Evaluation

section

variable {α β γ : Type} {limits : Limits} {k : Nat} {e : Evaluation α} {m : Evaluation β}

/-- While the one run evaluates `m`, the other one comes from `e`, owing `k` problems, to an
evaluation that is at the goal for the value of `m`.  They stop together. -/
def Reaches (limits : Limits) (k : Nat) (e : Evaluation α) (m : Evaluation β)
    (goal : β → Nat → Evaluation α → Prop) : Prop :=
  ∀ s t, s.Owes k t →
    match m.runOn limits t with
    | .ok b t' => ∃ k' e' s', goal b k' e' ∧ s'.Owes k' t' ∧ e.runOn limits s = e'.runOn limits s'
    | .error halt t' => ∃ s', e.runOn limits s = .error halt s' ∧ halt ≠ .tooDeep ∧ s'.SameDice t'

theorem reaches_pure {b : β} {goal : β → Nat → Evaluation α → Prop} (h : goal b k e) :
    Reaches limits k e (pure b) goal := by
  intro s t hst
  exact ⟨k, e, s, h, hst, rfl⟩

theorem Reaches.bind {goal : β → Nat → Evaluation α → Prop} {f : β → Evaluation γ}
    {goal' : γ → Nat → Evaluation α → Prop} (h : Reaches limits k e m goal)
    (hf : ∀ b k' e', goal b k' e' → Reaches limits k' e' (f b) goal') :
    Reaches limits k e (m >>= f) goal' := by
  intro s t hst
  have hm := h s t hst
  cases hrun : m.runOn limits t with
  | ok b t' =>
    rw [hrun] at hm
    obtain ⟨k', e', s', hgoal, howes, he⟩ := hm
    rw [runOn_bind_of_ok hrun, he]
    exact hf b k' e' hgoal s' t' howes
  | error halt t' =>
    rw [hrun] at hm
    rw [runOn_bind_of_error hrun]
    exact hm

/-- What is done before the text goes on, paid for with its debt. -/
theorem Reaches.of_pays {goal : β → Nat → Evaluation α → Prop} {δ : Type} {m₁ : Evaluation δ}
    {a : δ} {i : Nat} {f : δ → Evaluation α} (hpays : Pays m₁ a i)
    (h : Reaches limits k (f a) m goal) : Reaches limits (k + i) (m₁ >>= f) m goal := by
  intro s t hst
  obtain ⟨s', hrun, howes⟩ := hpays limits s
  rw [runOn_bind_of_ok hrun]
  exact h s' t (hst.pay howes)

/-- Two evaluations with the same value, after which both go on. -/
theorem Reaches.of_clears {i : Nat} {m m₁ : Evaluation Float} {f : Float → Evaluation α}
    {g : Float → Evaluation γ} {goal : γ → Nat → Evaluation α → Prop}
    (h : Clears limits i k m₁ m)
    (hf : ∀ x, x.isFinite = true → Reaches limits k (f x) (g x) goal) :
    Reaches limits i (m₁ >>= f) (m >>= g) goal := by
  intro s t hst
  rcases (h s t hst).cases with ⟨a, b, s', t', h₁, h₂, hpost⟩ | ⟨halt, s', t', h₁, h₂, hstop⟩
  · obtain ⟨rfl, hfinite, howes⟩ := hpost
    rw [runOn_bind_of_ok h₁, runOn_bind_of_ok h₂]
    exact hf a hfinite s' t' howes
  · rw [runOn_bind_of_error h₁, runOn_bind_of_error h₂]
    exact ⟨s', rfl, hstop⟩

end

end Evaluation

/-! ## Contents of groups -/

namespace Text

theorem isFlat_letters (s : Symbol) : IsFlat s.letters := by
  have hall : Symbol.alphabet.all (fun c => c != '(' && c != ')' && c != ',') = true := by decide
  intro c hc
  simpa [and_assoc] using List.all_eq_true.1 hall c (Symbol.mem_alphabet hc)

end Text

theorem Symbol.exponent_not_mem_letters (s : Symbol) : 'E' ∉ s.letters :=
  fun h => absurd (mem_alphabet h) (by decide)

theorem Symbol.hasUnfinishedExponent_letters (s : Symbol) :
    hasUnfinishedExponent s.letters = false := by
  have := hasUnfinishedExponent_append s.exponent_not_mem_letters (t := []) (by simp)
  rwa [List.append_nil] at this

/-- The name of a function joins no group. -/
theorem joinsLeft_function (f : MathFunction) (before : Text) :
    ((Symbol.function f).letters.reverse ++ before).head?.any Group.joinsLeft = false := by
  cases f <;> rfl

/-- What an operator is spelled with is none of the characters that groups, lists, numbers and
powers of ten are made of. -/
theorem Spelling.letter_spec {tier : Tier} (s : Spelling tier) :
    (s.letter ≠ '(' ∧ s.letter ≠ ')' ∧ s.letter ≠ ',') ∧ s.letter ≠ 'E' ∧
      Group.joinsLeft s.letter = false ∧ Group.joinsRight s.letter = false := by
  have hall : Tier.letters.all (fun c => c != '(' && c != ')' && c != ',' && c != 'E' &&
      !Group.joinsLeft c && !Group.joinsRight c) = true := by
    decide
  have := List.all_eq_true.1 hall s.letter (Tier.mem_letters s.spells)
  simpa [and_assoc] using this

namespace ArgumentList

/-- The characters of a list of literals. -/
theorem mem_separated_literals {separator c : Char} {ls : List Literal}
    (h : ∀ l ∈ ls, l.WellFormed) (hc : c ∈ separated separator (ls.map Literal.text)) :
    c = separator ∨ Literal.isLetter c = true := by
  refine (mem_separated hc).imp_right ?_
  rintro ⟨t, ht, hc⟩
  obtain ⟨l, hl, rfl⟩ := List.mem_map.1 ht
  exact Literal.isLetter_of_mem (h l hl) c hc

variable {first : Literal} {rest : List Literal}

/-- The items of a list of literals. -/
theorem unseparated_of_mem_map (h : ∀ l ∈ rest, l.WellFormed) :
    ∀ t ∈ rest.map Literal.text, t.Unseparated := by
  intro t ht
  obtain ⟨l, hl, rfl⟩ := List.mem_map.1 ht
  exact Text.unseparated_literal (h l hl)

/-- No group begins among literals. -/
theorem opening_not_mem (h : ∀ l ∈ first :: rest, l.WellFormed) :
    '(' ∉ first.text ++ separated ',' (rest.map Literal.text) := by
  obtain ⟨hfirst, hrest⟩ := List.forall_mem_cons.1 h
  intro hc
  rcases List.mem_append.1 hc with hc | hc
  · exact (Text.isFlat_literal hfirst).opening hc
  · exact absurd (mem_separated_literals hrest hc) (by decide)

/-- There are no groups and no commas in a list of literals. -/
theorem isFlat_brackets (h : ∀ l ∈ first :: rest, l.WellFormed) :
    Text.IsFlat ('[' :: (first.text ++ separated ';' (rest.map Literal.text) ++ [']'])) := by
  obtain ⟨hfirst, hrest⟩ := List.forall_mem_cons.1 h
  have hclosing : Text.IsFlat [']'] := by simp [Text.IsFlat]
  have hseparated : Text.IsFlat (separated ';' (rest.map Literal.text)) := by
    intro c hc
    rcases mem_separated_literals hrest hc with rfl | hc
    · decide
    · exact Text.isFlat_of_isLetter hc
  apply Text.isFlat_cons (by decide)
  exact ((Text.isFlat_literal hfirst).append hseparated).append hclosing

/-- A list of literals has no unfinished power of ten. -/
theorem hasUnfinishedExponent_brackets (h : ∀ l ∈ first :: rest, l.WellFormed) :
    hasUnfinishedExponent ('[' :: (first.text ++ separated ';' (rest.map Literal.text) ++ [']'])) =
      false := by
  refine hasUnfinishedExponent_items fun t ht => ?_
  obtain ⟨l, hl, rfl⟩ := List.mem_map.1 (List.map_cons ▸ ht)
  exact Literal.hasUnfinishedExponent_text (h l hl)

end ArgumentList

/-! ## One group -/

namespace Evaluation

variable [MathLibrary] [Stack] {limits : Limits} {k i : Nat} {before after : Text}

/-- The text goes on with a literal that is worth a value, between what stands before and after
it. -/
def Settled (k : Nat) (before after : Text) (x : Float) (i : Nat)
    (e : Evaluation (Option Text)) : Prop :=
  ∃ l : Literal, l.WellFormed ∧ l.worth = x ∧ Number.unsigned x = x ∧ i = k + l.debt ∧
    e = replaceGroups (l.text.reverse ++ before) after

/-- A group is settled with what its content is evaluated to. -/
theorem reaches_close {content : Text} {m : Evaluation Float} (hflat : content.IsFlat)
    (hexponent : hasUnfinishedExponent content = false)
    (hbefore : before.head?.any Group.joinsLeft = false)
    (hafter : after.head?.any Group.joinsRight = false)
    (h : Clears limits i k (evaluateFlat 1 content) m) :
    Reaches limits i (replaceGroups (content.reverse ++ '(' :: before) (')' :: after))
      (m >>= fun x => pure (Number.unsigned x)) (Settled k before after) := by
  rw [replaceGroups_close hflat.opening, replacement_of_value _
    (ArgumentList.hasComma_eq_false hflat.comma 0) hexponent hbefore hafter, bind_assoc]
  refine Reaches.of_clears h ?_
  intro a ha
  obtain ⟨l, hl, htext, hworth, hdebt⟩ := Literal.exists_worth ha
  have hfinite : checkFinite a (.groupOverflow content) = pure a := if_pos ha
  simp only [hfinite, pure_bind, bind_assoc]
  refine Reaches.of_pays (pays_trace _ _) (reaches_pure ⟨l, hl, hworth, ?_, ?_, ?_⟩)
  · exact Number.unsigned_unsigned a
  · rw [hdebt, Nat.add_zero]
  · rw [htext]

/-! ## What groups are evaluated to -/

/-- An operator between literals. -/
theorem clears_binary {tier : Tier} (spelling : Spelling tier) {a b : Literal}
    (ha : a.WellFormed) (hb : b.WellFormed) (source : Text) :
    Clears limits (k + a.debt + b.debt) k
      (evaluateFlat 1 (a.text ++ spelling.letter :: b.text))
      (operator spelling.operator source a.worth b.worth) := by
  have hfits : Phrase.Fits true 0 (.binary spelling (.literal a) (.literal b)) :=
    .binary (Nat.zero_le _) (fun _ => rfl) (.literal ha) (.literal hb)
  have hread : evaluateFlat 1 (a.text ++ spelling.letter :: b.text) = _ :=
    hfits.evaluate_read (Stack.lt_levels (show 1 < 700 by decide)) 1
  rw [hread, Nat.add_right_comm]
  simp only [Phrase.evaluate]
  exact (pays_literal a).clears ((pays_literal b).clears
    ((Coupling.owing limits k).couples_operator (fun _ => trivial) (fun _ _ => trivial)
      a.isFinite_worth b.isFinite_worth))

/-- A factorial of a literal. -/
theorem clears_factorial {l : Literal} (h : l.WellFormed) :
    Clears limits (k + l.debt) k (evaluateFlat 1 (l.text ++ ['!']))
      (Reckoner.factorial l.worth) := by
  have hfits : Phrase.Fits true 0 (.factorial (.literal l)) := .factorial (.literal h)
  have hread : evaluateFlat 1 (l.text ++ ['!']) = _ :=
    hfits.evaluate_read (Stack.lt_levels (show 1 < 700 by decide)) 1
  rw [hread]
  simp only [Phrase.evaluate]
  exact (pays_literal l).clears ((Coupling.owing limits k).couples_factorial l.isFinite_worth)

/-- A literal in parentheses of its own. -/
theorem clears_literal {l : Literal} (h : l.WellFormed) :
    Clears limits (k + l.debt) k (evaluateFlat 1 l.text) (pure l.worth) := by
  have hread : evaluateFlat 1 l.text = literal l >>= pure := by
    rw [bind_pure, evaluateFlat_literal h]
  rw [hread]
  exact (pays_literal l).clears (clears_pure l.isFinite_worth limits k)

/-- A constant is one times its value times one. -/
theorem clears_constant (c : MathConstant) :
    Clears limits k k (evaluateFlat 1 (Symbol.constant c).letters)
      (pure c.value) := by
  have hvalue : (1 * c.value * 1).isFinite = true ∧ 1 * c.value * 1 = c.value := by
    cases c <;> decide +kernel
  have hfinite : checkFinite (1 * c.value * 1) (.constantOverflow (Symbol.constant c).letters) =
      pure c.value := by
    rw [checkFinite, if_pos hvalue.1, hvalue.2]
  have hread : evaluateFlat 1 (Symbol.constant c).letters =
      trace (.constant c) (Symbol.constant c).letters >>= fun _ => pure c.value := by
    obtain ⟨room, hroom⟩ := Term.exists_ofText_eq (show 3 ≤ 700 by decide)
    rw [evaluateFlat, hroom, Term.read_constant]
    simp only [Term.evaluate, factor, pure_bind, hfinite]
  rw [hread]
  have hfinite : c.value.isFinite = true := by
    rw [← hvalue.2]
    exact hvalue.1
  exact (pays_trace _ _).clears (clears_pure hfinite limits k)

/-- A function of literals. -/
theorem clears_call (f : MathFunction) {content written source written' : Text}
    {ls : List Literal}
    (hread : Term.ofText content = .call content none f written (ls.map .literal)) :
    Clears limits (k + (ls.map Literal.debt).sum) k (evaluateFlat 1 content)
      (function source 1 f written' (ls.map Literal.worth)) := by
  rw [evaluateFlat, hread, Term.evaluate, factor, pure_bind]
  exact (pays_evaluateAll ls).clears ((Coupling.owing limits k).couples_function
    (fun _ => trivial) (fun _ => trivial) 1 _)

/-- The text goes on with a list of literals that are worth some values. -/
def AllSettled (k : Nat) (before after : Text) (xs : List Float) (i : Nat)
    (e : Evaluation (Option Text)) : Prop :=
  ∃ ls : List Literal, (∀ l ∈ ls, l.WellFormed) ∧ ls.map Literal.worth = xs ∧
    i = k + (ls.map Literal.debt).sum ∧
      e = replaceGroups ((ArgumentList.separated ',' (ls.map Literal.text)).reverse ++ before) after

/-- An operator between literals, in parentheses. -/
theorem reaches_binary {tier : Tier} (spelling : Spelling tier) {a b : Literal}
    (ha : a.WellFormed) (hb : b.WellFormed) (hbefore : before.head?.any Group.joinsLeft = false)
    (hafter : after.head?.any Group.joinsRight = false) (source : Text) :
    Reaches limits (k + a.debt + b.debt)
      (replaceGroups (b.text.reverse ++ spelling.letter :: (a.text.reverse ++ '(' :: before))
        (')' :: after))
      (operator spelling.operator source a.worth b.worth >>= fun x => pure (Number.unsigned x))
      (Settled k before after) := by
  obtain ⟨hletter, hE, -⟩ := spelling.letter_spec
  have hflat : Text.IsFlat (a.text ++ spelling.letter :: b.text) :=
    (Text.isFlat_literal ha).append (Text.isFlat_cons hletter (Text.isFlat_literal hb))
  have hexponent : hasUnfinishedExponent (a.text ++ spelling.letter :: b.text) = false := by
    rw [Literal.hasUnfinishedExponent_append ha (by simpa using hE), hasUnfinishedExponent_cons
      (by simpa using Literal.head?_append_ne hb []), Literal.hasUnfinishedExponent_text hb]
  have htext : b.text.reverse ++ spelling.letter :: (a.text.reverse ++ '(' :: before) =
      (a.text ++ spelling.letter :: b.text).reverse ++ '(' :: before := by
    simp
  rw [htext]
  exact reaches_close hflat hexponent hbefore hafter (clears_binary spelling ha hb source)

/-- A factorial of a literal, in parentheses. -/
theorem reaches_factorial {l : Literal} (h : l.WellFormed)
    (hbefore : before.head?.any Group.joinsLeft = false)
    (hafter : after.head?.any Group.joinsRight = false) :
    Reaches limits (k + l.debt)
      (replaceGroups ('!' :: (l.text.reverse ++ '(' :: before)) (')' :: after))
      (Reckoner.factorial l.worth >>= fun x => pure (Number.unsigned x))
      (Settled k before after) := by
  have hbang : Text.IsFlat ['!'] := by simp [Text.IsFlat]
  have hexponent : hasUnfinishedExponent (l.text ++ ['!']) = false := by
    rw [Literal.hasUnfinishedExponent_append h (by simp)]
    rfl
  have htext : '!' :: (l.text.reverse ++ '(' :: before) =
      (l.text ++ ['!']).reverse ++ '(' :: before := by
    simp
  rw [htext]
  exact reaches_close ((Text.isFlat_literal h).append hbang) hexponent hbefore hafter
    (clears_factorial h)

/-- A constant, in parentheses. -/
theorem reaches_constant (c : MathConstant) (hbefore : before.head?.any Group.joinsLeft = false)
    (hafter : after.head?.any Group.joinsRight = false) :
    Reaches limits k
      (replaceGroups ((Symbol.constant c).letters.reverse ++ '(' :: before) (')' :: after))
      (pure (Number.unsigned c.value)) (Settled k before after) := by
  rw [← pure_bind c.value fun x => pure (Number.unsigned x)]
  exact reaches_close (Text.isFlat_letters _) (Symbol.hasUnfinishedExponent_letters _) hbefore
    hafter (clears_constant c)

/-- A function of one literal, in parentheses. -/
theorem reaches_call_literal (f : MathFunction) {l : Literal} (h : l.WellFormed)
    (hworth : Number.unsigned l.worth = l.worth)
    (hbefore : before.head?.any Group.joinsLeft = false)
    (hafter : after.head?.any Group.joinsRight = false) (source written : Text) :
    Reaches limits (k + l.debt)
      (replaceGroups
        (l.text.reverse ++ '(' :: ((Symbol.function f).letters.reverse ++ '(' :: before))
        (')' :: ')' :: after))
      (function source 1 f written [l.worth] >>= fun x => pure (Number.unsigned x))
      (Settled k before after) := by
  have hinner : Reaches limits (k + l.debt)
      (replaceGroups
        (l.text.reverse ++ '(' :: ((Symbol.function f).letters.reverse ++ '(' :: before))
        (')' :: ')' :: after))
      (pure l.worth >>= fun x => pure (Number.unsigned x))
      (Settled k ((Symbol.function f).letters.reverse ++ '(' :: before) (')' :: after)) :=
    reaches_close (Text.isFlat_literal h) (Literal.hasUnfinishedExponent_text h)
      (joinsLeft_function f _) rfl (clears_literal h)
  rw [pure_bind, hworth] at hinner
  rw [← pure_bind l.worth fun x => function source 1 f written [x] >>= fun y =>
    pure (Number.unsigned y)]
  refine hinner.bind ?_
  rintro x i e ⟨l', hl', rfl, -, rfl, rfl⟩
  have htext : l'.text.reverse ++ ((Symbol.function f).letters.reverse ++ '(' :: before) =
      ((Symbol.function f).letters ++ l'.text).reverse ++ '(' :: before := by simp
  obtain ⟨room, hroom⟩ := Term.exists_ofText_eq (show 4 ≤ 700 by decide)
  have hread : Term.ofText ((Symbol.function f).letters ++ l'.text) =
      .call ((Symbol.function f).letters ++ l'.text) none f l'.text ([l'].map .literal) :=
    (hroom _).trans (Term.read_function_literal f hl')
  rw [htext]
  refine reaches_close ((Text.isFlat_letters _).append (Text.isFlat_literal hl')) ?_ hbefore
    hafter (clears_call f hread)
  rw [hasUnfinishedExponent_append (Symbol.exponent_not_mem_letters _)
    (by simpa using Literal.head?_append_ne hl' []), Literal.hasUnfinishedExponent_text hl']

/-- A function of several literals, in parentheses. -/
theorem reaches_call_list (f : MathFunction) {first second : Literal} {rest : List Literal}
    (h : ∀ l ∈ first :: second :: rest, l.WellFormed)
    (hbefore : before.head?.any Group.joinsLeft = false)
    (hafter : after.head?.any Group.joinsRight = false) (source written : Text) :
    Reaches limits (k + first.debt + ((second :: rest).map Literal.debt).sum)
      (replaceGroups
        ((ArgumentList.separated ',' ((second :: rest).map Literal.text)).reverse ++
          (first.text.reverse ++ '(' :: ((Symbol.function f).letters.reverse ++ '(' :: before)))
        (')' :: ')' :: after))
      (function source 1 f written ((first :: second :: rest).map Literal.worth) >>= fun x =>
        pure (Number.unsigned x)) (Settled k before after) := by
  obtain ⟨hfirst, hrest⟩ := List.forall_mem_cons.1 h
  have hitem := Text.unseparated_literal hfirst
  have hcomma : ArgumentList.hasComma 0
      (first.text ++ ArgumentList.separated ',' ((second :: rest).map Literal.text)) = true :=
    hitem.hasComma_append _
  rw [Nat.add_assoc, ← List.sum_cons, ← List.map_cons, ← List.append_assoc, ← List.reverse_append,
    replaceGroups_close (ArgumentList.opening_not_mem h), replacement_of_comma _ hcomma rfl,
    hitem.semicolons_append,
    ArgumentList.semicolons_separated (ArgumentList.unseparated_of_mem_map hrest), bind_assoc]
  refine Reaches.of_pays (i := 0) (pays_trace _ _) ?_
  rw [pure_bind]
  have htext : ∀ list : Text,
      list.reverse ++ ((Symbol.function f).letters.reverse ++ '(' :: before) =
        ((Symbol.function f).letters ++ list).reverse ++ '(' :: before := by
    simp
  rw [htext]
  have hexponent : hasUnfinishedExponent ((Symbol.function f).letters ++ '[' :: (first.text ++
      ArgumentList.separated ';' ((second :: rest).map Literal.text) ++ [']'])) = false := by
    rw [hasUnfinishedExponent_append (Symbol.exponent_not_mem_letters _) (by simp),
      ArgumentList.hasUnfinishedExponent_brackets h]
  -- a function and its list take five of the levels
  obtain ⟨room, hroom⟩ := Term.exists_ofText_eq (show 5 ≤ 700 by decide)
  have hread := (hroom _).trans (Term.read_function_list f h rfl)
  exact reaches_close ((Text.isFlat_letters _).append (ArgumentList.isFlat_brackets h)) hexponent
    hbefore hafter (clears_call f hread)

end Evaluation

end Reckoner

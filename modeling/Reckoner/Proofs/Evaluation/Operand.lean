import Mathlib
import Reckoner.Proofs.Evaluation.Resolution
import Reckoner.Proofs.Expression.Undivided

/-!
# Groups as operands

The literal that a group is replaced with has nothing around it that would keep it together.  It is
one operand all the same: no piece of the text that is evaluated begins or ends inside of it
(`Evaluation.resolve_group_undivided`), unless what stands before the group takes a part of the
literal (`Literal.TakesPart`), as `1E` and `mu` do (`Evaluation.resolve_group_divided`).
-/

namespace Reckoner

/-! ## One group in a text -/

namespace Text

variable {left right content t u : Text}

/-- Without parentheses there is nothing to replace. -/
theorem Replaces.eq_of_isUngrouped (h : Replaces t u) (ht : IsUngrouped t) : u = t := by
  induction h with
  | nil => rfl
  | @cons c t u hc h ih =>
    rw [ih ⟨fun hmem => ht.1 (List.mem_cons_of_mem c hmem),
      fun hmem => ht.2 (List.mem_cons_of_mem c hmem)⟩]
  | group => exact absurd List.mem_cons_self ht.1

/-- A beginning without parentheses is kept. -/
theorem Replaces.exists_append (hleft : IsUngrouped left) (h : Replaces (left ++ t) u) :
    ∃ v, u = left ++ v ∧ Replaces t v := by
  induction left generalizing u with
  | nil => exact ⟨u, rfl, h⟩
  | cons c left ih =>
    obtain ⟨hopening, hclosing⟩ := hleft
    rw [List.mem_cons, not_or] at hopening hclosing
    generalize htext : c :: left ++ t = text at h
    cases h with
    | nil => cases htext
    | cons hc h =>
      obtain ⟨rfl, rfl⟩ := List.cons.inj htext
      obtain ⟨v, rfl, hv⟩ := ih ⟨hopening.2, hclosing.2⟩ h
      exact ⟨v, rfl, hv⟩
    | group => exact absurd (List.cons.inj htext).1.symm hopening.1

/-- A balanced text does not close the group around it. -/
theorem not_isBalanced_append (h : isBalanced 0 t = true) (rest : Text) :
    isBalanced 0 (t ++ ')' :: rest) = false := by
  obtain ⟨-, hcount⟩ := isBalanced_iff.1 h
  refine ClosesTooEarly.isBalanced_eq_false ⟨t ++ [')'], ⟨rest, by simp⟩, ?_⟩
  rw [List.count_append, List.count_append, List.count_singleton_self, hcount]
  simp

/-- A group ends where its content is balanced. -/
theorem eq_of_isBalanced (h : isBalanced 0 t = true) (h' : isBalanced 0 u = true)
    (heq : t ++ ')' :: left = u ++ ')' :: right) : t = u ∧ left = right := by
  rcases List.append_eq_append_iff.1 heq with ⟨v, rfl, hv⟩ | ⟨v, rfl, hv⟩
  · cases v with
    | nil => simpa using hv
    | cons c v =>
      obtain ⟨rfl, -⟩ := List.cons.inj hv
      rw [not_isBalanced_append h] at h'
      exact absurd h' (by decide)
  · cases v with
    | nil => simpa using hv.symm
    | cons c v =>
      obtain ⟨rfl, -⟩ := List.cons.inj hv
      rw [not_isBalanced_append h'] at h
      exact absurd h (by decide)

/-- The only group of a text is replaced, and what stands around it is kept. -/
theorem Replaces.exists_of_group (hleft : IsUngrouped left) (hright : IsUngrouped right)
    (hcontent : isBalanced 0 content = true)
    (h : Replaces (left ++ '(' :: (content ++ ')' :: right)) u) :
    ∃ inner new, Replaces content inner ∧ IsReplacement inner new ∧ u = left ++ (new ++ right) := by
  obtain ⟨v, rfl, hv⟩ := h.exists_append hleft
  generalize htext : '(' :: (content ++ ')' :: right) = text at hv
  cases hv with
  | nil => cases htext
  | cons hc hv => exact absurd (List.cons.inj htext).1.symm hc.1
  | @group content' inner new t u hinner hnew hrest =>
    have hbalanced := hinner.isBalanced_append 0 []
    rw [List.append_nil] at hbalanced
    obtain ⟨rfl, rfl⟩ := eq_of_isBalanced hcontent hbalanced (List.cons.inj htext).2
    exact ⟨inner, new, hinner, hnew, by rw [hrest.eq_of_isUngrouped hright]⟩

end Text

/-! ## Literals of groups -/

open Literal

variable {left right content flat : Text}

/-- No piece of a text that is evaluated cuts the literal of a number in it, if nothing before the
literal takes a part of it. -/
theorem Term.not_cuts_ofFloat [Stack] {x : Float} (hx : x.isFinite = true)
    (htake : ¬ TakesPart left (ofFloat x)) (t : Text) :
    ∀ p ∈ pieces t, ¬ p.Cuts left (ofFloat x) := by
  obtain ⟨l, hl, htext, -⟩ := exists_ofFloat hx
  rw [← htext] at htake ⊢
  exact not_cuts_of_mem_pieces hl htake

namespace Evaluation

section

variable [MathLibrary] [Stack]

/-- Between texts without groups, a group is replaced with a list if it has commas, and otherwise
with the literal of a number, next to single stars at most.  Every piece of the new text that is
evaluated begins and ends outside of the literal, unless what stands before the literal takes a part
of it. -/
theorem resolve_group_undivided {limits : Limits} {s s' : Session} (hleft : left.IsUngrouped)
    (hright : right.IsUngrouped) (hcontent : content.isBalanced 0 = true)
    (h : (resolve (left ++ '(' :: (content ++ ')' :: right))).runOn limits s =
      .ok (some flat) s') :
    ∃ inner, content.Replaces inner ∧
      ((ArgumentList.hasComma 0 inner = true ∧ ∃ star, Text.IsStar star ∧
        flat = left ++ '[' :: (ArgumentList.semicolons 0 inner ++ ']' :: (star ++ right))) ∨
      (ArgumentList.hasComma 0 inner = false ∧ ∃ (x : Float) (star star' : Text),
        x.isFinite = true ∧ Text.IsStar star ∧ Text.IsStar star' ∧
        flat = left ++ star ++ ofFloat x ++ (star' ++ right) ∧
        (¬ TakesPart (left ++ star) (ofFloat x) →
          ∀ p ∈ Term.pieces flat, p.whole = flat ∧ ¬ p.Cuts (left ++ star) (ofFloat x)))) := by
  obtain ⟨inner, new, hinner, hnew, rfl⟩ :=
    (replaces_of_resolve h).exists_of_group hleft hright hcontent
  refine ⟨inner, hinner, ?_⟩
  cases hnew with
  | list hcomma hstar => exact .inl ⟨hcomma, _, hstar, by simp⟩
  | @literal star star' x hcomma hx hstar hstar' =>
    refine .inr ⟨hcomma, x, star, star', hx, hstar, hstar', by simp, fun htake p hp => ?_⟩
    exact ⟨Term.whole_of_mem_pieces hp, Term.not_cuts_ofFloat hx htake _ p hp⟩

end

/-- Whether the groups of a text are replaced and leave another text. -/
def resolvesTo (t flat : Text) : Bool :=
  match (resolve t).runOn {} ⟨{}, .ofSeed 1⟩ with
  | .ok new _ => new == some flat
  | .error _ _ => false

theorem runOn_of_resolvesTo {t : Text} (h : resolvesTo t flat = true) :
    ∃ s', (resolve t).runOn {} ⟨{}, .ofSeed 1⟩ = .ok (some flat) s' := by
  unfold resolvesTo at h
  split at h
  · rename_i new s' hrun
    rw [beq_iff_eq] at h
    exact ⟨s', by rw [hrun, h]⟩
  · cases h

/-- The power of ten of a number is not taken for a name and a sum. -/
theorem resolve_group_undivided_power :
    (∃ s', (resolve ['2', '(', '1', 'E', '1', '6', ')', '-', '3']).runOn {} ⟨{}, .ofSeed 1⟩ =
      .ok (some ['2', '*', '1', 'E', '+', '1', '6', '-', '3']) s') ∧
    ∀ p ∈ Term.pieces ['2', '*', '1', 'E', '+', '1', '6', '-', '3'],
      ¬ p.Cuts ['2', '*'] ['1', 'E', '+', '1', '6'] := by
  have hrun : ∃ s', (resolve ['2', '(', '1', 'E', '1', '6', ')', '-', '3']).runOn {}
      ⟨{}, .ofSeed 1⟩ = .ok (some ['2', '*', '1', 'E', '+', '1', '6', '-', '3']) s' :=
    runOn_of_resolvesTo (by decide +kernel)
  refine ⟨hrun, ?_⟩
  obtain ⟨s', hrun⟩ := hrun
  obtain ⟨inner, hinner, hlist | ⟨-, x, star, star', hx, hstar, hstar', hflat, hpieces⟩⟩ :=
    @resolve_group_undivided ['2'] ['-', '3'] ['1', 'E', '1', '6'] _ _ _ _ _ s'
      ⟨by decide, by decide⟩ ⟨by decide, by decide⟩ (by decide) hrun
  · have hungrouped : Text.IsUngrouped ['1', 'E', '1', '6'] := ⟨by decide, by decide⟩
    rw [hinner.eq_of_isUngrouped hungrouped] at hlist
    exact absurd hlist.1 (by decide)
  · -- the star is no part of the literal
    have hletter : '*' ∉ ofFloat x := by
      obtain ⟨l, hl, htext, -⟩ := exists_ofFloat hx
      rw [← htext]
      exact not_mem_text hl (by decide)
    have htext : ['2', '*', '1', 'E', '+', '1', '6'] ++ ['-', '3'] =
        (['2'] ++ star ++ ofFloat x ++ star') ++ ['-', '3'] := by simpa using hflat
    have htext := List.append_cancel_right htext
    obtain ⟨rfl, hliteral⟩ : star = ['*'] ∧ ofFloat x = ['1', 'E', '+', '1', '6'] := by
      rcases hstar' with rfl | rfl
      · rw [List.append_nil] at htext
        rcases hstar with rfl | rfl
        · have hrest : ofFloat x = ['*', '1', 'E', '+', '1', '6'] := (List.cons.inj htext).2.symm
          exact absurd (by simp [hrest]) hletter
        · exact ⟨rfl, (List.cons.inj (List.cons.inj htext).2).2.symm⟩
      · have hlast := congrArg List.getLast? htext
        rw [List.getLast?_concat] at hlast
        exact absurd hlast (by decide)
    rw [hliteral] at hpieces
    refine fun p hp => (hpieces (fun htakes => ?_) p hp).2
    rcases htakes.exponent_or_zero with h | h <;> exact absurd h (by decide)

/-- Two texts that take a part of the literal behind them: a power of ten that has begun, and the
name `mu`. -/
theorem resolve_group_divided :
    resolvesTo ['1', 'E', '(', '1', 'E', '1', '6', ')'] ['1', 'E', '1', 'E', '+', '1', '6'] = true ∧
      (∃ p ∈ Term.pieces ['1', 'E', '1', 'E', '+', '1', '6'],
        p.Cuts ['1', 'E'] ['1', 'E', '+', '1', '6']) ∧
      resolvesTo ['m', 'u', '(', '0', '.', '5', ')'] ['m', 'u', '0', '.', '5'] = true ∧
      ∃ p ∈ Term.pieces ['m', 'u', '0', '.', '5'], p.Cuts ['m', 'u'] ['0', '.', '5'] := by
  have hpower : Divides ['1', 'E'] ['1', 'E', '+', '1', '6'] ['1', 'E', '1'] ['E', '+', '1', '6'] :=
    @Divides.parts ['1', 'E'] ['1', 'E', '+', '1', '6'] ['1'] ['E', '+', '1', '6'] [] (by decide)
      (by decide) rfl
  have hname : Divides ['m', 'u'] ['0', '.', '5'] ['m', 'u', '0'] ['.', '5'] :=
    @Divides.parts ['m', 'u'] ['0', '.', '5'] ['0'] ['.', '5'] [] (by decide) (by decide) rfl
  exact ⟨by decide +kernel, ⟨⟨[], ['1', 'E', '1'], ['E', '+', '1', '6']⟩, by decide +kernel,
    .inr hpower⟩, by decide +kernel, ⟨['m', 'u', '0'], ['.', '5'], []⟩, by decide +kernel,
    .inl hname⟩

end Evaluation

end Reckoner

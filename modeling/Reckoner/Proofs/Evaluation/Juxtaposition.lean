import Mathlib
import Reckoner.Proofs.Evaluation.Resolution
import Reckoner.Proofs.Evaluation.Substitution

/-!
# Groups next to numbers

A number that touches a group is multiplied with it, and so is a group that touches a number: it is
as if a `*` was typed between them (`evaluate_juxtaposition`).  The star is written when the group
is replaced, and by then the text in front of the group has been rewritten; but a group that stood
there has left a digit, a point or a bracket behind, which is multiplied as its parenthesis was.
-/

namespace Reckoner

/-! ## Ends of replaced groups -/

/-- The literal of a number ends with a digit or a point. -/
theorem Literal.joinsLeft_getLast?_ofFloat {x : Float} (h : x.isFinite = true) :
    (ofFloat x).getLast?.any Group.joinsLeft = true := by
  obtain ⟨l, hl, htext, -⟩ := exists_ofFloat h
  obtain ⟨start, c, hlast, hc⟩ := Term.exists_last_literal hl
  have hmem : c ∈ ofFloat x := by
    rw [← htext, hlast]
    simp
  rw [← htext, hlast, List.getLast?_concat, Option.any_some]
  rcases isDigit_of_mem_ofFloat h hmem hc with hdigit | rfl
  · simp [Group.joinsLeft, hdigit]
  · rfl

/-- If no star is written behind a group, what the group is replaced with is multiplied with a group
that follows. -/
theorem Group.Becomes.joinsLeft_getLast? {g : Group} {new : Text} (h : g.Becomes new)
    (hafter : g.after.head?.any joinsRight = false) : new.getLast?.any joinsLeft = true := by
  have hstar : g.starAfter = [] := by
    rw [starAfter, hafter, if_neg (by decide)]
  rcases h with ⟨-, rfl⟩ | ⟨-, x, hx, rfl⟩
  · rw [hstar, List.getLast?_concat]
    rfl
  · have hlast := Literal.joinsLeft_getLast?_ofFloat hx
    rw [hstar, List.append_nil, List.getLast?_append]
    cases hliteral : (Literal.ofFloat x).getLast? with
    | none => simp [hliteral] at hlast
    | some c => simpa [hliteral] using hlast

/-! ## Stars that are written and stars that are typed -/

namespace Evaluation

variable {value : Text → Evaluation Float} {whole starBefore content starAfter : Text}

/-- What stands before the star of a group without commas is put before what the group is replaced
with. -/
theorem replacementIn_append_left (h : ArgumentList.hasComma 0 content = false) (t : Text) :
    replacementIn value whole (t ++ starBefore) content starAfter =
      (t ++ ·) <$> replacementIn value whole starBefore content starAfter := by
  unfold replacementIn
  rw [if_neg (by simp [h]), if_neg (by simp [h])]
  simp

/-- What stands behind the star of a group is put behind what the group is replaced with. -/
theorem replacementIn_append_right (t : Text) :
    replacementIn value whole starBefore content (starAfter ++ t) =
      (· ++ t) <$> replacementIn value whole starBefore content starAfter := by
  unfold replacementIn
  split <;> simp

end Evaluation

namespace TextCoupling

open Evaluation Coupling

variable [MathLibrary] [Stack] {limits : Limits} {t : Text}

/-- Two replacements of one content with the same stars are coupled, whatever the texts are that the
trace shows. -/
theorem couples_replacementIn_untraced (whole whole' starBefore content starAfter : Text) :
    (untraced limits).Couples (fun _ => True)
      (replacementIn (evaluateFlat 1) whole starBefore content starAfter)
      (replacementIn (evaluateFlat 1) whole' starBefore content starAfter) :=
  couples_replacementIn (fun _ => trivial)
    (couples_evaluateFlat isFinite_failedValue (diceIn_untraced content)) (fun _ => trivial)
    fun _ _ _ => trivial

/-- Two runs that go on with one text are coupled. -/
theorem couples_replaceGroups_untraced (before after : Text) :
    (untraced limits).Couples (fun flat => ∀ t ∈ flat, Text.DiceIn (untraced limits).dice t)
      (replaceGroups before after) (replaceGroups before after) :=
  couples_replaceGroups (diceIn_untraced before) (diceIn_untraced after)

/-- A star typed before a group without commas is the one that is written before its value. -/
theorem couples_typedBefore (ht : t.Nested false) {before : Text}
    (hbefore : before.head?.any Group.joinsLeft = true) (after : Text) :
    (untraced limits).Couples (fun flat => ∀ t ∈ flat, Text.DiceIn (untraced limits).dice t)
      (replaceGroups ('(' :: before) (t ++ ')' :: after))
      (replaceGroups ('(' :: '*' :: before) (t ++ ')' :: after)) := by
  have hflat : ∀ flat : Text, flat.Resolved false →
      (untraced limits).Couples (fun flat => ∀ t ∈ flat, Text.DiceIn (untraced limits).dice t)
        (replaceGroups (flat.reverse ++ '(' :: before) (')' :: after) >>= pure)
        (replaceGroups (flat.reverse ++ '(' :: '*' :: before) (')' :: after) >>= pure) := by
    intro flat hresolved
    have hcomma := ArgumentList.hasComma_eq_false (hresolved.comma rfl) 0
    have hwritten : Group.starBefore ⟨before.reverse, flat, after⟩ = ['*'] ++ [] := by
      rw [Group.starBefore, List.getLast?_reverse, hbefore, if_pos rfl, List.append_nil]
    have htyped : Group.starBefore ⟨('*' :: before).reverse, flat, after⟩ = [] := by
      rw [Group.starBefore, List.getLast?_reverse]
      rfl
    rw [bind_pure, bind_pure, replaceGroups_close hresolved.opening,
      replaceGroups_close hresolved.opening, replacement, replacement, hwritten, htyped,
      replacementIn_append_left hcomma, bind_map_left]
    refine (couples_replacementIn_untraced _ _ _ _ _).bind fun new _ => ?_
    -- from here on, both runs have the same text
    have htext : (['*'] ++ new).reverse ++ before = new.reverse ++ '*' :: before := by simp
    rw [htext]
    exact couples_replaceGroups_untraced _ _
  have hopening : ('(' :: before).head?.any Group.joinsLeft =
      ('(' :: '*' :: before).head?.any Group.joinsLeft := rfl
  have h := couples_nested ht hopening rfl hflat
  rwa [bind_pure, bind_pure] at h

/-- A star typed behind a group is the one that is written behind its value or its list. -/
theorem couples_typedAfter {commas : Bool} (ht : t.Nested commas) {c : Char}
    (hc : Group.joinsRight c = true) (before after : Text) :
    (untraced limits).Couples (fun flat => ∀ t ∈ flat, Text.DiceIn (untraced limits).dice t)
      (replaceGroups ('(' :: before) (t ++ ')' :: c :: after))
      (replaceGroups ('(' :: before) (t ++ ')' :: '*' :: c :: after)) := by
  have hflat : ∀ flat : Text, flat.Resolved commas →
      (untraced limits).Couples (fun flat => ∀ t ∈ flat, Text.DiceIn (untraced limits).dice t)
        (replaceGroups (flat.reverse ++ '(' :: before) (')' :: c :: after) >>= pure)
        (replaceGroups (flat.reverse ++ '(' :: before) (')' :: '*' :: c :: after) >>= pure) := by
    intro flat hresolved
    have hwritten : Group.starAfter ⟨before.reverse, flat, c :: after⟩ = [] ++ ['*'] := by
      simp [Group.starAfter, hc]
    have htyped : Group.starAfter ⟨before.reverse, flat, '*' :: c :: after⟩ = [] := rfl
    rw [bind_pure, bind_pure, replaceGroups_close hresolved.opening,
      replaceGroups_close hresolved.opening, replacement, replacement, hwritten, htyped,
      replacementIn_append_right, bind_map_left]
    refine (couples_replacementIn_untraced _ _ _ _ _).bind fun new _ => ?_
    -- the typed star is passed, and then both runs have the same text
    have htext : (new ++ ['*']).reverse ++ before = '*' :: (new.reverse ++ before) := by simp
    rw [htext, replaceGroups_cons (by decide) (new.reverse ++ before)]
    exact couples_replaceGroups_untraced _ _
  have hclosing : (')' :: c :: after).head?.any Group.joinsRight =
      (')' :: '*' :: c :: after).head?.any Group.joinsRight := rfl
  have h := couples_nested ht rfl hclosing hflat
  rwa [bind_pure, bind_pure] at h

/-- A star typed between a character that is multiplied with a group and the group changes nothing,
wherever the character stands. -/
theorem couples_typedBetween (ht : t.Nested false) {c : Char}
    (hc : Group.joinsLeft c = true ∨ c = ')') (before after : Text) :
    (untraced limits).Couples (fun flat => ∀ t ∈ flat, Text.DiceIn (untraced limits).dice t)
      (replaceGroups before (c :: '(' :: (t ++ ')' :: after)))
      (replaceGroups before (c :: '*' :: '(' :: (t ++ ')' :: after))) := by
  have hgroup : ∀ before : Text, before.head?.any Group.joinsLeft = true →
      (untraced limits).Couples (fun flat => ∀ t ∈ flat, Text.DiceIn (untraced limits).dice t)
        (replaceGroups before ('(' :: (t ++ ')' :: after)))
        (replaceGroups before ('*' :: '(' :: (t ++ ')' :: after))) := by
    intro before hbefore
    rw [replaceGroups_cons (by decide), replaceGroups_cons (by decide),
      replaceGroups_cons (by decide)]
    exact couples_typedBefore ht hbefore after
  by_cases hclosing : c = ')'
  · subst hclosing
    by_cases hopen : '(' ∈ before
    · -- the parenthesis closes a group, which leaves a digit, a point or a bracket behind
      obtain ⟨inner, start, rfl, hinner⟩ := List.eq_append_cons_of_mem hopen
      have hinner' : '(' ∉ inner.reverse := by simpa using hinner
      have hclose := replaceGroups_close hinner' start
      rw [List.reverse_reverse] at hclose
      rw [hclose, hclose]
      have hreplaced : (untraced limits).Couples
          (Group.Becomes ⟨start.reverse, inner.reverse, '(' :: (t ++ ')' :: after)⟩)
          (replacement (evaluateFlat 1) ⟨start.reverse, inner.reverse, '(' :: (t ++ ')' :: after)⟩)
          (replacement (evaluateFlat 1)
            ⟨start.reverse, inner.reverse, '*' :: '(' :: (t ++ ')' :: after)⟩) :=
        couples_replacement rfl rfl rfl (fun _ => trivial) (diceIn_untraced _)
      refine hreplaced.bind fun new hnew => hgroup _ ?_
      have hlast := hnew.joinsLeft_getLast? rfl
      cases hnil : new.getLast? with
      | none => simp [hnil] at hlast
      | some d => simpa [List.head?_append, hnil] using hlast
    · have hnone : ∀ t ∈ (none : Option Text), Text.DiceIn (untraced limits).dice t := by simp
      have hunmatched : ∀ after, replaceGroups before (')' :: after) =
          (do let _ ← fail .unmatchedClosing; return none) := by
        intro after
        rw [replaceGroups_def_cons, if_pos rfl, cutAtOpening_eq_none hopen]
      rw [hunmatched, hunmatched]
      exact (couples_fail rfl).bind fun _ _ => couples_pure hnone
  · rw [replaceGroups_cons hclosing, replaceGroups_cons hclosing]
    exact hgroup (c :: before) (by simpa [hclosing] using hc)

end TextCoupling

/-! ## Expressions -/

section

variable [MathLibrary] [Stack] {content : Text}

/-- A number and a group next to each other are multiplied exactly as if a star was typed between
them: before a group without commas if a digit, a point, a factorial, or a bracket or parenthesis
that closes stands there, and behind every group if a digit or a point follows.  The outcomes are
the same but for the trace, whatever else the text holds and whatever its groups hold. -/
theorem evaluate_juxtaposition (hbalanced : content.isBalanced 0 = true) (hopening : '[' ∉ content)
    (hclosing : ']' ∉ content) (limits : Limits) (dice : DiceSource) (left right : Text)
    (c : Char) :
    (content.hasOuterComma 0 = false → (c.isDigit = true ∨ c ∈ ['.', '!', ']', ')']) →
      (evaluate limits dice (left ++ c :: '(' :: (content ++ ')' :: right))).map Outcome.untraced =
        (evaluate limits dice (left ++ c :: '*' :: '(' :: (content ++ ')' :: right))).map
          Outcome.untraced) ∧
    ((c.isDigit = true ∨ c = '.') →
      (evaluate limits dice (left ++ '(' :: (content ++ ')' :: c :: right))).map Outcome.untraced =
        (evaluate limits dice (left ++ '(' :: (content ++ ')' :: '*' :: c :: right))).map
          Outcome.untraced) := by
  have hnumber : ∀ d : Char, d.isDigit = true → Text.isBlank d = false ∧ d ≠ '*' := by
    intro d hd
    refine ⟨Text.not_isBlank_of_isDecimal (Text.isDecimal_of_isDigit hd), ?_⟩
    rintro rfl
    exact absurd hd (by decide)
  constructor
  · intro hcomma hc
    have hletter : Text.isBlank c = false ∧ c ≠ '*' := by
      rcases hc with hc | hc
      · exact hnumber c hc
      · fin_cases hc <;> decide
    have hjoins : Group.joinsLeft c = true ∨ c = ')' := by
      rcases hc with hc | hc
      · exact .inl (by simp [Group.joinsLeft, hc])
      · fin_cases hc <;> decide
    have hcontent : content.IsGroupContent := ⟨hbalanced, hopening, hclosing, hcomma⟩
    have hwritten : normalize (left ++ c :: '(' :: (content ++ ')' :: right)) =
        normalize left ++ c :: '(' :: (normalize content ++ ')' :: normalize right) := by
      rw [normalize_append_cons hletter.1 hletter.2, normalize_cons (by decide) (by decide),
        normalize_append_cons (by decide) (by decide)]
    have htyped : normalize (left ++ c :: '*' :: '(' :: (content ++ ')' :: right)) =
        normalize left ++ c :: '*' :: '(' :: (normalize content ++ ')' :: normalize right) := by
      rw [normalize_append_cons hletter.1 hletter.2, normalize_star_cons (by decide) (by decide),
        normalize_append_cons (by decide) (by decide)]
    exact Evaluation.untraced_evaluate_append hwritten htyped rfl (fun before =>
      TextCoupling.couples_typedBetween hcontent.normalize.nested hjoins before _) dice
  · intro hc
    have hletter : Text.isBlank c = false ∧ c ≠ '*' := by
      rcases hc with hc | rfl
      · exact hnumber c hc
      · decide
    have hjoins : Group.joinsRight c = true := by simpa [Group.joinsRight] using hc
    have hnested : (normalize content).Nested true :=
      Text.nested_of_isBalanced (by rw [Text.isBalanced_normalize, hbalanced])
        (fun h => (Text.mem_normalize h).elim (by decide) hopening)
        (fun h => (Text.mem_normalize h).elim (by decide) hclosing) (fun h => absurd h (by decide))
    have hwritten : normalize (left ++ '(' :: (content ++ ')' :: c :: right)) =
        normalize left ++ '(' :: (normalize content ++ ')' :: c :: normalize right) := by
      rw [normalize_append_cons (by decide) (by decide),
        normalize_append_cons (by decide) (by decide), normalize_cons hletter.1 hletter.2]
    have htyped : normalize (left ++ '(' :: (content ++ ')' :: '*' :: c :: right)) =
        normalize left ++ '(' :: (normalize content ++ ')' :: '*' :: c :: normalize right) := by
      rw [normalize_append_cons (by decide) (by decide),
        normalize_append_cons (by decide) (by decide), normalize_star_cons hletter.1 hletter.2]
    refine Evaluation.untraced_evaluate_append hwritten htyped rfl (fun before => ?_) dice
    rw [Evaluation.replaceGroups_cons (by decide), Evaluation.replaceGroups_cons (by decide)]
    exact TextCoupling.couples_typedAfter hnested hjoins before _

end

/-- A factorial before a group, and a digit behind an argument list. -/
theorem evaluate_juxtaposition_list :
    (evaluate {} (.ofSeed 1) ['3', '!', '(', '2', ')']).map Outcome.untraced =
        (evaluate {} (.ofSeed 1) ['3', '!', '*', '(', '2', ')']).map Outcome.untraced ∧
      (evaluate {} (.ofSeed 1) ['m', 'a', 'x', '(', '1', ',', '2', ')', '3']).map
          Outcome.untraced =
        (evaluate {} (.ofSeed 1) ['m', 'a', 'x', '(', '1', ',', '2', ')', '*', '3']).map
          Outcome.untraced := by
  have hgroup := @evaluate_juxtaposition _ _ ['2'] (by decide) (by decide) (by decide) {}
    (.ofSeed 1) ['3'] [] '!'
  have hlist := @evaluate_juxtaposition _ _ ['1', ',', '2'] (by decide) (by decide) (by decide) {}
    (.ofSeed 1) ['m', 'a', 'x'] [] '3'
  exact ⟨hgroup.1 (by decide) (by decide), hlist.2 (by decide)⟩

end Reckoner

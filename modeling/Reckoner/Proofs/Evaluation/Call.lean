import Mathlib
import Reckoner.Proofs.Evaluation.Escape
import Reckoner.Proofs.Evaluation.Leading
import Reckoner.Proofs.Evaluation.Replacing
import Reckoner.Proofs.Evaluation.Rewriting

/-!
# Calls in parentheses

A call of a function ends with its arguments, and it is worth as much in parentheses of its own
(`Evaluation.beq_of_evaluate_call`), as long as what follows the call does not begin like a name.
Where a name follows, it is read as a part of the argument (`evaluate_call_constant`).
-/

namespace Reckoner

namespace Term

open Evaluation Text

variable [MathLibrary] [Stack] {x t : Text} {f : MathFunction} {neutral a : Float}

/-- Nothing but an operator or a factorial may stand behind the arguments of a function and apart
from them. -/
theorem not_gives_function_append (hx : x.IsArguments) (hapart : StandsApart t) (ht : t ≠ [])
    (hdepth : t.foldl ArgumentList.depthAfter 0 = 0) (hsplit : Split.loosest? t = none)
    (hbang : t.getLast? ≠ some '!')
    (hdice : ((Symbol.function f).letters ++ (x ++ t)).WithoutDice) {room : Nat} :
    ¬ Gives ((read room 0 ((Symbol.function f).letters ++ (x ++ t))).evaluate neutral) a := by
  intro h
  cases room with
  | zero => exact not_gives_tooDeep h
  | succ room =>
    have hread := diceIn_read (room + 1) 0 hdice
    rw [read_function_append hx hapart ht hdepth hsplit hbang] at h hread
    obtain ⟨y, xs, -, hxs, -⟩ := gives_call hread h
    cases forall₂_of_gives_evaluateAll hread hxs with
    | cons hvalue _ =>
      rw [read_eq_sub] at hvalue
      cases hroom : room - 2 with
      | zero =>
        rw [hroom] at hvalue
        exact not_gives_tooDeep hvalue
      | succ room =>
        rw [hroom, read_arguments_append hx hapart ht hdepth hsplit hbang] at hvalue
        exact not_gives_unreadable _ hvalue

/-- A text is worth as much as the literal of its value. -/
theorem beqValues_ofFloat (hx : x ≠ []) (hdice : x.WithoutDice) {w : Float}
    (hfinite : w.isFinite = true) (hw : Gives (evaluateFlat 1 x) w) (room room' : Nat) :
    BeqValues (read room 0 x) (read room' 0 (Literal.ofFloat w)) := by
  intro neutral neutral' a a' ha ha'
  obtain ⟨l, hl, htext, hnumeral, hvalue⟩ := Literal.exists_ofFloat hfinite
  have hread := @diceIn_read _ (fun _ => False)
  rw [@evaluate_read_of_ne_nil _ _ neutral 1 _ hx] at ha
  obtain rfl := eq_of_gives_read (hread _ _ hdice) ha hw
  rw [← htext] at ha'
  cases room' with
  | zero => exact absurd ha' not_gives_tooDeep
  | succ room' =>
    rw [read_literal hl] at ha'
    obtain rfl := (diceless_literal l).eq_of_gives ha' (hvalue ▸ (runs_literal hnumeral).gives)
    exact Number.beq_unsigned hfinite

end Term

namespace Evaluation

/-! ## Beginnings -/

/-- The name of a function is written without parentheses, commas and dice operators, and as it is
normalized. -/
theorem letters_function (f : MathFunction) :
    (Symbol.function f).letters.IsFlat ∧ (Symbol.function f).letters.WithoutDice ∧
      normalize (Symbol.function f).letters = (Symbol.function f).letters := by
  refine ⟨Text.isFlat_letters _, ?_, by cases f <;> rfl⟩
  exact Text.diceIn_of_not_mem (by cases f <;> decide) (by cases f <;> decide)

/-- The literal of a number is done. -/
theorem isDone_ofFloat {w : Float} (h : w.isFinite = true) : IsDone (Literal.ofFloat w) where
  opening := (Text.isUngrouped_ofFloat h).1
  withoutDice := by
    obtain ⟨l, hl, htext, -⟩ := Literal.exists_ofFloat h
    rw [← htext]
    exact Text.diceIn_literal hl
  joins := Literal.joinsLeft_getLast?_ofFloat h

/-- Whether a text behind a call begins with a digit or a point that the call is multiplied with, or
stands apart from the call. -/
def mayFollow (t : Text) : Bool := t.head?.all fun c => Group.joinsRight c || Text.isApart c

/-- The star behind a group stands apart, and so does what follows without a star. -/
theorem standsApart_starBehind {right : Text} (h : mayFollow right = true) :
    Text.StandsApart (Group.starBehind right ++ right) := by
  unfold Group.starBehind Group.starAfter
  split
  · show Text.isApart '*' = true
    decide
  · rename_i hstar
    cases right with
    | nil => rfl
    | cons c right =>
      simp only [mayFollow, List.head?_cons, Option.any_some, Option.all_some,
        Bool.or_eq_true] at hstar h
      exact h.resolve_left hstar

variable [MathLibrary] [Stack] {f : MathFunction} {flat x t args right : Text} {a b : Float}

/-- What stands where a call stood, when the group of its arguments became `x`. -/
structure IsCall (f : MathFunction) (x : Text) : Prop where
  /-- The arguments are a literal or a list. -/
  isArguments : x.IsArguments
  /-- There are no groups and no commas. -/
  resolved : x.Resolved false
  /-- The call is done. -/
  isDone : IsDone ((Symbol.function f).letters ++ x)

theorem isCall_of_givesGroup (h : GivesGroup args x) (hargs : args.Nested true)
    (hopening : '[' ∉ args) (hclosing : ']' ∉ args) (hdice : args.WithoutDice) : IsCall f x := by
  obtain ⟨flat, hreplaces, hflat, hdice, hx⟩ := h.exists_becomes hargs hdice
  have hresolved := hx.resolved hflat false
  refine ⟨hx.isArguments (hreplaces.listed hopening hclosing), hresolved, ?_, ?_, ?_⟩
  · simp [(letters_function f).1.opening, hresolved.opening]
  · exact Text.diceIn_append.2 ⟨(letters_function f).2.1, hx.diceIn hdice⟩
  · have hlast := hx.joinsLeft_getLast? rfl
    rw [List.getLast?_append]
    cases hget : x.getLast? with
    | none => simp [hget] at hlast
    | some c => simpa [hget] using hlast

/-- A call and the literal of its value are worth as much at the beginning of a text. -/
theorem IsCall.beqValues (hx : IsCall f x) {w : Float} (hfinite : w.isFinite = true)
    (hw : Gives (evaluateFlat 1 ((Symbol.function f).letters ++ x)) w)
    (hpow : MathLibrary.PowIgnoresSign) (ht : t.WithoutDice) (hapart : t.StandsApart)
    (room room' : Nat) :
    Term.BeqValues (Term.read room 0 ((Symbol.function f).letters ++ x ++ t))
      (Term.read room' 0 (Literal.ofFloat w ++ t)) := by
  obtain ⟨l, hl, htext, -⟩ := Literal.exists_ofFloat hfinite
  have hdice := hx.isDone.withoutDice
  have hoperand := hx.isArguments.isOperand_function f
  have hdepth :=
    (Term.unseparated_of_gives (Term.diceIn_read _ _ hdice) hw).listed.foldl_depthAfter 0
  refine Term.beqValues_append hoperand (htext ▸ Text.isOperand_literal hl) hdice
    (isDone_ofFloat hfinite).withoutDice hdepth hpow
    (Term.beqValues_ofFloat hoperand.ne_nil hdice hfinite hw) ?_ hapart ht room room'
  intro room t neutral a hapart ht hnil hdepth hsplit hbang
  rw [List.append_assoc]
  refine Term.not_gives_function_append hx.isArguments hapart hnil hdepth hsplit hbang ?_
  rw [← List.append_assoc]
  exact Text.diceIn_append.2 ⟨hdice, ht⟩

/-! ## Replacing a call -/

/-- A group with nothing before it and without commas is replaced with the literal of its value. -/
theorem exists_of_gives_value {content new : Text}
    (hcomma : ArgumentList.hasComma 0 content = false) (hdice : content.WithoutDice)
    (h : Gives (replacement (evaluateFlat 1) ⟨[], content, right⟩) new) :
    ∃ w : Float, w.isFinite = true ∧ Gives (evaluateFlat 1 content) w ∧
      new = Literal.ofFloat w ++ Group.starBehind right := by
  rw [replacement_of_not_comma _ hcomma] at h
  have hfinish : Diceless (·.isFinite = true) (finish (some content)) :=
    diceless_finish fun t ht => by rwa [← Option.some.inj ht]
  have hcheck : ∀ w : Float, Diceless (·.isFinite = true)
      (checkFinite w (.groupOverflow content)) := fun _ _ _ _ =>
    Coupling.couples_checkFinite trivial
  have hpure : ∀ w : Float, Diceless (fun _ => True)
      (trace (.group content w) (Group.text ⟨[], content, right⟩) >>= fun _ =>
        pure (Group.starBefore ⟨[], content, right⟩ ++ Literal.ofFloat w ++
          Group.starAfter ⟨[], content, right⟩)) :=
    fun _ _ _ _ => Coupling.couples_trace_bind trivial (Coupling.couples_pure trivial)
  obtain ⟨w, hw, hvalue, hrest⟩ := h.of_bind hfinish fun w _ _ _ _ =>
    Coupling.Couples.bind (hcheck w _ _ _) fun w _ => hpure w _ _ _
  obtain ⟨w', -, hfinite, hnew⟩ := hrest.of_bind (hcheck w) fun w _ => hpure w
  obtain rfl := hfinite.of_checkFinite.1
  exact ⟨w', hw, hvalue.of_finish hdice, gives_pure_iff.1 hnew.of_trace⟩

/-- The call in parentheses is replaced with the literal of its value. -/
theorem exists_of_gives_parentheses {o : Option Text} (hx : IsCall f x) (hright : right.WithoutDice)
    (h : Gives (replaceGroups (x.reverse ++ ((Symbol.function f).letters.reverse ++ ['(']))
      (')' :: right)) o) :
    ∃ w : Float, w.isFinite = true ∧
      Gives (evaluateFlat 1 ((Symbol.function f).letters ++ x)) w ∧
      Gives (replaceGroups (Literal.ofFloat w ++ Group.starBehind right).reverse right) o := by
  have hdice := hx.isDone.withoutDice
  have hcomma : ',' ∉ (Symbol.function f).letters ++ x := by
    simp [(letters_function f).1.comma, hx.resolved.comma rfl]
  rw [← List.append_assoc, ← List.reverse_append, replaceGroups_close hx.isDone.opening] at h
  obtain ⟨new, -, hnew, hrest⟩ := h.of_bind (diceless_replacement hdice)
    fun new hnew => diceless_replaceGroups (Text.diceIn_append.2
      ⟨Text.diceIn_reverse.2 (hnew.diceIn hdice), Text.withoutDice_nil⟩) hright
  obtain ⟨w, hfinite, hw, rfl⟩ :=
    exists_of_gives_value (ArgumentList.hasComma_eq_false hcomma 0) hdice hnew
  rw [List.append_nil] at hrest
  exact ⟨w, hfinite, hw, hrest⟩

/-! ## Calls -/

section

variable (hargs : args.Nested true) (hopening : '[' ∉ args) (hclosing : ']' ∉ args)
  (hdice : args.WithoutDice) (hright : right.WithoutDice)
  (hapart : mayFollow right = true)
include hargs hopening hclosing hdice hright hapart

/-- The groups of a text with a call are replaced alike, whether the call is in parentheses or not:
what follows is the same behind the call and behind the literal of its value. -/
theorem exists_of_gives_calls {o o' : Option Text}
    (h : Gives (resolve ((Symbol.function f).letters ++ '(' :: (args ++ ')' :: right))) o)
    (h' : Gives (resolve ('(' :: ((Symbol.function f).letters ++ '(' ::
      (args ++ ')' :: ')' :: right)))) o') :
    ∃ (x t : Text) (w : Float), IsCall f x ∧ w.isFinite = true ∧
      Gives (evaluateFlat 1 ((Symbol.function f).letters ++ x)) w ∧ t.WithoutDice ∧
        t.StandsApart ∧ o = some ((Symbol.function f).letters ++ x ++ t) ∧
          o' = some (Literal.ofFloat w ++ t) := by
  obtain ⟨hflat, hletters, -⟩ := letters_function f
  have hbefore : ∀ {s : Text}, s.WithoutDice →
      Text.WithoutDice ((Symbol.function f).letters.reverse ++ s) := fun hs =>
    Text.diceIn_append.2 ⟨Text.diceIn_reverse.2 hletters, hs⟩
  rw [resolve, replaceGroups_append hflat.closing, replaceGroups_cons (by decide)] at h
  rw [resolve, replaceGroups_cons (by decide), replaceGroups_append hflat.closing,
    replaceGroups_cons (by decide)] at h'
  obtain ⟨x, hx, hrest⟩ := exists_of_gives_group hargs hdice (hbefore Text.withoutDice_nil) hright
    (joinsLeft_function f []) h
  obtain ⟨x', hx', hrest'⟩ := exists_of_gives_group hargs hdice
    (hbefore (Text.withoutDice_nil.cons (by decide))) (hright.cons (by decide))
    (joinsLeft_function f _) h'
  obtain rfl := hx.unique hdice hx'
  have hcall : IsCall f x := isCall_of_givesGroup hx hargs hopening hclosing hdice
  have hnone : Group.starBehind (')' :: right) = [] := rfl
  rw [hnone, List.append_nil] at hrest'
  obtain ⟨w, hfinite, hw, hrest'⟩ := exists_of_gives_parentheses hcall hright hrest'
  have hstar : (Group.starBehind right).WithoutDice :=
    (Text.withoutDice_nil.cons (by decide)).mono (Group.subset_starAfter _)
  have htext : (x ++ Group.starBehind right).reverse ++
      ((Symbol.function f).letters.reverse ++ []) =
        ((Symbol.function f).letters ++ x ++ Group.starBehind right).reverse := by
    simp
  rw [htext] at hrest
  obtain ⟨t, rfl, rfl, ht, hapart⟩ := exists_of_gives_replaceGroups hcall.isDone
    (isDone_ofFloat hfinite) hstar hright (standsApart_starBehind hapart) hrest hrest'
  exact ⟨x, t, w, hcall, hfinite, hw, ht, hapart, rfl, rfl⟩

/-- A call is worth as much in parentheses. -/
theorem beq_of_gives_calls (hpow : MathLibrary.PowIgnoresSign)
    (ha : Gives (evaluateNormalized ((Symbol.function f).letters ++ '(' ::
      (args ++ ')' :: right))) a)
    (hb : Gives (evaluateNormalized ('(' :: ((Symbol.function f).letters ++ '(' ::
      (args ++ ')' :: ')' :: right)))) b) : (a == b) = true := by
  have hcall : ∀ {rest : Text}, rest.WithoutDice →
      Text.WithoutDice ((Symbol.function f).letters ++ '(' :: (args ++ ')' :: rest)) := by
    intro rest hrest
    refine Text.diceIn_append.2 ⟨(letters_function f).2.1, Text.WithoutDice.cons ?_ (by decide)⟩
    exact Text.diceIn_append.2 ⟨hdice, hrest.cons (by decide)⟩
  rw [evaluateNormalized_eq] at ha hb
  obtain ⟨o, -, hresolve, hfinish⟩ := ha.of_bind (diceless_resolve (hcall hright))
    fun _ => diceless_finish
  obtain ⟨o', -, hresolve', hfinish'⟩ := hb.of_bind (diceless_resolve
    ((hcall (hright.cons (by decide))).cons (by decide))) fun _ => diceless_finish
  obtain ⟨x, t, w, hx, hfinite, hw, ht, hapart, rfl, rfl⟩ := exists_of_gives_calls hargs hopening
    hclosing hdice hright hapart hresolve hresolve'
  exact hx.beqValues hfinite hw hpow ht hapart _ _ _ _ _ _
    (hfinish.of_finish (Text.diceIn_append.2 ⟨hx.isDone.withoutDice, ht⟩))
    (hfinish'.of_finish (Text.diceIn_append.2 ⟨(isDone_ofFloat hfinite).withoutDice, ht⟩))

end

/-- A call of a function without dice is worth as much in parentheses of its own, whatever follows,
unless it is a letter that a name may begin with or a digit that is not ASCII: if both texts are
evaluated without a problem, under whatever limits, their values are equal.  About the library, this
takes that powers of the two zeros are equal. -/
theorem beq_of_evaluate_call {limits limits' : Limits} {dice dice' : DiceSource} {r r' : Report}
    (hpow : MathLibrary.PowIgnoresSign) (hbalanced : args.isBalanced 0 = true)
    (hopening : '[' ∉ args) (hclosing : ']' ∉ args) (hdice : args.WithoutDice)
    (hright : right.WithoutDice) (hapart : mayFollow (normalize right) = true)
    (h : evaluate limits dice ((Symbol.function f).letters ++ '(' :: (args ++ ')' :: right)) =
      .ok ⟨a, r⟩)
    (hok : r.failed = false)
    (h' : evaluate limits' dice' ('(' :: ((Symbol.function f).letters ++ '(' ::
      (args ++ ')' :: ')' :: right))) = .ok ⟨b, r'⟩)
    (hok' : r'.failed = false) : (a == b) = true := by
  have hopening : '[' ∉ normalize args := fun hc =>
    (Text.mem_normalize hc).elim (by decide) hopening
  have hclosing : ']' ∉ normalize args := fun hc =>
    (Text.mem_normalize hc).elim (by decide) hclosing
  have hnested : (normalize args).Nested true :=
    Text.nested_of_isBalanced (by rw [Text.isBalanced_normalize, hbalanced]) hopening hclosing
      (by simp)
  have hcall : ∀ rest, normalize ((Symbol.function f).letters ++ '(' :: (args ++ ')' :: rest)) =
      (Symbol.function f).letters ++ '(' :: (normalize args ++ ')' :: normalize rest) := by
    intro rest
    rw [normalize_append_cons (by decide) (by decide), (letters_function f).2.2,
      normalize_append_cons (by decide) (by decide)]
  obtain ⟨s, hrun, hs⟩ := runOn_of_evaluate h hok
  obtain ⟨s', hrun', hs'⟩ := runOn_of_evaluate h' hok'
  rw [hcall] at hrun
  rw [normalize_cons (by decide) (by decide), hcall, normalize_cons (by decide) (by decide)]
    at hrun'
  exact beq_of_gives_calls hnested hopening hclosing (Text.diceIn_normalize hdice)
    (Text.diceIn_normalize hright) hapart hpow ⟨_, _, _, hrun, hs⟩ ⟨_, _, _, hrun', hs'⟩

/-- Whether a text is evaluated without a problem. -/
def evaluatesWell (t : Text) : Bool :=
  match evaluate {} (.ofSeed 1) t with
  | .ok outcome => !outcome.report.failed
  | .error _ => false

theorem exists_of_evaluatesWell {t : Text} (h : evaluatesWell t = true) :
    ∃ x r, evaluate {} (.ofSeed 1) t = .ok ⟨x, r⟩ ∧ r.failed = false := by
  unfold evaluatesWell at h
  split at h
  · rename_i outcome heq
    exact ⟨outcome.value, outcome.report, heq, by simpa using h⟩
  · cases h

end Evaluation

/-- A star is written between a call and the digit behind it. -/
theorem beq_of_evaluate_call_max :
    @MathLibrary.PowIgnoresSign smallLibrary ∧ ∃ x r y r',
      @evaluate smallLibrary .standard {} (.ofSeed 1)
        ['m', 'a', 'x', '(', '1', ',', '2', ')', '3', '+', '1'] = .ok ⟨x, r⟩ ∧ r.failed = false ∧
      @evaluate smallLibrary .standard {} (.ofSeed 1)
        ['(', 'm', 'a', 'x', '(', '1', ',', '2', ')', ')', '3', '+', '1'] = .ok ⟨y, r'⟩ ∧
      r'.failed = false ∧ (x == y) = true := by
  have hpow : @MathLibrary.PowIgnoresSign smallLibrary := by
    intro y _ _ _
    show ((1 : Float) == 1) = true
    decide +kernel
  have hargs : Text.WithoutDice ['1', ',', '2'] := Text.diceIn_of_not_mem (by decide) (by decide)
  have hright : Text.WithoutDice ['3', '+', '1'] := Text.diceIn_of_not_mem (by decide) (by decide)
  obtain ⟨x, r, h, hok⟩ := @Evaluation.exists_of_evaluatesWell smallLibrary .standard
    ['m', 'a', 'x', '(', '1', ',', '2', ')', '3', '+', '1'] (by decide +kernel)
  obtain ⟨y, r', h', hok'⟩ := @Evaluation.exists_of_evaluatesWell smallLibrary .standard
    ['(', 'm', 'a', 'x', '(', '1', ',', '2', ')', ')', '3', '+', '1'] (by decide +kernel)
  have hbeq := @Evaluation.beq_of_evaluate_call smallLibrary .standard .max ['1', ',', '2']
    ['3', '+', '1'] x y {} {} (.ofSeed 1) (.ofSeed 1) r r' hpow (by decide) (by decide) (by decide)
    hargs hright (by decide) h hok h' hok'
  exact ⟨hpow, x, r, y, r', h, hok, h', hok', hbeq⟩

/-- A name behind a call is read as a part of the argument: the root of four times pi is not pi
times the root of four. -/
theorem evaluate_call_constant :
    evaluatesTo ['s', 'q', 'r', 't', '(', '4', ')', 'p', 'i'] 3.5449077018110318 = true ∧
      evaluatesTo ['(', 's', 'q', 'r', 't', '(', '4', ')', ')', 'p', 'i'] 6.283185307179586 = true ∧
      ((3.5449077018110318 : Float) == 6.283185307179586) = false :=
  ⟨by decide +kernel, by decide +kernel, by decide +kernel⟩

end Reckoner

import Mathlib
import Reckoner.Proofs.Evaluation.Call

/-!
# Arguments of calls

A call of a function with several arguments leaves the name of the function and the list of what the
arguments leave (`Evaluation.runs_resolve_call`).  The groups of an argument are replaced in the
whole text as if nothing was around them, and what they leave has no separator outside of its
lists.
-/

namespace Reckoner

namespace Text

/-- Something is left of a text. -/
theorem Replaces.ne_nil {t u : Text} (h : Replaces t u) (ht : t ≠ []) : u ≠ [] := by
  cases h with
  | nil => exact absurd rfl ht
  | cons => simp
  | group hcontent hnew ht =>
    cases hnew with
    | literal hcomma hx hleft hright =>
      obtain ⟨l, hl, htext, -⟩ := Literal.exists_ofFloat hx
      rw [← htext]
      simp [Term.literal_ne_nil hl]
    | list => simp

/-- What is no blank is left. -/
theorem normalize_ne_nil {t : Text} (h : t.removeBlanks ≠ []) : Reckoner.normalize t ≠ [] := by
  rw [Reckoner.normalize]
  cases hblank : t.removeBlanks using caretForDoubleStar.fun_cases with
  | case1 rest => rw [caretForDoubleStar]; simp
  | case2 c rest hne => rw [caretForDoubleStar.eq_2 _ _ hne]; simp
  | case3 => exact absurd hblank h

end Text

/-! ## Calls as they are typed -/

/-- A function applied to some arguments, as it is typed. -/
def MathFunction.callText (f : MathFunction) (es : List Text) : Text :=
  (Symbol.function f).letters ++ '(' :: ([','].intercalate es ++ [')'])

/-- A text is normalized in all the places between commas. -/
theorem ArgumentList.normalize_separated (first : Text) (rest : List Text) :
    normalize (first ++ separated ',' rest ++ [')']) =
      normalize first ++ separated ',' (rest.map normalize) ++ [')'] := by
  induction rest generalizing first with
  | nil =>
    rw [separated, List.flatMap_nil, List.append_nil,
      normalize_append_cons (by decide) (by decide)]
    simp [separated, normalize, Text.removeBlanks, caretForDoubleStar]
  | cons t rest ih =>
    simp only [separated, List.flatMap_cons, List.map_cons, List.cons_append,
      List.append_assoc] at ih ⊢
    rw [normalize_append_cons (by decide) (by decide), ih]

namespace Evaluation

variable [MathLibrary] [Stack] {limits : Limits} {before after : Text}

/-! ## One argument -/

omit [MathLibrary] [Stack] in
theorem Gives.of_checkExponents {t : Text} {u : Unit} (h : Gives (checkExponents t) u) :
    hasUnfinishedExponent t = false := by
  by_contra hunfinished
  rw [checkExponents, if_pos (by simpa using hunfinished)] at h
  obtain ⟨limits, s, s', hrun, hok⟩ := h
  rw [runOn_bind_of_ok (runOn_fail limits s _)] at hrun
  cases hrun
  exact absurd hok (by simp [Session.addProblem, Report.addProblem])

/-- An argument, what its groups leave, and its value. -/
structure Argument where
  /-- The argument as it is typed. -/
  text : Text
  /-- What is left when its groups are replaced. -/
  flat : Text
  /-- Its value. -/
  value : Float
  /-- Its parentheses are balanced, and commas stand in its groups only. -/
  nested : (normalize text).Nested false
  /-- The groups leave this text. -/
  resolve : Runs (resolve (normalize text)) (some flat)
  /-- There are no groups and no commas left. -/
  resolved : flat.Resolved false
  /-- There are no dice. -/
  withoutDice : flat.WithoutDice
  /-- There is something left. -/
  ne_nil : flat ≠ []
  /-- Every power of ten has its digits. -/
  exponents : hasUnfinishedExponent flat = false
  /-- Alone, what is left has the value. -/
  gives : Gives (evaluateFlat 1 flat) value

/-- A text with a value may be an argument, if it is not blank. -/
theorem exists_argument {e : Text} {x : Float} (h : HasValue e x) (he : e.removeBlanks ≠ []) :
    ∃ a : Argument, a.text = e ∧ a.value = x := by
  have hdice : (normalize e).WithoutDice :=
    Text.diceIn_normalize (Text.diceIn_of_not_mem h.quiet h.loud)
  have hnested := h.isGroupContent.normalize.nested
  have hvalue := runs_of_hasValue h
  rw [evaluateNormalized_eq] at hvalue
  obtain ⟨o, hgood, hresolve, hfinish⟩ :=
    hvalue.gives.of_bind (diceless_resolve hdice) fun _ => diceless_finish
  obtain ⟨flat, rfl, hresolved⟩ := hresolve.of_untraced fun _ =>
    TextCoupling.couples_resolve_nested hnested
  have hflat := hgood flat rfl
  obtain ⟨u, -, hexponents, -⟩ := hfinish.of_bind (fun limits limits' start =>
    @TextCoupling.couples_checkExponents _ (.quiet limits limits' start) flat)
      fun _ _ => diceless_evaluateFlat hflat
  obtain ⟨limits, s, s', hrun, -⟩ := id hresolve
  exact ⟨{
    text := e
    flat := flat
    value := x
    nested := hnested
    resolve := (diceless_resolve hdice).runs hresolve
    resolved := hresolved
    withoutDice := hflat
    ne_nil := (replaces_of_resolve hrun).ne_nil (Text.normalize_ne_nil he)
    exponents := hexponents.of_checkExponents
    gives := hfinish.of_finish hflat }, rfl, rfl⟩

/-- Texts with values may be arguments, if none of them is blank. -/
theorem exists_arguments {es : List Text} {xs : List Float} (h : List.Forall₂ HasValue es xs)
    (hes : ∀ e ∈ es, e.removeBlanks ≠ []) :
    ∃ args : List Argument, args.map Argument.text = es ∧ args.map Argument.value = xs := by
  induction h with
  | nil => exact ⟨[], rfl, rfl⟩
  | cons hx h ih =>
    obtain ⟨he, hrest⟩ := List.forall_mem_cons.1 hes
    obtain ⟨args, rfl, rfl⟩ := ih hrest
    obtain ⟨a, rfl, rfl⟩ := exists_argument hx he
    exact ⟨a :: args, rfl, rfl⟩

theorem Argument.unseparated (a : Argument) : a.flat.Unseparated :=
  Term.unseparated_of_gives (Term.diceIn_read _ _ a.withoutDice) a.gives

/-! ## The list of the arguments -/

/-- What is left of a text between what stands before and after it: the groups of the rest are
replaced. -/
def replaceRest (before after : Text) : Option Text → Evaluation (Option Text)
  | none => return none
  | some flat => replaceGroups (flat.reverse ++ before) after

/-- The groups of a text do not see what is around it, if it is multiplied with nothing. -/
theorem couples_replaceRest {commas : Bool} {t : Text} (ht : t.Nested commas)
    (hbefore : before.head?.any Group.joinsLeft = false)
    (hafter : after.head?.any Group.joinsRight = false) :
    (TextCoupling.untraced limits).Couples
      (fun flat => ∀ t ∈ flat, Text.DiceIn (TextCoupling.untraced limits).dice t)
      (replaceGroups before (t ++ after)) (resolve t >>= replaceRest before after) := by
  have hflat : ∀ flat : Text, flat.Resolved commas →
      (TextCoupling.untraced limits).Couples
        (fun flat => ∀ t ∈ flat, Text.DiceIn (TextCoupling.untraced limits).dice t)
        (replaceGroups (flat.reverse ++ before) after >>= pure)
        (replaceGroups (flat.reverse ++ []) [] >>= replaceRest before after) := by
    intro flat hresolved
    have hopening : '(' ∉ flat.reverse := by simpa using hresolved.opening
    rw [List.append_nil, replaceGroups_nil hopening, List.reverse_reverse, pure_bind, bind_pure]
    exact TextCoupling.couples_replaceGroups (TextCoupling.diceIn_untraced _)
      (TextCoupling.diceIn_untraced _)
  have h := @TextCoupling.couples_nested _ _ _ _ _ _ ht before [] after [] pure
    (replaceRest before after) _ hbefore hafter hflat
  rwa [List.append_nil, bind_pure] at h

/-- The groups of an argument are replaced in the whole text. -/
theorem Argument.runs_replaceGroups (a : Argument) {o : Option Text}
    (hbefore : before.head?.any Group.joinsLeft = false)
    (hafter : after.head?.any Group.joinsRight = false)
    (h : Runs (replaceGroups (a.flat.reverse ++ before) after) o) :
    Runs (replaceGroups before (normalize a.text ++ after)) o := by
  have hrest : Runs (Evaluation.resolve (normalize a.text) >>= replaceRest before after) o :=
    a.resolve.bind h
  exact hrest.of_couples fun _ => couples_replaceRest a.nested hbefore hafter

/-- The groups of arguments are replaced in the whole text, one argument after the other.  The
induction is on the arguments, while what stands before them grows. -/
theorem runs_replaceGroups_arguments (args : List Argument) {o : Option Text}
    (h : Runs (replaceGroups
      ((ArgumentList.separated ',' (args.map Argument.flat)).reverse ++ before) [')']) o) :
    Runs (replaceGroups before
      (ArgumentList.separated ',' (args.map fun a => normalize a.text) ++ [')'])) o := by
  induction args generalizing before with
  | nil => exact h
  | cons a args ih =>
    have hafter : (ArgumentList.separated ',' (args.map fun a => normalize a.text) ++
        [')']).head?.any Group.joinsRight = false := by
      cases args <;> rfl
    simp only [List.map_cons, ArgumentList.separated, List.flatMap_cons, List.cons_append,
      List.append_assoc] at h ih hafter ⊢
    rw [replaceGroups_cons (by decide)]
    refine a.runs_replaceGroups rfl hafter (ih ?_)
    simpa using h

/-- The list of some arguments, as it stands behind the name of the function. -/
def listOf (first : Argument) (rest : List Argument) : Text :=
  '[' :: (first.flat ++ ArgumentList.separated ';' (rest.map Argument.flat) ++ [']'])

/-- A call of a function with several arguments leaves the name and the list of them. -/
theorem runs_resolve_call (f : MathFunction) (first second : Argument) (rest : List Argument) :
    Runs (resolve ((Symbol.function f).letters ++ '(' :: (normalize first.text ++
        ArgumentList.separated ',' ((second :: rest).map fun a => normalize a.text) ++ [')'])))
      (some ((Symbol.function f).letters ++ listOf first (second :: rest))) := by
  have hitems : ∀ t ∈ (second :: rest).map Argument.flat, t.Unseparated := by
    intro t ht
    obtain ⟨a, -, rfl⟩ := List.mem_map.1 ht
    exact a.unseparated
  have hopening : ∀ separator, separator ≠ '(' → '(' ∉ first.flat ++
      ArgumentList.separated separator ((second :: rest).map Argument.flat) := by
    intro separator hseparator hmem
    rcases List.mem_append.1 hmem with hmem | hmem
    · exact first.resolved.opening hmem
    · obtain hmem | ⟨t, ht, hmem⟩ := ArgumentList.mem_separated hmem
      · exact hseparator hmem.symm
      · obtain ⟨a, -, rfl⟩ := List.mem_map.1 ht
        exact a.resolved.opening hmem
  have hcomma : ArgumentList.hasComma 0 (first.flat ++
      ArgumentList.separated ',' ((second :: rest).map Argument.flat)) = true :=
    first.unseparated.hasComma_append _
  have hwhole : '(' ∉ (Symbol.function f).letters ++ listOf first (second :: rest) := by
    have hlist : '(' ∉ listOf first (second :: rest) := by
      simpa [listOf] using hopening ';' (by decide)
    simp [(letters_function f).1.opening, hlist]
  have hend : Runs (replaceGroups ((Symbol.function f).letters ++
      listOf first (second :: rest)).reverse [])
      (some ((Symbol.function f).letters ++ listOf first (second :: rest))) := by
    rw [replaceGroups_nil (List.mem_reverse.not.2 hwhole), List.reverse_reverse]
    exact runs_pure _
  have hdone : Runs (replaceGroups ((ArgumentList.separated ','
      ((second :: rest).map Argument.flat)).reverse ++ (first.flat.reverse ++
        '(' :: (Symbol.function f).letters.reverse)) [')'])
      (some ((Symbol.function f).letters ++ listOf first (second :: rest))) := by
    rw [← List.append_assoc, ← List.reverse_append, replaceGroups_close (hopening ',' (by decide)),
      replacement_of_comma _ hcomma rfl, first.unseparated.semicolons_append,
      ArgumentList.semicolons_separated hitems, bind_assoc]
    refine (runs_trace _ _).bind ?_
    rw [pure_bind, ← List.reverse_append]
    exact hend
  rw [resolve, replaceGroups_append (letters_function f).1.closing, List.append_nil,
    replaceGroups_cons (by decide), List.append_assoc]
  exact first.runs_replaceGroups rfl rfl (runs_replaceGroups_arguments (second :: rest) hdone)

end Evaluation

end Reckoner

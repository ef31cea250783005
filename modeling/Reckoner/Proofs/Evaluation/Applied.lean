import Mathlib
import Reckoner.Proofs.Evaluation.Arguments
import Reckoner.Proofs.Number.Product

/-!
# Functions of several arguments

A function with several arguments is handed their values, one for each argument and in their order,
whatever groups and calls the arguments hold (`evaluate_arguments`).  An item of a list has fewer
levels than a text has alone: an argument that needs them makes the whole too deep, as a row of
factorials does (`evaluate_arguments_tooDeep`).
-/

namespace Reckoner

namespace Evaluation

variable [MathLibrary] [Stack]

/-! ## The values of the arguments -/

/-- Once its groups are replaced, the text has a value under so many levels. -/
def FitsIn (levels : Nat) (e : Text) : Prop :=
  ∃ flat x, Gives (resolve (normalize e)) (some flat) ∧
    Gives ((Term.read levels 0 flat).evaluate 1) x

namespace Argument

/-- An argument is attempted under every number of levels. -/
theorem attempts (a : Argument) (room charge : Nat) :
    Attempts ((Term.read room charge a.flat).evaluate 1) a.value :=
  Term.attempts_read (Term.diceIn_read _ _ a.withoutDice) a.gives room charge

/-- An argument that fits in the levels has its value under them. -/
theorem runs_of_fitsIn {a : Argument} {room charge : Nat} (h : FitsIn (room - charge) a.text) :
    Runs ((Term.read room charge a.flat).evaluate 1) a.value := by
  obtain ⟨flat, x, hflat, hx⟩ := h
  have hattempts : Attempts (Evaluation.resolve (normalize a.text)) (some a.flat) := .inl a.resolve
  cases hattempts.eq_of_gives hflat
  rw [Term.read_eq_sub]
  obtain rfl := (a.attempts _ 0).eq_of_gives hx
  exact (Term.diceless_evaluate isFinite_failedValue (Term.diceIn_read _ _ a.withoutDice)).runs hx

/-- An argument that does not fit in the levels needs more than them. -/
theorem runsOut_of_not_fitsIn {a : Argument} {room charge : Nat}
    (h : ¬ FitsIn (room - charge) a.text) :
    RunsOut ((Term.read room charge a.flat).evaluate 1) := by
  refine (a.attempts room charge).resolve_left fun hruns => h ⟨a.flat, a.value, a.resolve.gives, ?_⟩
  rw [← Term.read_eq_sub]
  exact hruns.gives

end Argument

variable {room charge : Nat} {args : List Argument}

/-- Arguments that all fit have their values, in their order. -/
theorem runs_evaluateAll (h : ∀ a ∈ args, FitsIn (room - charge) a.text) :
    Runs (Term.evaluateAll (args.map fun a => Term.read room charge a.flat))
      (args.map Argument.value) := by
  induction args with
  | nil => exact runs_pure []
  | cons a args ih =>
    obtain ⟨ha, hargs⟩ := List.forall_mem_cons.1 h
    exact (Argument.runs_of_fitsIn ha).bind ((ih hargs).bind (runs_pure _))

/-- If one argument does not fit, the levels run out. -/
theorem runsOut_evaluateAll (h : ∃ a ∈ args, ¬ FitsIn (room - charge) a.text) :
    RunsOut (Term.evaluateAll (args.map fun a => Term.read room charge a.flat)) := by
  induction args with
  | nil => simp at h
  | cons a args ih =>
    by_cases ha : FitsIn (room - charge) a.text
    · have hargs : ∃ a ∈ args, ¬ FitsIn (room - charge) a.text := by simpa [ha] using h
      exact (Argument.runs_of_fitsIn ha).bind_runsOut ((ih hargs).bind _)
    · exact (Argument.runsOut_of_not_fitsIn ha).bind _

/-- The name of a function and the list of its arguments are evaluated as the function of their
values. -/
theorem finish_call (f : MathFunction) (first : Argument) (rest : List Argument) :
    finish (some ((Symbol.function f).letters ++ listOf first rest)) =
      Term.evaluateAll ((first :: rest).map fun a =>
          Term.read (Stack.levels - 1) Stack.itemCharge a.flat) >>=
        function ((Symbol.function f).letters ++ listOf first rest) 1 f (listOf first rest) := by
  have hitems : ∀ t ∈ first.flat :: rest.map Argument.flat, t.Unseparated ∧ t ≠ [] ∧
      hasUnfinishedExponent t = false := by
    intro t ht
    rw [← List.map_cons] at ht
    obtain ⟨a, -, rfl⟩ := List.mem_map.1 ht
    exact ⟨a.unseparated, a.ne_nil, a.exponents⟩
  have hexponents : hasUnfinishedExponent ((Symbol.function f).letters ++ listOf first rest) =
      false := by
    rw [hasUnfinishedExponent_append (Symbol.exponent_not_mem_letters _) (by simp [listOf]),
      listOf, ArgumentList.hasUnfinishedExponent_items fun t ht => (hitems t ht).2.2]
  have hread := @Term.read_function_items _ (Stack.levels - 1) f first.flat
    (rest.map Argument.flat) (fun t ht => ⟨(hitems t ht).1, (hitems t ht).2.1⟩)
    (listOf first rest) rfl
  rw [← List.map_cons, List.map_map] at hread
  have hlevels : Stack.levels = Stack.levels - 1 + 1 :=
    (Nat.sub_add_cancel (Stack.lt_levels (by decide))).symm
  rw [finish, checkExponents_eq_pure hexponents, pure_bind, evaluateFlat, Term.ofText,
    hlevels, hread, Term.evaluate, factor, pure_bind]
  rfl

end Evaluation

/-! ## What a function comes to -/

/-- The outcome of an expression with one problem and nothing else. -/
def Outcome.failure (p : Problem) : Outcome := ⟨Evaluation.failedValue, ({} : Report).addProblem p⟩

@[simp] theorem Outcome.failure_inj {p q : Problem} : failure p = failure q ↔ p = q := by
  simp [failure, Report.addProblem]
  rintro rfl
  rfl

@[simp] theorem Outcome.ne_failure (x : Float) (p : Problem) : ⟨x, {}⟩ ≠ failure p := by
  simp [failure, Report.addProblem]

/-- What a function of some numbers comes to, when nothing else is computed.  Its problems say how
the arguments were written. -/
def MathFunction.outcome [MathLibrary] (f : MathFunction) (written : Text) (xs : List Float) :
    Except Halt Outcome :=
  if !f.bounds.accepts xs.length then .ok (.failure (.argumentCount f xs.length written))
  else if !f.domain xs then .ok (.failure (.outsideDomain f xs))
  else
    match f.apply xs with
    | .error fault =>
      if fault.isReported then .ok (.failure (.noValue f xs fault)) else .error (.fault fault)
    | .ok value =>
      if value.toFloat.isFinite then .ok ⟨value.toFloat, {}⟩
      else .ok (.failure (.functionOverflow f xs))

section

variable [MathLibrary] {f : MathFunction} {written : Text} {xs : List Float}

/-- The number of the arguments is a problem exactly if the function does not accept it. -/
theorem MathFunction.outcome_eq_argumentCount_iff :
    (∃ w, f.outcome written xs = .ok (.failure (.argumentCount f xs.length w))) ↔
      f.bounds.accepts xs.length = false := by
  constructor
  · rintro ⟨w, h⟩
    by_contra haccepts
    rw [Bool.not_eq_false] at haccepts
    simp only [outcome, haccepts, Bool.not_true, Bool.false_eq_true, if_false] at h
    split at h
    · simp at h
    · split at h
      · split at h <;> simp at h
      · split at h <;> simp at h
  · intro h
    exact ⟨written, by simp [outcome, h]⟩

/-- Where a function accepts the number of its arguments, the arguments are a problem exactly if
they are outside of its domain. -/
theorem MathFunction.outcome_eq_outsideDomain_iff (haccepts : f.bounds.accepts xs.length = true) :
    f.outcome written xs = .ok (.failure (.outsideDomain f xs)) ↔ f.domain xs = false := by
  constructor
  · intro h
    by_contra hdomain
    rw [Bool.not_eq_false] at hdomain
    simp only [outcome, haccepts, hdomain, Bool.not_true, Bool.false_eq_true, if_false] at h
    split at h
    · split at h <;> simp at h
    · split at h <;> simp at h
  · intro h
    simp [outcome, haccepts, h]

/-- A finite value of the function is the outcome. -/
theorem MathFunction.outcome_of_apply {y : MathValue} (haccepts : f.bounds.accepts xs.length = true)
    (hdomain : f.domain xs = true) (hy : f.apply xs = .ok y) (hfinite : y.toFloat.isFinite = true) :
    f.outcome written xs = .ok ⟨y.toFloat, {}⟩ := by
  simp [outcome, haccepts, hdomain, hy, hfinite]

end

namespace Evaluation

variable [MathLibrary] [Stack] {limits : Limits} {dice : DiceSource} {e : Text} {s : Session}

/-! ## Outcomes of expressions -/

theorem untraced_evaluate_of_ok {x : Float}
    (h : (evaluateNormalized (normalize e)).runOn limits ⟨{}, dice⟩ = .ok x s) :
    (evaluate limits dice e).map Outcome.untraced = .ok ⟨x, s.untraced.report⟩ := by
  rw [evaluate, evaluateExpression_def, runOn_tryCatch, h]
  rfl

theorem untraced_evaluate_of_tooDeep
    (h : (evaluateNormalized (normalize e)).runOn limits ⟨{}, dice⟩ = .error .tooDeep s) :
    (evaluate limits dice e).map Outcome.untraced =
      .ok ⟨failedValue, s.untraced.report.addProblem .tooDeep⟩ := by
  rw [evaluate, evaluateExpression_def, runOn_tryCatch, h]
  rfl

theorem untraced_evaluate_of_fault {fault : MathFault}
    (h : (evaluateNormalized (normalize e)).runOn limits ⟨{}, dice⟩ = .error (.fault fault) s) :
    (evaluate limits dice e).map Outcome.untraced = .error (.fault fault) := by
  rw [evaluate, evaluateExpression_def, runOn_tryCatch, h]
  rfl

/-- An expression that comes down to a function of some numbers, with nothing reported before. -/
theorem untraced_evaluate_function {f : MathFunction} {source written : Text} {xs : List Float}
    (hs : s.untraced = ⟨{}, dice⟩)
    (h : (evaluateNormalized (normalize e)).runOn limits ⟨{}, dice⟩ =
      (function source 1 f written xs).runOn limits s) :
    (evaluate limits dice e).map Outcome.untraced = f.outcome written xs := by
  have hfail : ∀ p (t : Session), t.untraced = ⟨{}, dice⟩ →
      (evaluateNormalized (normalize e)).runOn limits ⟨{}, dice⟩ = (fail p).runOn limits t →
        (evaluate limits dice e).map Outcome.untraced = .ok (.failure p) := by
    intro p t ht hrun
    rw [runOn_fail] at hrun
    rw [untraced_evaluate_of_ok hrun, Session.untraced_addProblem, ht]
    rfl
  unfold MathFunction.outcome
  split
  · rename_i hcount
    rw [function, if_pos hcount] at h
    exact hfail _ s hs h
  · rename_i hcount
    rw [function, if_neg hcount] at h
    split
    · rename_i hdomain
      rw [if_pos hdomain] at h
      exact hfail _ s hs h
    · rename_i hdomain
      rw [if_neg hdomain] at h
      split
      · rename_i fault hfault
        simp only [hfault] at h
        split
        · rename_i hreported
          rw [if_pos hreported] at h
          exact hfail _ s hs h
        · rename_i hreported
          rw [if_neg hreported] at h
          exact untraced_evaluate_of_fault h
      · rename_i value hvalue
        simp only [hvalue, Number.one_mul_double] at h
        rw [runOn_bind_of_ok (runOn_trace limits s _ _), checkFinite] at h
        split
        · rename_i hfinite
          rw [if_pos hfinite] at h
          rw [untraced_evaluate_of_ok h, Session.untraced_addStep, hs]
        · rename_i hfinite
          rw [if_neg hfinite] at h
          exact hfail _ _ (by rw [Session.untraced_addStep, hs]) h

/-! ## Calls -/

/-- A function applied to arguments, as it is normalized. -/
theorem normalize_callText (f : MathFunction) (first : Argument) (rest : List Argument) :
    normalize (f.callText ((first :: rest).map Argument.text)) =
      (Symbol.function f).letters ++ '(' :: (normalize first.text ++
        ArgumentList.separated ',' (rest.map fun a => normalize a.text) ++ [')']) := by
  rw [MathFunction.callText, List.map_cons, ArgumentList.intercalate_cons,
    normalize_append_cons (by decide) (by decide), (letters_function f).2.2,
    ArgumentList.normalize_separated, List.map_map]
  rfl

section

variable (f : MathFunction) (first second : Argument) (rest : List Argument)

/-- If every argument fits, the function of the values is the outcome. -/
theorem untraced_evaluate_callText
    (h : ∀ a ∈ first :: second :: rest, FitsIn Stack.itemLevels a.text) (limits : Limits)
    (dice : DiceSource) :
    (evaluate limits dice (f.callText ((first :: second :: rest).map Argument.text))).map
        Outcome.untraced =
      f.outcome (listOf first (second :: rest)) ((first :: second :: rest).map Argument.value) := by
  obtain ⟨s, hs, hresolve⟩ := (runs_resolve_call f first second rest).exists_runOn_bind finish
    limits ⟨{}, dice⟩
  rw [finish_call] at hresolve
  have hvalues := @runs_evaluateAll _ _ (Stack.levels - 1) Stack.itemCharge _ h
  obtain ⟨t, ht, hvalues⟩ := hvalues.exists_runOn_bind (function _ 1 f _) limits s
  rw [hvalues, ← evaluateNormalized_eq, ← normalize_callText] at hresolve
  exact untraced_evaluate_function (ht.trans hs) hresolve

/-- If one argument does not fit, the whole is too deep. -/
theorem untraced_evaluate_callText_tooDeep
    (h : ∃ a ∈ first :: second :: rest, ¬ FitsIn Stack.itemLevels a.text) (limits : Limits)
    (dice : DiceSource) :
    (evaluate limits dice (f.callText ((first :: second :: rest).map Argument.text))).map
      Outcome.untraced = .ok (.failure .tooDeep) := by
  obtain ⟨s, hs, hresolve⟩ := (runs_resolve_call f first second rest).exists_runOn_bind finish
    limits ⟨{}, dice⟩
  have hvalues := @runsOut_evaluateAll _ _ (Stack.levels - 1) Stack.itemCharge _ h
  rw [finish_call] at hresolve
  obtain ⟨t, hrun, ht⟩ := hvalues.bind (function _ 1 f _) limits s
  rw [hrun, ← evaluateNormalized_eq, ← normalize_callText] at hresolve
  rw [untraced_evaluate_of_tooDeep hresolve, ht, hs]
  rfl

end

end Evaluation

/-! ## Main result -/

section

variable [MathLibrary] [Stack]

/-- The outcome of a function applied to arguments, as it is typed, but for the trace. -/
def MathFunction.typedOutcome (f : MathFunction) (es : List Text) (limits : Limits)
    (dice : DiceSource) : Except Halt Outcome :=
  (evaluate limits dice (f.callText es)).map Outcome.untraced

/-- A function is handed the values of its arguments, one for each of them and in their order, so
its outcome is a problem with their number exactly if the function does not accept it, otherwise a
problem with its domain exactly if the values are outside of it, and otherwise the value of the
function, if that is a finite number.  This takes that each argument fits in the levels of an item
of a list; if one does not, this is the only problem. -/
theorem evaluate_arguments (f : MathFunction) {es : List Text} {vs : List Float}
    (hcount : 2 ≤ es.length) (hvalues : List.Forall₂ HasValue es vs)
    (hblank : ∀ e ∈ es, e.removeBlanks ≠ []) (limits : Limits) (dice : DiceSource) :
    ((∀ e ∈ es, Evaluation.FitsIn Stack.itemLevels e) →
      (∃ written, f.typedOutcome es limits dice = f.outcome written vs) ∧
      ((∃ written, f.typedOutcome es limits dice =
          .ok (.failure (.argumentCount f es.length written))) ↔
        f.bounds.accepts es.length = false) ∧
      (f.bounds.accepts es.length = true →
        (f.typedOutcome es limits dice = .ok (.failure (.outsideDomain f vs)) ↔
          f.domain vs = false) ∧
        (f.domain vs = true → ∀ y, f.apply vs = .ok y → y.toFloat.isFinite = true →
          f.typedOutcome es limits dice = .ok ⟨y.toFloat, {}⟩))) ∧
    ((∃ e ∈ es, ¬ Evaluation.FitsIn Stack.itemLevels e) →
      f.typedOutcome es limits dice = .ok (.failure .tooDeep)) := by
  obtain ⟨args, rfl, rfl⟩ := Evaluation.exists_arguments hvalues hblank
  rcases args with - | ⟨first, - | ⟨second, rest⟩⟩
  · simp at hcount
  · simp at hcount
  refine ⟨fun hfits => ?_, fun hfits => ?_⟩
  · have houtcome := Evaluation.untraced_evaluate_callText f first second rest
      (List.forall_mem_map.1 hfits) limits dice
    have hlength : ((first :: second :: rest).map Evaluation.Argument.text).length =
        ((first :: second :: rest).map Evaluation.Argument.value).length := by
      rw [List.length_map, List.length_map]
    rw [MathFunction.typedOutcome, houtcome, hlength]
    refine ⟨⟨_, rfl⟩, MathFunction.outcome_eq_argumentCount_iff, fun haccepts =>
      ⟨MathFunction.outcome_eq_outsideDomain_iff haccepts, fun hdomain y hy hfinite => ?_⟩⟩
    exact MathFunction.outcome_of_apply haccepts hdomain hy hfinite
  · exact Evaluation.untraced_evaluate_callText_tooDeep f first second rest
      (by simpa using hfits) limits dice

end

/-! ### Groups and calls as arguments -/

namespace Evaluation

/-- Whether an evaluation ends with a value and without a problem. -/
def givesValue {α : Type} [DecidableEq α] (m : Evaluation α) (a : α) : Bool :=
  match m.runOn {} ⟨{}, .ofSeed 0⟩ with
  | .ok b s => decide (b = a) && !s.report.failed
  | .error _ _ => false

theorem gives_of_givesValue {α : Type} [DecidableEq α] {m : Evaluation α} {a : α}
    (h : givesValue m a = true) : Gives m a := by
  unfold givesValue at h
  split at h
  · rename_i b s hrun
    rw [Bool.and_eq_true, decide_eq_true_eq, Bool.not_eq_true'] at h
    obtain ⟨rfl, hok⟩ := h
    exact ⟨_, _, s, hrun, hok⟩
  · cases h

end Evaluation

/-- The larger one of `(1+2)!` and `min(4,5)`. -/
theorem evaluate_arguments_max :
    (2 ≤ [['(', '1', '+', '2', ')', '!'], ['m', 'i', 'n', '(', '4', ',', '5', ')']].length ∧
      List.Forall₂ HasValue
        [['(', '1', '+', '2', ')', '!'], ['m', 'i', 'n', '(', '4', ',', '5', ')']] [6, 4] ∧
      ∀ e ∈ [['(', '1', '+', '2', ')', '!'], ['m', 'i', 'n', '(', '4', ',', '5', ')']],
        Text.removeBlanks e ≠ [] ∧ Evaluation.FitsIn Stack.itemLevels e) ∧
    MathFunction.max.typedOutcome
      [['(', '1', '+', '2', ')', '!'], ['m', 'i', 'n', '(', '4', ',', '5', ')']] {} (.ofSeed 1) =
        .ok ⟨6, {}⟩ := by
  have hruns : evaluatesTo ['(', '1', '+', '2', ')', '!'] 6 = true ∧
      evaluatesTo ['m', 'i', 'n', '(', '4', ',', '5', ')'] 4 = true ∧
      Evaluation.givesValue (Evaluation.resolve (normalize ['(', '1', '+', '2', ')', '!']))
        (some ['3', '!']) = true ∧
      Evaluation.givesValue ((Term.read Stack.itemLevels 0 ['3', '!']).evaluate 1) 6 = true ∧
      Evaluation.givesValue
        (Evaluation.resolve (normalize ['m', 'i', 'n', '(', '4', ',', '5', ')']))
        (some ['m', 'i', 'n', '[', '4', ';', '5', ']']) = true ∧
      Evaluation.givesValue ((Term.read Stack.itemLevels 0
        ['m', 'i', 'n', '[', '4', ';', '5', ']']).evaluate 1) 4 = true := by
    decide +kernel
  obtain ⟨hsum, hmin, hflat, hvalue, hflat', hvalue'⟩ := hruns
  have hvalues : List.Forall₂ HasValue
      [['(', '1', '+', '2', ')', '!'], ['m', 'i', 'n', '(', '4', ',', '5', ')']] [6, 4] :=
    .cons (hasValue_of_evaluatesTo ⟨by decide, by decide, by decide, by decide⟩ (by decide)
      (by decide) hsum)
    (.cons (hasValue_of_evaluatesTo ⟨by decide, by decide, by decide, by decide⟩ (by decide)
      (by decide) hmin) .nil)
  have hblank : ∀ e ∈ [['(', '1', '+', '2', ')', '!'], ['m', 'i', 'n', '(', '4', ',', '5', ')']],
      Text.removeBlanks e ≠ [] := by
    decide
  have hfits : ∀ e ∈ [['(', '1', '+', '2', ')', '!'], ['m', 'i', 'n', '(', '4', ',', '5', ')']],
      Evaluation.FitsIn Stack.itemLevels e :=
    List.forall_mem_cons.2 ⟨⟨_, _, Evaluation.gives_of_givesValue hflat,
      Evaluation.gives_of_givesValue hvalue⟩, List.forall_mem_singleton.2
        ⟨_, _, Evaluation.gives_of_givesValue hflat', Evaluation.gives_of_givesValue hvalue'⟩⟩
  have hmax := (evaluate_arguments .max (by decide) hvalues hblank {} (.ofSeed 1)).1 hfits
  exact ⟨⟨by decide, hvalues, fun e he => ⟨hblank e he, hfits e he⟩⟩,
    (hmax.2.2 rfl).2 rfl (.real 6) rfl (by decide)⟩

/-! ### Arguments that do not fit -/

/-- One with some factorials. -/
def factorials (count : Nat) : Text := '1' :: List.replicate count '!'

namespace Evaluation

variable {count room : Nat}

theorem mem_factorials {c : Char} (h : c ∈ factorials count) : c = '1' ∨ c = '!' :=
  (List.mem_cons.1 h).imp_right List.eq_of_mem_replicate

theorem isFlat_factorials : (factorials count).IsFlat := by
  intro c hc
  rcases mem_factorials hc with rfl | rfl <;> decide

theorem factorials_succ : factorials (count + 1) = factorials count ++ ['!'] := by
  rw [factorials, List.replicate_succ', factorials, List.cons_append]

theorem read_factorials_succ [Stack] :
    Term.read (room + 1) 0 (factorials (count + 1)) =
      .factorial (Term.read room 0 (factorials count)) := by
  have hsplit : Split.loosest? (factorials (count + 1)) = none := by
    refine Split.loosest?_eq_none fun tier => Split.passes_of_isPlain fun c hc => ?_
    rcases mem_factorials hc with rfl | rfl <;> decide
  rw [factorials_succ] at hsplit ⊢
  exact Term.read_of_bang hsplit

theorem normalize_factorials : normalize (factorials count) = factorials count := by
  have hbangs : normalize (List.replicate count '!') = List.replicate count '!' := by
    induction count with
    | zero => rfl
    | succ count ih => rw [List.replicate_succ, normalize_cons (by decide) (by decide), ih]
  rw [factorials, normalize_cons (by decide) (by decide), hbangs]

theorem runs_factorial_one : Runs (Reckoner.factorial 1) 1 := by
  have hone : (1 : Float).isFinite = true ∧ fallingProduct (Number.round 1).toNat 1 = some 1 := by
    decide +kernel
  rw [Reckoner.factorial, hone.1, if_neg (by decide)]
  simp only [hone.2]
  exact (runs_trace _ _).bind (runs_pure 1)

variable [MathLibrary] [Stack]

/-- Every factorial takes a level, and one is left for the number. -/
theorem runs_factorials (h : count < room) :
    Runs ((Term.read room 0 (factorials count)).evaluate 1) 1 := by
  induction count generalizing room with
  | zero =>
    obtain ⟨room, rfl⟩ : ∃ n, room = n + 1 := ⟨room - 1, by omega⟩
    have hone : Numeral.value ⟨['1'], false, [], none⟩ = 1 := by decide +kernel
    have hread : Term.read (room + 1) 0 (factorials 0) =
        .literal ⟨false, ⟨['1'], false, [], none⟩⟩ := rfl
    rw [hread, ← hone]
    exact runs_literal (by rw [hone]; decide)
  | succ count ih =>
    obtain ⟨room, rfl⟩ : ∃ n, room = n + 1 := ⟨room - 1, by omega⟩
    rw [read_factorials_succ]
    exact (ih (by omega)).bind runs_factorial_one

theorem runsOut_factorials (h : room ≤ count) :
    RunsOut ((Term.read room 0 (factorials count)).evaluate 1) := by
  induction room generalizing count with
  | zero => exact runsOut_tooDeep
  | succ room ih =>
    obtain ⟨count, rfl⟩ : ∃ n, count = n + 1 := ⟨count - 1, by omega⟩
    rw [read_factorials_succ]
    exact (ih (by omega)).bind _

/-- Alone, one with fewer factorials than there are levels is worth one. -/
theorem hasValue_factorials (h : count < Stack.levels) : HasValue (factorials count) 1 := by
  have hne : ∀ c, c ≠ '1' → c ≠ '!' → c ∉ factorials count := fun c hone hbang hc =>
    (mem_factorials hc).elim hone hbang
  have hflat := @isFlat_factorials count
  have hexponents : hasUnfinishedExponent (factorials count) = false := by
    have happend := @hasUnfinishedExponent_append _ [] (hne 'E' (by decide) (by decide)) (by simp)
    rwa [List.append_nil] at happend
  refine hasValue_of_runs (hflat.isGroupContent (hne _ (by decide) (by decide))
    (hne _ (by decide) (by decide))) (hne _ (by decide) (by decide)) (hne _ (by decide) (by decide))
    ?_
  rw [normalize_factorials, evaluateNormalized_flat hflat.opening hflat.closing hexponents]
  exact runs_factorials h

/-- One with as many factorials as there are levels does not fit in them. -/
theorem not_fitsIn_factorials (h : room ≤ count) : ¬ FitsIn room (factorials count) := by
  rintro ⟨flat, x, hflat, limits, s, s', hrun, -⟩
  rw [normalize_factorials, resolve_eq_pure isFlat_factorials.opening isFlat_factorials.closing]
    at hflat
  obtain rfl := Option.some.inj (gives_pure_iff.1 hflat)
  obtain ⟨t, hdeep, -⟩ := runsOut_factorials h limits s
  cases hrun.symm.trans hdeep

end Evaluation

/-- One with 993 factorials is worth one, and the larger one of this and two is too deep. -/
theorem evaluate_arguments_tooDeep :
    HasValue (factorials 993) 1 ∧ HasValue ['2'] 2 ∧ (factorials 993).removeBlanks ≠ [] ∧
      Text.removeBlanks ['2'] ≠ [] ∧ MathFunction.max.bounds.accepts 2 = true ∧
      MathFunction.max.domain [1, 2] = true ∧ MathFunction.max.apply [1, 2] = .ok (.real 2) ∧
      MathFunction.max.typedOutcome [factorials 993, ['2']] {} (.ofSeed 1) =
        .ok (.failure .tooDeep) := by
  have hone : HasValue (factorials 993) 1 := Evaluation.hasValue_factorials (by decide)
  have htwo : HasValue ['2'] 2 :=
    hasValue_of_evaluatesTo ⟨by decide, by decide, by decide, by decide⟩ (by decide) (by decide)
      (by decide +kernel)
  have hblank : (factorials 993).removeBlanks ≠ [] := by
    rw [factorials, Text.removeBlanks, List.filter_cons_of_pos (by decide)]
    exact List.cons_ne_nil _ _
  obtain ⟨a, ha, -⟩ := Evaluation.exists_argument hone hblank
  obtain ⟨b, hb, -⟩ := Evaluation.exists_argument htwo (by decide)
  have hdeep : ∃ c ∈ [a, b], ¬ Evaluation.FitsIn Stack.itemLevels c.text :=
    ⟨a, by simp, by rw [ha]; exact Evaluation.not_fitsIn_factorials (by decide)⟩
  have houtcome := Evaluation.untraced_evaluate_callText_tooDeep .max a b [] hdeep {} (.ofSeed 1)
  rw [List.map_cons, List.map_cons, List.map_nil, ha, hb] at houtcome
  exact ⟨hone, htwo, hblank, by decide, rfl, rfl, rfl, houtcome⟩

end Reckoner

import Mathlib
import Reckoner.Proofs.Dice.Summary
import Reckoner.Proofs.Evaluation.Respelling

/-!
# The quiet dice operator

The loud dice operator `D` only differs from the quiet one `d` in listing its rolls.  An expression
and the same expression with `d` for every `D` have the same value and the same dice, and their
problems and steps read the same but for this letter (`Report.SameHushed`).
-/

namespace Reckoner

/-! ## The letter -/

/-- The quiet dice operator for the loud one. -/
def quietLetter (c : Char) : Char := if c = 'D' then 'd' else c

/-- A text in words, with the quiet dice operator for the loud one. -/
def hush (s : String) : String := String.ofList (s.toList.map quietLetter)

theorem quietLetter_of_ne {c : Char} (h : c ≠ 'D') : quietLetter c = c := if_neg h

/-- What does not tell the two letters apart does not tell a text apart from its quiet one. -/
theorem apply_quietLetter {α : Type} {f : Char → α} (h : f 'd' = f 'D') (c : Char) :
    f (quietLetter c) = f c := by
  by_cases hc : c = 'D'
  · rw [hc, ← h]
    rfl
  · rw [quietLetter_of_ne hc]

theorem map_quietLetter_map (t : Text) :
    (t.map quietLetter).map quietLetter = t.map quietLetter := by
  have hcomp : quietLetter ∘ quietLetter = quietLetter := funext (apply_quietLetter rfl)
  rw [List.map_map, hcomp]

theorem hush_append_congr {s s' t t' : String} (hs : hush s = hush s') (ht : hush t = hush t') :
    hush (s ++ t) = hush (s' ++ t') := by
  have happend : ∀ s t, hush (s ++ t) = hush s ++ hush t := by
    intro s t
    simp [hush, String.toList_append, String.ofList_append]
  rw [happend, happend, hs, ht]

/-- A text reads the same when it is hushed, whether it was quiet before or not. -/
theorem hush_quiet (t : Text) :
    hush (toString (String.ofList (t.map quietLetter))) = hush (toString (String.ofList t)) := by
  show hush (String.ofList _) = hush (String.ofList _)
  rw [hush, hush, String.toList_ofList, String.toList_ofList, map_quietLetter_map]

/-! ## Lowercase -/

namespace Text

/-- The two letters are letters with case, and case ignores neither. -/
theorem meetsCased_quiet (t : Text) : meetsCased (t.map quietLetter) = meetsCased t :=
  meetsCased_map (apply_quietLetter (by decide +kernel)) (apply_quietLetter (by decide)) t

theorem lowercaseAt_quiet (before : Text) (c : Char) (after : Text) :
    lowercaseAt (before.map quietLetter) (quietLetter c) (after.map quietLetter) =
      lowercaseAt before c after := by
  by_cases hc : c = 'D'
  · rw [hc]
    rfl
  · rw [quietLetter_of_ne hc, lowercaseAt, lowercaseAt, meetsCased_quiet, meetsCased_quiet]

theorem lowercaseFrom_quiet (before t : Text) :
    lowercaseFrom (before.map quietLetter) (t.map quietLetter) = lowercaseFrom before t := by
  induction t generalizing before with
  | nil => rfl
  | cons c t ih =>
    have hnext := ih (c :: before)
    rw [List.map_cons] at hnext
    rw [List.map_cons, lowercaseFrom, lowercaseFrom, lowercaseAt_quiet, hnext]

/-- The two letters have the same lowercase form. -/
theorem lowercase_quiet (t : Text) : lowercase (t.map quietLetter) = lowercase t :=
  lowercaseFrom_quiet [] t

end Text

/-! ## Normalization -/

/-- No other sign becomes a star. -/
theorem eq_star_of_quietLetter {c : Char} (h : quietLetter c = '*') : c = '*' := by
  by_cases hc : c = 'D'
  · rw [hc] at h
    exact absurd h (by decide)
  · rwa [quietLetter_of_ne hc] at h

theorem caretForDoubleStar_quiet (t : Text) :
    caretForDoubleStar (t.map quietLetter) = (caretForDoubleStar t).map quietLetter := by
  induction t using caretForDoubleStar.induct with
  | case1 rest ih =>
    show '^' :: caretForDoubleStar (rest.map quietLetter) = '^' :: _
    rw [ih]
  | case2 c rest hne ih =>
    have hne' : ∀ rest', quietLetter c = '*' → rest.map quietLetter = '*' :: rest' → False := by
      intro rest' hc hrest
      obtain ⟨d, rest, rfl, hd, -⟩ := List.map_eq_cons_iff.1 hrest
      exact hne rest (eq_star_of_quietLetter hc) (by rw [eq_star_of_quietLetter hd])
    rw [List.map_cons, caretForDoubleStar.eq_2 _ _ hne', ih, caretForDoubleStar.eq_2 _ _ hne,
      List.map_cons]
  | case3 => rfl

/-- Normalization does not tell the two letters apart. -/
theorem normalize_quiet (e : Text) :
    normalize (e.map quietLetter) = (normalize e).map quietLetter := by
  rw [normalize, Text.removeBlanks_map (apply_quietLetter (by decide)), caretForDoubleStar_quiet]
  rfl

/-! ## The quiet spelling -/

/-- Writing the quiet dice operator for the loud one. -/
def Respelling.quiet : Respelling where
  letter := quietLetter
  loud _ := false
  letter_of_isMark := by
    intro c hc
    refine quietLetter_of_ne ?_
    rintro rfl
    exact absurd hc (by decide)
  isMark_of_letter := by
    intro c hc
    rwa [apply_quietLetter (f := isMark) (by decide)] at hc
  letter_star := rfl
  operator?_letter := by
    intro tier c
    by_cases hc : c = 'D'
    · rw [hc]
      cases tier <;> rfl
    · rw [quietLetter_of_ne hc]
      unfold Tier.operator?
      split <;> simp_all
  atStart?_map := by
    intro t
    rw [Symbol.atStart?, Text.lowercase_quiet, Symbol.atStart?]

open Respelling

/-- The problem of a quiet text reads the same when it is hushed. -/
theorem hush_message_problem (p : Problem) : hush (quiet.problem p).message = hush p.message := by
  cases p with
  | unfinishedExponent t =>
    exact hush_append_congr (hush_append_congr (hush_append_congr rfl (hush_quiet t)) rfl) rfl
  | constantOverflow t => exact hush_append_congr (hush_append_congr rfl (hush_quiet t)) rfl
  | groupOverflow t =>
    exact hush_append_congr (hush_append_congr (hush_append_congr rfl (hush_quiet t)) rfl) rfl
  | blankArgument f t =>
    exact hush_append_congr rfl (hush_append_congr (hush_append_congr rfl (hush_quiet t)) rfl)
  | argumentCount f count t =>
    exact hush_append_congr rfl (hush_append_congr (hush_append_congr rfl (hush_quiet t)) rfl)
  | strayList t => exact hush_append_congr (hush_append_congr rfl (hush_quiet t)) rfl
  | unreadable t => exact hush_append_congr (hush_append_congr rfl (hush_quiet t)) rfl
  | _ => rfl

theorem hush_message_event (e : Event) : hush (quiet.event e).message = hush e.message := by
  cases e with
  | parameters content => exact hush_append_congr (hush_append_congr rfl (hush_quiet content)) rfl
  | group content value =>
    exact hush_append_congr (hush_append_congr
      (hush_append_congr (hush_append_congr rfl (hush_quiet content)) rfl) rfl) rfl
  | _ => rfl

/-! ## Reports -/

/-- What a step says, hushed. -/
def Step.hushed (e : Step) : String × Text := (hush e.event.message, e.source.map quietLetter)

namespace Report

/-- A report, and a quiet one that says the same when both are hushed. -/
structure SameHushed (r q : Report) : Prop where
  /-- The problems read the same. -/
  problems : r.problems.map (fun p => hush p.message) = q.problems.map fun p => hush p.message
  /-- Both say that there is a problem, or none does. -/
  failed : r.failed = q.failed
  /-- Both ask for the trace, or none does. -/
  verbose : r.verbose = q.verbose
  /-- The steps read the same. -/
  steps : r.steps.map Step.hushed = q.steps.map Step.hushed
  /-- As many steps are left out. -/
  dropped : r.dropped = q.dropped
  /-- The dice are the same. -/
  thrown : r.thrown = q.thrown
  /-- The quiet report lists no dice. -/
  rolls : q.rolls = ""

variable {r q : Report} {limits : Limits}

theorem SameHushed.refl_empty : SameHushed {} {} := ⟨rfl, rfl, rfl, rfl, rfl, rfl, rfl⟩

theorem SameHushed.addStep (h : r.SameHushed q) {e e' : Step} (he : e.hushed = e'.hushed) :
    (r.addStep limits e).SameHushed (q.addStep limits e') := by
  have hlength : r.steps.length = q.steps.length := by
    rw [← List.length_map (f := Step.hushed), h.steps, List.length_map]
  unfold Report.addStep
  rw [hlength]
  split
  · exact ⟨h.problems, h.failed, h.verbose, h.steps, congrArg (· + 1) h.dropped, h.thrown, h.rolls⟩
  · refine ⟨h.problems, h.failed, h.verbose, ?_, h.dropped, h.thrown, h.rolls⟩
    rw [List.map_append, List.map_append, h.steps, List.map_singleton, List.map_singleton, he]

theorem SameHushed.addProblem (h : r.SameHushed q) {p p' : Problem}
    (hmessage : hush p.message = hush p'.message) (hshows : p.showsTrace = p'.showsTrace) :
    (r.addProblem p).SameHushed (q.addProblem p') where
  problems := by
    show (r.problems ++ [p]).map _ = (q.problems ++ [p']).map _
    rw [List.map_append, List.map_append, h.problems, List.map_singleton, List.map_singleton,
      hmessage]
  failed := rfl
  verbose := by
    show (r.verbose || p.showsTrace) = (q.verbose || p'.showsTrace)
    rw [h.verbose, hshows]
  steps := h.steps
  dropped := h.dropped
  thrown := h.thrown
  rolls := h.rolls

theorem SameHushed.addThrow (h : r.SameHushed q) (faces : Int) (values : List Int) :
    (r.addThrow faces values).SameHushed (q.addThrow faces values) :=
  ⟨h.problems, h.failed, h.verbose, h.steps, h.dropped,
    congrArg (· ++ [Throw.mk faces values]) h.thrown, h.rolls⟩

/-- What is listed in the first report is not compared. -/
theorem SameHushed.listRolls (h : r.SameHushed q) (faces : Int) (shown : List Int) (more : Bool) :
    (Dice.listRolls limits faces shown more r).SameHushed q := by
  rw [@Dice.listRolls_eq r r rfl rfl]
  exact ⟨h.problems, h.failed, h.verbose, h.steps, h.dropped, h.thrown, h.rolls⟩

end Report

/-- A session, and a quiet one with the same dice left whose report says the same. -/
structure Session.SameHushed (s t : Session) : Prop where
  /-- The dice that are left are the same. -/
  dice : s.dice = t.dice
  /-- The reports say the same. -/
  report : s.report.SameHushed t.report

theorem Session.SameHushed.afterRoll {s t : Session} (h : s.SameHushed t) {limits : Limits}
    (loud negative : Bool) (count : Nat) (faces : Int) (source : Text) :
    Session.SameHushed (Evaluation.afterRoll loud negative count faces source limits s)
      (Evaluation.afterRoll false negative count faces source limits t) := by
  have hthrow := h.report.addThrow faces (s.dice.throw count faces).1
  unfold Evaluation.afterRoll
  rw [← h.dice]
  refine ⟨rfl, Report.SameHushed.addStep ?_ rfl⟩
  cases loud with
  | false => exact hthrow
  | true => exact hthrow.listRolls _ _ _

/-! ## Runs in both spellings -/

section

open Evaluation

/-- A roll, loud or not, and the same quiet roll. -/
theorem Evaluation.coupled_roll_quiet (limits : Limits) (loud : Bool) (count faces : Float) :
    Coupled limits limits Session.SameHushed (Dice.roll loud count faces)
      (Dice.roll false count faces) (fun a b s t => a = b ∧ a.isFinite = true ∧ s.SameHushed t)
      (fun _ => Session.SameHushed) :=
  coupled_roll_always rfl (fun h => h.dice) (fun h _ => ⟨h.dice, h.report.addStep rfl⟩)
    (fun h _ _ => ⟨h.dice, h.report.addProblem rfl rfl⟩) (fun h => h.afterRoll loud)

variable [MathLibrary]

/-- Runs whose reports say the same when they are hushed. -/
def TextCoupling.hushed (limits : Limits) : TextCoupling where
  limits₁ := limits
  limits₂ := limits
  rel := Session.SameHushed
  stop _ := Session.SameHushed
  step e e' := e.hushed = e'.hushed
  problem p p' := hush p.message = hush p'.message ∧ p.showsTrace = p'.showsTrace
  dice loud := loud = false
  step_refl _ := rfl
  problem_refl _ _ := ⟨rfl, rfl⟩
  rel_step h he := ⟨h.dice, h.report.addStep he⟩
  rel_problem h hp := ⟨h.dice, h.report.addProblem hp.1 hp.2⟩
  rel_roll := by
    rintro _ rfl count faces - -
    exact coupled_roll_quiet limits false count faces
  stop_tooDeep h := h
  stop_fault h _ _ _ _ := h
  rel_of_tooDeep h := h

theorem Respelling.keptBy_hushed (limits : Limits) : quiet.KeptBy (TextCoupling.hushed limits) where
  source e source := by
    show (hush e.message, source.map quietLetter) =
      (hush e.message, (source.map quietLetter).map quietLetter)
    rw [map_quietLetter_map]
  event e source := by
    show (hush e.message, source.map quietLetter) =
      (hush (quiet.event e).message, (source.map quietLetter).map quietLetter)
    rw [hush_message_event, map_quietLetter_map]
  problem p _ := ⟨(hush_message_problem p).symm, (quiet.showsTrace_problem p).symm⟩
  roll loud count faces _ _ := coupled_roll_quiet limits loud count faces

/-- Loud dice and quiet dice agree.  An expression, and the same expression with `d` for every
`D`, have the same value or stop for the same cause, after the same dice were thrown.  Their
reports have the same flags, as many problems and steps, and as many steps left out, and all
problems and steps read the same with `d` for every `D`.  Only the summary differs: it is empty in
the second report. -/
theorem Evaluation.evaluateExpression_quiet [Stack] (limits : Limits) (dice : DiceSource)
    (e : Text) :
    Agree (fun x y s t => x = y ∧ s.SameHushed t) (fun _ s t => s.SameHushed t)
      ((evaluateExpression e).runOn limits ⟨{}, dice⟩)
      ((evaluateExpression (e.map quietLetter)).runOn limits ⟨{}, dice⟩) := by
  have hnormalized : (TextCoupling.hushed limits).CouplesFinite (evaluateNormalized (normalize e))
      (evaluateNormalized (normalize (e.map quietLetter))) := by
    rw [normalize_quiet]
    exact couples_evaluateNormalized (keptBy_hushed limits) (normalize e)
  have h := TextCoupling.coupled_evaluateExpression hnormalized ⟨{}, dice⟩ ⟨{}, dice⟩
    ⟨rfl, Report.SameHushed.refl_empty⟩
  exact h.mono (fun _ _ _ _ hpost => ⟨hpost.1, hpost.2.2⟩) fun _ _ _ hstop => hstop.2

end

end Reckoner

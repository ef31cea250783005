import Mathlib
import Reckoner.Proofs.Evaluation.Growth
import Reckoner.Proofs.Evaluation.Guarded
import Reckoner.Proofs.Number.Display
import Reckoner.Reply.Command

/-!
# Cards that the chat service takes

A card must not be longer than the chat service allows, and no part of it may be empty
(`Embed.Fits`).  Texts that are too long are cut (`IsCut`).  A value is never cut, since its text is
short, and a card of problems is never empty, since every problem of a text has a wording
(`Problem.message_ne_empty`).  So every reply fits, and shows what was evaluated (`reply_fits`).
-/

namespace Reckoner

theorem append_ne_empty {s t : String} (h : t ≠ "") : s ++ t ≠ "" :=
  fun hst => h (String.append_eq_empty_iff.1 hst).2

theorem length_le_utf8Len (chars : List Char) : chars.length ≤ String.utf8Len chars := by
  induction chars with
  | nil => exact Nat.zero_le _
  | cons c chars ih =>
    rw [String.utf8Len_cons]
    exact Nat.add_le_add ih c.utf8Size_pos

/-- Every character takes at least one byte. -/
theorem length_le_utf8ByteSize (s : String) : s.length ≤ s.utf8ByteSize := by
  have hs := length_le_utf8Len s.toList
  rwa [String.length_toList, ← String.utf8ByteSize_ofList, String.ofList_toList] at hs

/-! ## Cut texts -/

/-- What is sent of a text: all of it if it is within the limit, and otherwise its beginning with
three dots for the rest. -/
structure IsCut (limit : Nat) (text sent : String) : Prop where
  /-- A text within the limit is sent as it is. -/
  whole : text.length ≤ limit → sent = text
  /-- The beginning of a longer text is sent, and three dots. -/
  cut : limit < text.length → sent = String.ofList (text.toList.take (limit - 3)) ++ "..."

theorem isCut_truncate (text : String) {limit : Nat} (h : 3 ≤ limit) :
    IsCut limit text (truncate text limit) := by
  have hlength : text.toList.length = text.length := String.length_toList
  constructor
  · intro hle
    rw [truncate, if_pos (by omega)]
  · intro hlt
    rw [truncate, if_neg (by omega), takeTo, if_pos (by omega)]
    congr 3
    omega

namespace IsCut

variable {limit : Nat} {text sent : String}

theorem length_le (h : IsCut limit text sent) (hlimit : 3 ≤ limit) : sent.length ≤ limit := by
  rcases Nat.lt_or_ge limit text.length with hlt | hge
  · have hdots : "...".length = 3 := rfl
    rw [h.cut hlt, String.length_append, String.length_ofList, List.length_take, hdots]
    omega
  · rwa [h.whole hge]

theorem ne_empty (h : IsCut limit text sent) (htext : text ≠ "") : sent ≠ "" := by
  rcases Nat.lt_or_ge limit text.length with hlt | hge
  · rw [h.cut hlt]
    exact append_ne_empty (by decide)
  · rwa [h.whole hge]

end IsCut

/-! ## Problems -/

/-- Every problem that a text has is worded. -/
theorem Problem.message_ne_empty {p : Problem} (h : p.isForeign = false) : p.message ≠ "" := by
  cases p with
  | stated message showTrace => cases h
  | blankArgument f written => exact append_ne_empty (append_ne_empty (by decide +kernel))
  | argumentCount f count written => exact append_ne_empty (append_ne_empty (by decide +kernel))
  | unmatchedClosing | unmatchedOpening | zeroDivisor | zeroRemainderDivisor | zeroToZero | tooDeep
  | facelessDie | factorialOverflow => decide +kernel
  | _ => exact append_ne_empty (by decide +kernel)

namespace Report

/-- The report has problems of texts only, and says whether one of them asks for the trace. -/
structure OfText (r : Report) : Prop where
  /-- A text has these problems. -/
  problems : ∀ p ∈ r.problems, p.isForeign = false
  /-- The trace is asked for if a problem asks for it. -/
  verbose : r.verbose = r.problems.any Problem.showsTrace

variable {r q : Report}

theorem OfText.of_eq (h : r.OfText) (hproblems : q.problems = r.problems)
    (hverbose : q.verbose = r.verbose) : q.OfText :=
  ⟨hproblems ▸ h.problems, by rw [hverbose, hproblems, h.verbose]⟩

theorem OfText.addProblem (h : r.OfText) {p : Problem} (hp : p.isForeign = false) :
    (r.addProblem p).OfText where
  problems := List.forall_mem_append.2 ⟨h.problems, List.forall_mem_singleton.2 hp⟩
  verbose := by simp [Report.addProblem, h.verbose]

/-- A report with a problem has something to say. -/
theorem OfText.problemText_ne_empty (h : r.OfText) (hne : r.problems ≠ []) :
    r.problemText ≠ "" := by
  obtain ⟨p, rest, hproblems⟩ := List.exists_cons_of_ne_nil hne
  have hp : p.message ≠ "" := Problem.message_ne_empty (h.problems p (by simp [hproblems]))
  rw [problemText, hproblems, List.map_cons]
  cases rest with
  | nil => rwa [List.map_nil, String.intercalate_singleton]
  | cons p' rest =>
    rw [List.map_cons, String.intercalate_cons_cons]
    intro hempty
    exact hp (by simpa using (String.append_eq_empty_iff.1 hempty).1)

end Report

namespace Evaluation

/-- An evaluation reports problems of texts only. -/
def ofText (limits : Limits) : Invariant limits where
  holds s := s.report.OfText
  addStep := by
    intro s h e
    refine h.of_eq ?_ ?_ <;> rw [Session.addStep, Report.addStep_eq]
  addProblem h p hp := h.addProblem hp
  afterRoll := by
    intro s h loud negative count faces source
    have hthrows := s.throws_afterRoll loud negative count faces source limits
    exact h.of_eq hthrows.problems hthrows.verbose

end Evaluation

/-- The report about an expression is sound, and has problems of texts only. -/
theorem evaluate_report [MathLibrary] [Stack] {limits : Limits} {dice : DiceSource}
    {expression : Text} {outcome : Outcome} (h : evaluate limits dice expression = .ok outcome) :
    outcome.report.IsSound limits ∧ outcome.report.OfText := by
  have hgrows := (Evaluation.growth limits {}).ends_evaluateExpression expression
    (s := ⟨{}, dice⟩) (Report.Advances.refl {})
  have hplain := (Evaluation.ofText limits).ends_evaluateExpression expression
    (s := ⟨{}, dice⟩) ⟨by simp, rfl⟩
  obtain ⟨grown, hgrown, -, hadvances⟩ := hgrows.of_evaluate h
  obtain ⟨session, hreport, -, htext⟩ := hplain.of_evaluate h
  rw [← hgrown]
  exact ⟨hadvances.isSound (Report.isSound_empty limits), hgrown.trans hreport.symm ▸ htext⟩

/-! ## Cards -/

/-- The chat service takes the card. -/
structure Embed.Fits (e : Embed) : Prop where
  /-- The title is not too long. -/
  title_le : e.title.length ≤ 256
  /-- There is a description. -/
  description_ne : e.description ≠ ""
  /-- The description is not too long. -/
  description_le : e.description.length ≤ 4096
  /-- Every field says something. -/
  value_ne : ∀ field ∈ e.fields, field.value ≠ ""
  /-- No field is too long. -/
  value_le : ∀ field ∈ e.fields, field.value.length ≤ 1024

theorem fits_helpEmbed : helpEmbed.Fits where
  title_le := by decide +kernel
  description_ne := by decide +kernel
  description_le := by decide +kernel
  value_ne := by decide +kernel
  value_le field hfield := by
    -- the bytes of a text are counted without decoding it
    have hbytes : ∀ field ∈ helpEmbed.fields, field.value.utf8ByteSize ≤ 1024 := by
      decide +kernel
    exact (length_le_utf8ByteSize field.value).trans (hbytes field hfield)

/-- The problems of an expression, and the trace after them if somebody or the report asks. -/
def Report.complaint (r : Report) (showSteps : Bool) : String :=
  r.problemText ++
    if (showSteps || r.verbose) && !r.traceText.isEmpty then
      "\n" ++ r.traceText
    else ""

/-- The card shows what came out of an expression. -/
structure Embed.Shows (expression : String) (outcome : Outcome) (showSteps : Bool) (e : Embed) :
    Prop where
  /-- The card is green if there is no problem. -/
  green_iff : e.colour = .green ↔ outcome.report.problems = []
  /-- The card is red if there is a problem. -/
  red_iff : e.colour = .red ↔ outcome.report.problems ≠ []
  /-- The title names the expression. -/
  title : IsCut 256 (if outcome.report.problems = [] then "Evaluating: **" ++ expression ++ "**."
    else "ERROR! Received: `" ++ expression ++ "`.") e.title
  /-- The value is not cut. -/
  value : outcome.report.problems = [] →
    e.description = String.ofList (Number.displayText outcome.value)
  /-- Problems are listed with the trace. -/
  complaint : outcome.report.problems ≠ [] →
    IsCut 4096 (outcome.report.complaint showSteps) e.description
  /-- The report asks for the trace if a problem does, unless the room ran out on the way. -/
  verbose_iff : .tooDeep ∉ outcome.report.problems →
    (outcome.report.verbose = true ↔ ∃ p ∈ outcome.report.problems, p.showsTrace = true)
  /-- The rolls have a field if there are any, unless there is a problem. -/
  hasRolls : (∃ field ∈ e.fields, field.name = "Rolls:") ↔
    outcome.report.problems = [] ∧ outcome.report.rolls ≠ ""
  /-- The steps have a field if they are asked for and there are any, unless there is a problem. -/
  hasSteps : (∃ field ∈ e.fields, field.name = "Steps:") ↔
    outcome.report.problems = [] ∧ showSteps = true ∧ outcome.report.traceText ≠ ""
  /-- Fields hold the rolls and the steps. -/
  field : ∀ field ∈ e.fields,
    field.name = "Rolls:" ∧ IsCut 1024 outcome.report.rolls field.value ∨
      field.name = "Steps:" ∧ showSteps = true ∧
        IsCut 1024 ("```" ++ outcome.report.traceText ++ "```") field.value

variable {expression : String} {outcome : Outcome} {showSteps : Bool}

/-! ### Green cards -/

theorem field_successEmbed : ∀ field ∈ (successEmbed expression outcome showSteps).fields,
    field.value ≠ "" ∧
      (field.name = "Rolls:" ∧ IsCut 1024 outcome.report.rolls field.value ∨
        field.name = "Steps:" ∧ showSteps = true ∧
          IsCut 1024 ("```" ++ outcome.report.traceText ++ "```") field.value) := by
  intro field hfield
  rcases List.mem_append.1 hfield with hrolls | hsteps
  · split at hrolls
    · cases hrolls
    · rename_i hne
      cases List.mem_singleton.1 hrolls
      have hcut := isCut_truncate outcome.report.rolls (show 3 ≤ 1024 by decide)
      exact ⟨hcut.ne_empty (by simpa using hne), .inl ⟨rfl, hcut⟩⟩
  · split at hsteps
    · rename_i hshown
      cases List.mem_singleton.1 hsteps
      have hcut := isCut_truncate ("```" ++ outcome.report.traceText ++ "```")
        (show 3 ≤ 1024 by decide)
      exact ⟨hcut.ne_empty (append_ne_empty (by decide)),
        .inr ⟨rfl, (Bool.and_eq_true _ _ ▸ hshown).1, hcut⟩⟩
    · cases hsteps

theorem shows_successEmbed (h : outcome.report.problems = []) (htext : outcome.report.OfText) :
    (successEmbed expression outcome showSteps).Shows expression outcome showSteps where
  green_iff := iff_of_true rfl h
  red_iff := iff_of_false (by simp [successEmbed]) (not_not.2 h)
  title := by
    rw [if_pos h]
    exact isCut_truncate _ (by decide)
  value _ := rfl
  complaint hne := absurd h hne
  verbose_iff _ := by simp [htext.verbose]
  hasRolls := by
    rw [successEmbed]
    split_ifs with hrolls hsteps hsteps <;> simpa [h] using hrolls
  hasSteps := by
    rw [successEmbed]
    split_ifs with hrolls hsteps hsteps <;> simpa [h] using hsteps
  field field hfield := (field_successEmbed field hfield).2

theorem fits_successEmbed : (successEmbed expression outcome showSteps).Fits where
  title_le := (isCut_truncate _ (show 3 ≤ 256 by decide)).length_le (by decide)
  description_ne := by
    have hne := Number.displayText_ne_nil outcome.value
    simpa [successEmbed] using hne
  description_le := by
    have hle := Number.length_displayText_le outcome.value
    simp only [successEmbed, String.length_ofList]
    omega
  value_ne field hfield := (field_successEmbed field hfield).1
  value_le field hfield := by
    rcases (field_successEmbed field hfield).2 with ⟨-, hcut⟩ | ⟨-, -, hcut⟩
    · exact hcut.length_le (by decide)
    · exact hcut.length_le (by decide)

/-! ### Red cards -/

theorem failureText_eq (r : Report) (showSteps : Bool) :
    failureText r showSteps = r.complaint showSteps := by
  have htrace : (if showSteps then r.traceText else r.askedTrace) =
      if showSteps || r.verbose then r.traceText else "" := by
    rw [Report.askedTrace]
    cases showSteps <;> rfl
  rw [failureText, Report.complaint, htrace]
  cases showSteps || r.verbose with
  | false => exact String.append_empty.symm
  | true =>
    cases hempty : r.traceText.isEmpty with
    | true => simp [hempty]
    | false =>
      simp only [if_true, hempty, Bool.false_eq_true, if_false, Bool.not_false, Bool.and_true]
      exact String.append_assoc

theorem shows_failureEmbed (h : outcome.report.problems ≠ []) (htext : outcome.report.OfText) :
    (failureEmbed expression outcome.report showSteps).Shows expression outcome showSteps where
  green_iff := iff_of_false (by simp [failureEmbed]) h
  red_iff := iff_of_true rfl h
  title := by
    rw [if_neg h]
    exact isCut_truncate _ (by decide)
  value hnone := absurd hnone h
  complaint _ := by
    rw [← failureText_eq]
    exact isCut_truncate _ (by decide)
  verbose_iff _ := by simp [htext.verbose]
  hasRolls := by simp [failureEmbed, h]
  hasSteps := by simp [failureEmbed, h]
  field := by simp [failureEmbed]

theorem fits_failureEmbed (h : outcome.report.problems ≠ []) (htext : outcome.report.OfText) :
    (failureEmbed expression outcome.report showSteps).Fits := by
  have hshows : (failureEmbed expression outcome.report showSteps).Shows expression outcome
      showSteps := shows_failureEmbed h htext
  have hcut := hshows.complaint h
  have hne : outcome.report.complaint showSteps ≠ "" := fun hempty =>
    htext.problemText_ne_empty h (String.append_eq_empty_iff.1 hempty).1
  exact ⟨(isCut_truncate _ (show 3 ≤ 256 by decide)).length_le (by decide), hcut.ne_empty hne,
    hcut.length_le (by decide), by simp [failureEmbed], by simp [failureEmbed]⟩

/-- An evaluated expression is shown on a card that fits. -/
theorem resultEmbed_spec [MathLibrary] [Stack] {limits : Limits} {dice : DiceSource}
    (h : evaluate limits dice expression.toList = .ok outcome) :
    (resultEmbed expression outcome showSteps).Fits ∧
      (resultEmbed expression outcome showSteps).Shows expression outcome showSteps := by
  obtain ⟨hsound, htext⟩ := evaluate_report h
  unfold resultEmbed
  split
  · rename_i hfailed
    have hne := hsound.failed_iff.1 hfailed
    exact ⟨fits_failureEmbed hne htext, shows_failureEmbed hne htext⟩
  · rename_i hfailed
    have hnone := not_not.1 (mt hsound.failed_iff.2 hfailed)
    exact ⟨fits_successEmbed, shows_successEmbed hnone htext⟩

/-! ## Main result -/

/-- Unless its evaluation stops, every expression has a reply: one card that the chat service takes.
If the expression does not ask for help, the card is green exactly if there is no problem, and then
its description is the whole text of the value; otherwise it is red and lists the problems, and
after them the trace if the steps are asked for or the report asks for it.  A text that is too long
is cut, and any other text is sent as it is. -/
theorem reply_fits [MathLibrary] [Stack] {limits : Limits} {dice : DiceSource} {showSteps : Bool}
    {author expression : String}
    (h : asksForHelp expression.toList = false →
      (evaluate limits dice expression.toList).isOk = true) :
    ∃ r, reply limits dice showSteps author expression = .ok r ∧ r.embed.Fits ∧
      (asksForHelp expression.toList = false →
        ∃ outcome, evaluate limits dice expression.toList = .ok outcome ∧
          r.embed.Shows expression outcome showSteps) := by
  unfold reply
  cases hhelp : asksForHelp expression.toList with
  | true => exact ⟨_, rfl, fits_helpEmbed, fun hno => absurd hno (by decide)⟩
  | false =>
    have hok := h hhelp
    cases hevaluate : evaluate limits dice expression.toList with
    | error halt => simp [hevaluate, Except.isOk, Except.toBool] at hok
    | ok outcome =>
      obtain ⟨hfits, hshows⟩ := resultEmbed_spec hevaluate
      exact ⟨_, rfl, hfits, fun _ => ⟨outcome, rfl, hshows⟩⟩

/-- The reply to a sum is a green card with its value. -/
theorem reply_fits_sum : asksForHelp "1+1".toList = false ∧
    (evaluate {} (.ofSeed 1) "1+1".toList).isOk = true ∧
      ∃ r, reply {} (.ofSeed 1) true "someone" "1+1" = .ok r ∧ r.embed.Fits ∧
        r.embed.colour = .green ∧ r.embed.description = "2" := by
  have hhelp : asksForHelp "1+1".toList = false := by decide +kernel
  have hok : (evaluate {} (.ofSeed 1) "1+1".toList).isOk = true := by decide +kernel
  have htwo : (evaluate {} (.ofSeed 1) "1+1".toList).map
      (fun outcome => (outcome.report.problems, Number.displayText outcome.value)) =
        .ok ([], ['2']) := by
    decide +kernel
  obtain ⟨r, hr, hfits, hshows⟩ := @reply_fits _ _ {} (.ofSeed 1) true "someone" "1+1" fun _ => hok
  obtain ⟨outcome, houtcome, hshown⟩ := hshows hhelp
  rw [houtcome] at htwo
  obtain ⟨hnone, hvalue⟩ := Prod.mk.inj (Except.ok.inj htwo)
  refine ⟨hhelp, hok, r, hr, hfits, hshown.green_iff.2 hnone, ?_⟩
  rw [hshown.value hnone, hvalue]

end Reckoner

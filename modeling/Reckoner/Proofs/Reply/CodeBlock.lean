import Mathlib
import Reckoner.Proofs.Evaluation.Consumption
import Reckoner.Proofs.Reply.Embed
import Reckoner.Proofs.Report.Wording

/-!
# Steps as a block of code

The steps of an expression are sent as a block of code.  None of them holds a backtick, since an
expression without problems has none, so nothing but its end can end the block.  A trace with the
backticks around it that is longer than a field is cut, and then the block is never closed.
-/

namespace Reckoner

/-! ## Expressions without backticks -/

namespace Text

/-- A character that is always its own lowercase form is kept. -/
theorem mem_lowercaseFrom {c : Char} (hc : ∀ before after, lowercaseAt before c after = [c])
    {t : Text} (h : c ∈ t) (before : Text) : c ∈ lowercaseFrom before t := by
  induction t generalizing before with
  | nil => cases h
  | cons d t ih =>
    rw [lowercaseFrom]
    rcases List.mem_cons.1 h with rfl | h
    · rw [hc]
      exact List.mem_append_left _ List.mem_cons_self
    · exact List.mem_append_right _ (ih h _)

end Text

theorem IsToken.hasNoBacktick {u : Text} (h : IsToken u) : backtick ∉ u := by
  intro hmem
  cases h with
  | operator h =>
    rw [← List.mem_singleton.1 hmem] at h
    exact absurd h (by decide)
  | factorial => exact absurd hmem (by decide)
  | literal h => exact absurd (Literal.isLetter_of_mem h _ hmem) (by decide)
  | name h =>
    have hlower : backtick ∈ u.lowercase := Text.mem_lowercaseFrom (fun _ _ => rfl) hmem []
    have hletters : ∀ s : Symbol, backtick ∉ s.letters := fun s hs =>
      absurd (Symbol.mem_alphabet hs) (by decide)
    rcases h with h | h <;> rw [h] at hlower
    · exact hletters _ hlower
    · rcases List.mem_append.1 hlower with hletter | hdot
      · exact hletters _ hletter
      · exact absurd hdot (by decide)

theorem IsAccepted.ne_backtick {c : Char} (h : IsAccepted c) : c ≠ backtick := by
  rintro rfl
  rcases h with hsign | ⟨u, htoken, hmem⟩
  · exact absurd hsign (by decide)
  · exact htoken.hasNoBacktick hmem

theorem allowsOwn_backtick : Text.AllowsOwn (· ≠ backtick) := by
  rintro c hc rfl
  exact absurd hc (by decide)

/-- The trace of an expression without problems has no backtick. -/
theorem hasNoBacktick_of_evaluate [MathLibrary] [Stack] {limits : Limits} {dice : DiceSource}
    {expression : Text} {outcome : Outcome} (h : evaluate limits dice expression = .ok outcome)
    (hnone : outcome.report.problems = []) : HasNoBacktick outcome.report.traceText := by
  obtain ⟨session, hrun, hreport⟩ := Evaluation.exists_runOn_of_evaluate h
  rw [← hreport] at hnone ⊢
  have hany : Text.AllowsOwn fun _ => True := fun _ _ => trivial
  have hread := Evaluation.ensures_evaluateExpression limits hany (e := expression)
    fun _ _ => trivial
  have hplain : (normalize expression).UsesOnly (· ≠ backtick) :=
    fun c hc => (hread.holds hrun hnone c hc).ne_backtick
  have hquotes := Evaluation.ensures_evaluateExpression limits allowsOwn_backtick hplain
  exact Report.hasNoBacktick_traceText fun e he =>
    ((hquotes.extends hrun).steps e he).resolve_left List.not_mem_nil

/-! ## Blocks of code -/

/-- Whether a text is a block of code that nothing but its end closes. -/
def IsCodeBlock (s : String) : Prop := ∃ code, HasNoBacktick code ∧ s = "```" ++ code ++ "```"

/-- A text that ends in dots is no block of code. -/
theorem not_isCodeBlock_append_dots (s : String) : ¬ IsCodeBlock (s ++ "...") := by
  rintro ⟨code, -, hcode⟩
  have hchars := congrArg String.toList hcode
  rw [String.toList_append, String.toList_append] at hchars
  exact absurd (List.append_inj_right' hchars rfl) (by decide)

/-- How a trace is sent. -/
structure IsSentTrace (trace sent : String) : Prop where
  /-- Nothing in the trace ends the block. -/
  hasNoBacktick : HasNoBacktick trace
  /-- The chat service takes the field. -/
  length_le : sent.length ≤ 1024
  /-- A short trace is a block of code. -/
  whole : trace.length ≤ 1018 → sent = "```" ++ trace ++ "```"
  /-- The beginning of a longer trace is sent, and three dots instead of the end of the block. -/
  cut : 1018 < trace.length → sent = "```" ++ String.ofList (trace.toList.take 1018) ++ "..."
  /-- The block is closed if the trace is short. -/
  isCodeBlock_iff : IsCodeBlock sent ↔ trace.length ≤ 1018

theorem isSentTrace_of_isCut {trace sent : String} (hplain : HasNoBacktick trace)
    (h : IsCut 1024 ("```" ++ trace ++ "```") sent) : IsSentTrace trace sent := by
  have hlength : ("```" ++ trace ++ "```").length = trace.length + 6 := by
    have hfence : "```".length = 3 := rfl
    rw [String.length_append, String.length_append, hfence]
    omega
  have hwhole : trace.length ≤ 1018 → sent = "```" ++ trace ++ "```" := fun hle =>
    h.whole (by omega)
  have hcut : 1018 < trace.length →
      sent = "```" ++ String.ofList (trace.toList.take 1018) ++ "..." := by
    intro hlt
    have hfence : "```".toList.length = 3 := rfl
    have hle : 1024 - 3 - "```".toList.length ≤ trace.toList.length := by
      rw [hfence, String.length_toList]
      omega
    rw [h.cut (by omega), String.toList_append, String.toList_append, List.append_assoc,
      List.take_append, List.take_append_of_le_length hle, List.take_of_length_le (by decide),
      hfence, String.ofList_append, String.ofList_toList]
  refine ⟨hplain, h.length_le (by decide), hwhole, hcut, fun hblock => ?_, fun hle => ?_⟩
  · by_contra hlt
    rw [hcut (by omega)] at hblock
    exact not_isCodeBlock_append_dots _ hblock
  · exact ⟨trace, hplain, hwhole hle⟩

/-- The steps of an expression without problems are sent as a trace is. -/
theorem isSentTrace_of_evaluate [MathLibrary] [Stack] {limits : Limits} {dice : DiceSource}
    {showSteps : Bool} {expression : String} {outcome : Outcome} {field : EmbedField}
    (h : evaluate limits dice expression.toList = .ok outcome)
    (hfield : field ∈ (resultEmbed expression outcome showSteps).fields)
    (hname : field.name = "Steps:") :
    outcome.report.problems = [] ∧ IsSentTrace outcome.report.traceText field.value := by
  have hshows : (resultEmbed expression outcome showSteps).Shows expression outcome showSteps :=
    (resultEmbed_spec h).2
  obtain ⟨hnone, -⟩ := hshows.hasSteps.1 ⟨field, hfield, hname⟩
  refine ⟨hnone, ?_⟩
  rcases hshows.field field hfield with ⟨hrolls, -⟩ | ⟨-, -, hcut⟩
  · exact absurd (hname.symm.trans hrolls) (by decide)
  · exact isSentTrace_of_isCut (hasNoBacktick_of_evaluate h hnone) hcut

/-- If the steps are asked for and there are any, they have a field. -/
theorem exists_steps_of_evaluate [MathLibrary] [Stack] {limits : Limits} {dice : DiceSource}
    (author : String) {expression : String} {outcome : Outcome}
    (hhelp : asksForHelp expression.toList = false)
    (h : evaluate limits dice expression.toList = .ok outcome)
    (hnone : outcome.report.problems = []) (hsteps : outcome.report.steps ≠ []) :
    ∃ r field, reply limits dice true author expression = .ok r ∧ field ∈ r.embed.fields ∧
      field.name = "Steps:" ∧ IsSentTrace outcome.report.traceText field.value := by
  have hshows : (resultEmbed expression outcome true).Shows expression outcome true :=
    (resultEmbed_spec h).2
  have htrace : outcome.report.traceText ≠ "" := by
    intro hempty
    have hlength := outcome.report.length_traceText_ge
    have hpos := List.length_pos_iff.2 hsteps
    rw [hempty, String.length_empty] at hlength
    omega
  obtain ⟨field, hfield, hname⟩ := hshows.hasSteps.2 ⟨hnone, rfl, htrace⟩
  refine ⟨⟨resultEmbed expression outcome true, [usageRecord author expression outcome]⟩, field,
    ?_, hfield, hname, (isSentTrace_of_evaluate h hfield hname).2⟩
  unfold reply
  rw [hhelp, h]
  rfl

theorem exists_of_map_eq_ok {α β : Type} {m : Except Halt α} {f : α → β} {b : β}
    (h : m.map f = .ok b) : ∃ a, m = .ok a ∧ f a = b := by
  cases m with
  | error halt => cases h
  | ok a => exact ⟨a, rfl, Except.ok.inj h⟩

/-! ## Main result -/

/-- If a reply has a field for the steps, then the expression has no problems, the field is within
its limit, and its value is the trace as a block of code, as long as that is within the limit.  A
longer trace is cut together with the end of the block, and then the block is not closed. -/
theorem isSentTrace_of_reply [MathLibrary] [Stack] {limits : Limits} {dice : DiceSource}
    {showSteps : Bool} {author expression : String} {r : Reply} {field : EmbedField}
    (h : reply limits dice showSteps author expression = .ok r) (hfield : field ∈ r.embed.fields)
    (hname : field.name = "Steps:") :
    ∃ outcome, evaluate limits dice expression.toList = .ok outcome ∧
      outcome.report.problems = [] ∧ IsSentTrace outcome.report.traceText field.value := by
  unfold reply at h
  split at h
  · cases h
    have hhelp : ∀ field ∈ helpEmbed.fields, field.name ≠ "Steps:" := by decide +kernel
    exact absurd hname (hhelp field hfield)
  · cases hevaluate : evaluate limits dice expression.toList with
    | error halt =>
      rw [hevaluate] at h
      cases h
    | ok outcome =>
      rw [hevaluate] at h
      cases h
      exact ⟨outcome, rfl, isSentTrace_of_evaluate hevaluate hfield hname⟩

/-- The steps of a sum have a field of their own. -/
theorem isSentTrace_of_reply_sum : ∃ r field, reply {} (.ofList []) true "someone" "1+1" = .ok r ∧
    field ∈ r.embed.fields ∧ field.name = "Steps:" ∧
      ∃ outcome, evaluate {} (.ofList []) "1+1".toList = .ok outcome ∧
        outcome.report.problems = [] ∧ IsSentTrace outcome.report.traceText field.value := by
  have hhelp : asksForHelp "1+1".toList = false := by decide +kernel
  have hthree : (evaluate {} (.ofList []) "1+1".toList).map
      (fun outcome => (outcome.report.problems, outcome.report.steps.length)) = .ok ([], 3) := by
    decide +kernel
  obtain ⟨outcome, houtcome, hreport⟩ := exists_of_map_eq_ok hthree
  obtain ⟨hnone, hsteps⟩ := Prod.mk.inj hreport
  obtain ⟨r, field, hr, hfield, hname, -⟩ := exists_steps_of_evaluate "someone" hhelp houtcome
    hnone (List.ne_nil_of_length_pos (by omega))
  exact ⟨r, field, hr, hfield, hname, isSentTrace_of_reply hr hfield hname⟩

/-- The steps of a sum of thirty-three numbers are cut, and the block is not closed, though there is
no problem. -/
theorem not_isCodeBlock_longSum :
    let expression := "1+1+1+1+1+1+1+1+1+1+1+1+1+1+1+1+1+1+1+1+1+1+1+1+1+1+1+1+1+1+1+1+1"
    ∃ outcome r field, evaluate {} (.ofList []) expression.toList = .ok outcome ∧
      outcome.report.problems = [] ∧ reply {} (.ofList []) true "someone" expression = .ok r ∧
      field ∈ r.embed.fields ∧ field.name = "Steps:" ∧ ¬ IsCodeBlock field.value := by
  intro expression
  have hhelp : asksForHelp expression.toList = false := by decide +kernel
  have hmany : (evaluate {} (.ofList []) expression.toList).map
      (fun outcome => (outcome.report.problems, outcome.report.steps.length)) = .ok ([], 65) := by
    decide +kernel
  obtain ⟨outcome, houtcome, hreport⟩ := exists_of_map_eq_ok hmany
  obtain ⟨hnone, hsteps⟩ := Prod.mk.inj hreport
  obtain ⟨r, field, hr, hfield, hname, hsent⟩ := exists_steps_of_evaluate "someone" hhelp
    houtcome hnone (List.ne_nil_of_length_pos (by omega))
  refine ⟨outcome, r, field, houtcome, hnone, hr, hfield, hname, fun hblock => ?_⟩
  -- the steps alone are longer than the field
  have hshort := hsent.isCodeBlock_iff.1 hblock
  have hlong := outcome.report.length_traceText_ge
  omega

end Reckoner

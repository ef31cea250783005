import Mathlib
import Reckoner.Proofs.Dice.Summary
import Reckoner.Proofs.Evaluation.Respelling

/-!
# Spellings

The signs of multiplication and division have two spellings each, and a name may be written in
capitals, but for the letters that are an operator or a power of ten.  Expressions that differ in
such spellings only are evaluated alike (`Evaluation.evaluateExpression_spelledAlike`): both have a
common plain spelling, and no part of the evaluation tells an expression from its plain spelling.
-/

namespace Reckoner

/-! ## Characters -/

/-- The characters that are another spelling of a plain one, each with the plain one. -/
def otherSpellings : List (Char × Char) :=
  ('×', '*') :: ('÷', '/') ::
    ['A', 'B', 'C', 'F', 'G', 'H', 'I', 'J', 'K', 'L', 'M', 'N', 'O', 'P', 'Q', 'R', 'S', 'T', 'U',
      'V', 'W', 'X', 'Y', 'Z'].map fun c => (c, c.toLower)

/-- Whether two characters are spellings of one. -/
def SpelledAlike (c d : Char) : Prop :=
  c = d ∨ (c, d) ∈ otherSpellings ∨ (d, c) ∈ otherSpellings

instance (c d : Char) : Decidable (SpelledAlike c d) :=
  inferInstanceAs (Decidable (c = d ∨ (c, d) ∈ otherSpellings ∨ (d, c) ∈ otherSpellings))

/-- The plain spelling of a character. -/
def plainLetter (c : Char) : Char := (otherSpellings.lookup c).getD c

theorem plainLetter_cases (c : Char) :
    plainLetter c = c ∨ (c, plainLetter c) ∈ otherSpellings := by
  unfold plainLetter
  cases h : otherSpellings.lookup c with
  | none => exact .inl rfl
  | some d =>
    obtain ⟨before, after, heq, -⟩ := List.lookup_eq_some_iff.1 h
    exact .inr (by simp [heq])

/-- What does not tell a plain character from its other spelling does not tell the plain spelling of
any character from the character. -/
theorem apply_plainLetter {α : Type} {f : Char → α} (h : ∀ p ∈ otherSpellings, f p.2 = f p.1)
    (c : Char) : f (plainLetter c) = f c := by
  rcases plainLetter_cases c with hc | hc
  · rw [hc]
  · exact h _ hc

theorem plainLetter_plainLetter (c : Char) : plainLetter (plainLetter c) = plainLetter c :=
  apply_plainLetter (by decide) c

/-- Spellings of one character have the same plain spelling. -/
theorem SpelledAlike.plainLetter_eq {c d : Char} (h : SpelledAlike c d) :
    plainLetter c = plainLetter d := by
  have hplain : ∀ p ∈ otherSpellings, plainLetter p.2 = plainLetter p.1 := by decide
  rcases h with rfl | h | h
  · rfl
  · exact (hplain _ h).symm
  · exact hplain _ h

/-! ## Names -/

namespace Text

theorem meetsCased_plain (t : Text) : meetsCased (t.map plainLetter) = meetsCased t :=
  meetsCased_map (apply_plainLetter (by decide +kernel)) (apply_plainLetter (by decide)) t

/-- A character that no name is written with is as good as a star. -/
def nameLetter (c : Char) : Char := if Symbol.alphabet.contains c then c else '*'

theorem lowercaseAt_plain (before : Text) (c : Char) (after : Text) :
    (lowercaseAt (before.map plainLetter) (plainLetter c) (after.map plainLetter)).map nameLetter =
      (lowercaseAt before c after).map nameLetter := by
  have hcontext : ∀ c, lowercaseAt (before.map plainLetter) c (after.map plainLetter) =
      lowercaseAt before c after := by
    intro c
    rw [lowercaseAt, lowercaseAt, meetsCased_plain, meetsCased_plain]
  rw [hcontext]
  refine apply_plainLetter (f := fun c => (lowercaseAt before c after).map nameLetter) ?_ c
  -- what stands around them does not matter for these characters
  have hsigma : ∀ p ∈ otherSpellings, p.1 ≠ 'Σ' ∧ p.2 ≠ 'Σ' := by decide
  have halone : ∀ p ∈ otherSpellings,
      (lowercaseAt [] p.2 []).map nameLetter = (lowercaseAt [] p.1 []).map nameLetter := by
    decide +kernel
  intro p hp
  have hfree : ∀ q, q ≠ 'Σ' → lowercaseAt before q after = lowercaseAt [] q [] := by
    intro q hq
    rw [lowercaseAt, lowercaseAt, if_neg hq, if_neg hq]
  rw [hfree p.1 (hsigma p hp).1, hfree p.2 (hsigma p hp).2, halone p hp]

theorem lowercaseFrom_plain (before t : Text) :
    (lowercaseFrom (before.map plainLetter) (t.map plainLetter)).map nameLetter =
      (lowercaseFrom before t).map nameLetter := by
  induction t generalizing before with
  | nil => rfl
  | cons c t ih =>
    have hnext := ih (c :: before)
    rw [List.map_cons] at hnext
    rw [List.map_cons, lowercaseFrom, lowercaseFrom, List.map_append, List.map_append,
      lowercaseAt_plain, hnext]

/-- The plain spelling of a text begins with the same names. -/
theorem lowercase_plain (t : Text) :
    (lowercase (t.map plainLetter)).map nameLetter = (lowercase t).map nameLetter :=
  lowercaseFrom_plain [] t

end Text

namespace Symbol

/-- A name stands at the beginning of a text if it stands there among the letters of names. -/
theorem letters_isPrefix_iff (s : Symbol) (t : Text) :
    s.letters <+: t.map Text.nameLetter ↔ s.letters <+: t := by
  have hletters : ∀ a ∈ s.letters, a ∈ alphabet := fun a ha => mem_alphabet ha
  generalize s.letters = letters at hletters ⊢
  induction letters generalizing t with
  | nil => simp
  | cons a letters ih =>
    obtain ⟨ha, hletters⟩ := List.forall_mem_cons.1 hletters
    cases t with
    | nil => simp
    | cons c t =>
      have hc : a = Text.nameLetter c ↔ a = c := by
        unfold Text.nameLetter
        split
        · rfl
        · rename_i hc
          refine iff_of_false ?_ ?_
          · rintro rfl
            exact absurd ha (by decide)
          · rintro rfl
            exact hc (by simpa using ha)
      rw [List.map_cons, List.cons_prefix_cons, List.cons_prefix_cons]
      exact and_congr hc (ih t hletters)

theorem atStart?_plain (t : Text) : atStart? (t.map plainLetter) = atStart? t := by
  have hcandidates : candidates (Text.lowercase (t.map plainLetter)) = candidates t.lowercase := by
    refine List.filter_congr fun s _ => ?_
    rw [Bool.eq_iff_iff, List.isPrefixOf_iff_prefix, List.isPrefixOf_iff_prefix,
      ← letters_isPrefix_iff, Text.lowercase_plain, letters_isPrefix_iff]
  rw [atStart?, hcandidates, atStart?]

end Symbol

/-! ## The plain spelling -/

/-- Writing every text in its plain spelling. -/
def Respelling.plain : Respelling where
  letter := plainLetter
  loud := id
  letter_of_isMark := by
    have hmark : ∀ p ∈ otherSpellings, isMark p.1 = false := by decide
    intro c hc
    refine (plainLetter_cases c).resolve_right fun hmem => ?_
    rw [hmark _ hmem] at hc
    exact absurd hc (by decide)
  isMark_of_letter := by
    intro c hc
    rwa [apply_plainLetter (f := isMark) (by decide)] at hc
  letter_star := by decide
  operator?_letter := by
    intro tier c
    rw [apply_plainLetter (f := tier.operator?) (by cases tier <;> decide)]
    cases tier.operator? c with
    | none => rfl
    | some op => cases op <;> rfl
  atStart?_map := Symbol.atStart?_plain

/-! ## Reports -/

namespace Respelling

section

variable (r : Respelling)

/-- The step of the other spelling. -/
def step (e : Step) : Step := ⟨r.event e.event, r.text e.source⟩

/-- The report in the other spelling. -/
def report (q : Report) : Report :=
  { q with problems := q.problems.map r.problem, steps := q.steps.map r.step }

/-- The session with its report in the other spelling. -/
def session (s : Session) : Session := ⟨r.report s.report, s.dice⟩

theorem session_addStep (limits : Limits) (s : Session) (e : Step) :
    r.session (s.addStep limits e) = (r.session s).addStep limits (r.step e) := by
  have hlength : (r.report s.report).steps.length = s.report.steps.length := List.length_map _
  unfold Session.addStep Report.addStep session
  rw [hlength]
  split
  · rfl
  · simp [report]

theorem session_addProblem (s : Session) (p : Problem) :
    r.session (s.addProblem p) = (r.session s).addProblem (r.problem p) := by
  simp [Session.addProblem, Report.addProblem, session, report, r.showsTrace_problem]

/-- The dice that are rolled and listed do not depend on the spelling. -/
theorem session_afterRoll (loud negative : Bool) (count : Nat) (faces : Int) (source : Text)
    (limits : Limits) (s : Session) :
    r.session (Evaluation.afterRoll loud negative count faces source limits s) =
      Evaluation.afterRoll loud negative count faces (r.text source) limits (r.session s) := by
  have hlist : ∀ (shown : List Int) (more : Bool) (q : Report),
      r.report (Dice.listRolls limits faces shown more q) =
        Dice.listRolls limits faces shown more (r.report q) := by
    intro shown more q
    rw [@Dice.listRolls_eq q q rfl rfl, @Dice.listRolls_eq (r.report q) q rfl rfl]
    rfl
  unfold Evaluation.afterRoll
  simp only [session_addStep]
  cases loud with
  | false => rfl
  | true =>
    simp only [if_true, session, hlist]
    rfl

end

end Respelling

/-! ## Runs in both spellings -/

section

variable [MathLibrary] (r : Respelling) (limits : Limits)

open Evaluation

/-- Runs whose sessions are the same in the other spelling. -/
def TextCoupling.respelled : TextCoupling where
  limits₁ := limits
  limits₂ := limits
  rel s t := r.session s = r.session t
  stop _ s t := r.session s = r.session t
  step e e' := r.step e = r.step e'
  problem p p' := r.problem p = r.problem p'
  dice _ := True
  step_refl _ := rfl
  problem_refl _ _ := rfl
  rel_step h he := by rw [r.session_addStep, r.session_addStep, h, he]
  rel_problem h hp := by rw [r.session_addProblem, r.session_addProblem, h, hp]
  rel_roll := by
    intro loud _ count faces _ _
    have hdice : ∀ {s t}, r.session s = r.session t → s.dice = t.dice := by
      intro s t h
      exact (Session.mk.inj h).2
    have hroll : ∀ {s t}, r.session s = r.session t →
        ∀ (negative : Bool) (count : Nat) (faces : Int) (source : Text),
          r.session (afterRoll loud negative count faces source limits s) =
            r.session (afterRoll loud negative count faces source limits t) := by
      intro s t h negative count faces source
      rw [r.session_afterRoll, r.session_afterRoll, h]
    refine coupled_roll_always rfl hdice (fun h e => ?_) (fun h p _ => ?_) hroll
    · rw [r.session_addStep, r.session_addStep, h]
    · rw [r.session_addProblem, r.session_addProblem, h]
  stop_tooDeep h := h
  stop_fault h _ _ _ _ := h
  rel_of_tooDeep h := h

variable {r limits}

/-- The evaluations of a text in both spellings are the same in the other spelling, if that has no
other spelling itself. -/
theorem Respelling.keptBy_respelled (hletter : ∀ c, r.letter (r.letter c) = r.letter c)
    (hloud : ∀ loud, r.loud loud = loud) : r.KeptBy (TextCoupling.respelled r limits) := by
  have htext : ∀ t, r.text (r.text t) = r.text t := by
    intro t
    rw [text, text, List.map_map]
    exact List.map_congr_left fun c _ => hletter c
  refine ⟨fun e source => ?_, fun e source => ?_, fun p _ => ?_, fun loud count faces hc hf => ?_⟩
  · show r.step _ = r.step _
    rw [step, step, htext]
  · show r.step _ = r.step _
    rw [step, step, htext]
    cases e <;> simp only [Respelling.event, htext]
  · show r.problem p = r.problem (r.problem p)
    cases p <;> simp only [Respelling.problem, htext]
  · rw [hloud]
    exact (TextCoupling.respelled r limits).rel_roll trivial hc hf

/-- Two texts with the same other spelling are evaluated alike. -/
theorem Respelling.couples_of_text_eq [Stack] (h : r.KeptBy (TextCoupling.respelled r limits))
    {t t' : Text} (htext : r.text t = r.text t') :
    (TextCoupling.respelled r limits).CouplesFinite (evaluateNormalized t)
      (evaluateNormalized t') := by
  intro s s' hss
  have hrun := Respelling.couples_evaluateNormalized h t s s' hss
  have hrun' := Respelling.couples_evaluateNormalized h t' s' s' rfl
  rw [← htext] at hrun'
  change Agree _ _ ((evaluateNormalized t').runOn limits s')
    ((evaluateNormalized (r.text t)).runOn limits s') at hrun'
  change Agree _ _ ((evaluateNormalized t).runOn limits s)
    ((evaluateNormalized (r.text t)).runOn limits s') at hrun
  change Agree _ _ ((evaluateNormalized t).runOn limits s)
    ((evaluateNormalized t').runOn limits s')
  rcases hrun.cases with ⟨a, b, u, v, h₁, h₂, rfl, ha, huv⟩ | ⟨halt, u, v, h₁, h₂, huv⟩
  · rw [h₂] at hrun'
    rcases hrun'.cases with ⟨a', b', u', v', h₁', h₂', rfl, -, huv'⟩ | ⟨_, _, _, _, h₂', -⟩
    · cases h₂'
      rw [h₁, h₁']
      exact ⟨rfl, ha, huv.trans huv'.symm⟩
    · cases h₂'
  · rw [h₂] at hrun'
    rcases hrun'.cases with ⟨_, _, _, _, _, h₂', -⟩ | ⟨halt', u', v', h₁', h₂', huv'⟩
    · cases h₂'
    · cases h₂'
      rw [h₁, h₁']
      exact ⟨rfl, huv.trans huv'.symm⟩

end

/-! ## Expressions -/

/-- Whether a character is a sign of multiplication. -/
def isTimes (c : Char) : Bool := c == '*' || c == '×'

/-- Whether no two signs of multiplication stand next to each other. -/
def Text.timesApart : Text → Bool
  | c :: d :: t => !(isTimes c && isTimes d) && timesApart (d :: t)
  | _ => true

theorem Text.timesApart_plain (t : Text) : timesApart (t.map plainLetter) = timesApart t := by
  have htimes : ∀ c, isTimes (plainLetter c) = isTimes c := apply_plainLetter (by decide)
  induction t with
  | nil => rfl
  | cons c t ih =>
    cases t with
    | nil => rfl
    | cons d t =>
      rw [List.map_cons] at ih
      rw [List.map_cons, List.map_cons, timesApart, timesApart, htimes, htimes, ih]

/-- Where no two signs of multiplication stand next to each other, none stands for a power. -/
theorem caretForDoubleStar_eq_self {t : Text} (h : t.timesApart = true) :
    caretForDoubleStar t = t := by
  induction t using caretForDoubleStar.induct with
  | case1 rest ih => exact absurd h (by simp [Text.timesApart, isTimes])
  | case2 c rest hne ih =>
    rw [caretForDoubleStar.eq_2 _ _ hne, ih]
    cases rest with
    | nil => rfl
    | cons d rest => exact (Bool.and_eq_true_iff.1 h).2
  | case3 => rfl

/-- Two reports that say the same, but for the spelling of the expression. -/
structure Report.SpelledAlike (q q' : Report) : Prop where
  /-- The problems are the same. -/
  problems : q.problems.map Respelling.plain.problem = q'.problems.map Respelling.plain.problem
  /-- Both say that there is a problem, or none does. -/
  failed : q.failed = q'.failed
  /-- Both ask for the trace, or none does. -/
  verbose : q.verbose = q'.verbose
  /-- The steps are the same. -/
  steps : q.steps.map Respelling.plain.step = q'.steps.map Respelling.plain.step
  /-- As many steps are left out. -/
  dropped : q.dropped = q'.dropped
  /-- The summaries are the same. -/
  rolls : q.rolls = q'.rolls
  /-- As many dice operators were to be listed. -/
  listings : q.listings = q'.listings
  /-- The dice are the same. -/
  thrown : q.thrown = q'.thrown

/-- Two sessions with the same dice left, whose reports say the same but for the spelling of the
expression. -/
structure Session.SpelledAlike (s t : Session) : Prop where
  /-- The dice that are left are the same. -/
  dice : s.dice = t.dice
  /-- The reports say the same. -/
  report : s.report.SpelledAlike t.report
  /-- There are as many problems. -/
  problems : s.report.problems.length = t.report.problems.length
  /-- There are as many steps. -/
  steps : s.report.steps.length = t.report.steps.length

theorem Session.spelledAlike_of_eq {s t : Session}
    (h : Respelling.plain.session s = Respelling.plain.session t) : s.SpelledAlike t := by
  simp only [Respelling.session, Respelling.report, Session.mk.injEq, Report.mk.injEq] at h
  obtain ⟨⟨hfailed, hverbose, hproblems, hsteps, hdropped, hrolls, hlistings, hthrown⟩, hdice⟩ := h
  exact {
    dice := hdice
    report := ⟨hproblems, hfailed, hverbose, hsteps, hdropped, hrolls, hlistings, hthrown⟩
    problems := by simpa using congrArg List.length hproblems
    steps := by simpa using congrArg List.length hsteps }

section

open Evaluation

variable [MathLibrary] [Stack] {e e' : Text}

/-- Spelling does not matter.  Two expressions that are written in spellings of the same characters
have the same value or stop for the same cause, after the same dice were thrown, and their reports
say the same but for the spelling.  Two signs of multiplication may not stand next to each other,
since only two stars are a sign of a power. -/
theorem Evaluation.evaluateExpression_spelledAlike (h : List.Forall₂ SpelledAlike e e')
    (hapart : e.removeBlanks.timesApart = true) (limits : Limits) (dice : DiceSource) :
    Agree (fun x y s t => x = y ∧ s.SpelledAlike t) (fun _ s t => s.SpelledAlike t)
      ((evaluateExpression e).runOn limits ⟨{}, dice⟩)
      ((evaluateExpression e').runOn limits ⟨{}, dice⟩) := by
  have hremove : ∀ t : Text,
      Text.removeBlanks (t.map plainLetter) = t.removeBlanks.map plainLetter :=
    Text.removeBlanks_map (apply_plainLetter (by decide))
  have hplain : e.map plainLetter = e'.map plainLetter := by
    clear hapart
    induction h with
    | nil => rfl
    | cons hc h ih => rw [List.map_cons, List.map_cons, hc.plainLetter_eq, ih]
  have htext : e.removeBlanks.map plainLetter = e'.removeBlanks.map plainLetter := by
    rw [← hremove, hplain, hremove]
  have hapart' : e'.removeBlanks.timesApart = true := by
    rw [← Text.timesApart_plain, ← htext, Text.timesApart_plain, hapart]
  have hnormalized : (TextCoupling.respelled Respelling.plain limits).CouplesFinite
      (evaluateNormalized (normalize e)) (evaluateNormalized (normalize e')) := by
    rw [normalize, normalize, caretForDoubleStar_eq_self hapart,
      caretForDoubleStar_eq_self hapart']
    exact Respelling.couples_of_text_eq
      (Respelling.keptBy_respelled plainLetter_plainLetter fun _ => rfl) htext
  have hrun := TextCoupling.coupled_evaluateExpression hnormalized ⟨{}, dice⟩ ⟨{}, dice⟩ rfl
  exact hrun.mono (fun _ _ _ _ hpost => ⟨hpost.1, Session.spelledAlike_of_eq hpost.2.2⟩)
    fun _ _ _ hstop => Session.spelledAlike_of_eq hstop.2

end

/-- Names in capitals, and the two signs of multiplication and of division. -/
theorem Evaluation.evaluateExpression_spelledAlike_names :
    List.Forall₂ SpelledAlike ['2', '×', 'M', 'a', 'X', '(', 'P', 'I', ',', '1', '÷', '3', ')']
      ['2', '*', 'm', 'A', 'x', '(', 'p', 'i', ',', '1', '/', '3', ')'] ∧
    Text.timesApart ['2', '×', 'M', 'a', 'X', '(', 'P', 'I', ',', '1', '÷', '3', ')'] = true ∧
    Agree (fun x y s t => x = y ∧ s.SpelledAlike t) (fun _ s t => s.SpelledAlike t)
      ((evaluateExpression ['2', '×', 'M', 'a', 'X', '(', 'P', 'I', ',', '1', '÷', '3', ')']).runOn
        {} ⟨{}, .ofSeed 1⟩)
      ((evaluateExpression ['2', '*', 'm', 'A', 'x', '(', 'p', 'i', ',', '1', '/', '3', ')']).runOn
        {} ⟨{}, .ofSeed 1⟩) :=
  ⟨by decide, by decide, evaluateExpression_spelledAlike (by decide) (by decide) {} (.ofSeed 1)⟩

end Reckoner

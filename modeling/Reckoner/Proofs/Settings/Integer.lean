import Mathlib
import Reckoner.Proofs.Expression.Literal
import Reckoner.Proofs.Settings.Prefix
import Reckoner.Text.Integer

/-!
# Whole numbers as they are written

A whole number is written as runs of decimal digits with one underscore between each two of them,
with a sign before the runs if there is one, and with blanks around it (`WrittenInteger`).  Exactly
these texts are read, and as the numbers they denote, as long as they have no more digits than are
read (`readInteger_eq_ok_iff`).
-/

namespace Reckoner.Text

/-! ## The grammar -/

/-- A whole number as it is written. -/
structure WrittenInteger where
  /-- The blanks before the number. -/
  left : Text
  /-- The sign, if one is written. -/
  sign : Option Char
  /-- The runs of digits. -/
  runs : List Text
  /-- The blanks behind the number. -/
  right : Text

namespace WrittenInteger

/-- The runs with an underscore between each two of them. -/
def body (w : WrittenInteger) : Text := ['_'].intercalate w.runs

/-- The text of a whole number. -/
def text (w : WrittenInteger) : Text := w.left ++ (w.sign.toList ++ (w.body ++ w.right))

/-- All digits, the most significant first. -/
def digits (w : WrittenInteger) : Text := w.runs.flatten

/-- The number without its sign. -/
def magnitude (w : WrittenInteger) : Nat := Nat.ofDigits 10 (w.digits.reverse.map digitValue)

/-- The number that is written. -/
def value (w : WrittenInteger) : Int := if w.sign = some '-' then -w.magnitude else w.magnitude

/-- A whole number that can be written: there are digits, and each run has some. -/
structure WellFormed (w : WrittenInteger) : Prop where
  /-- Nothing but blanks stands before the number. -/
  left : ∀ c ∈ w.left, isIntegerBlank c = true
  /-- The sign is one of the two. -/
  sign : ∀ c ∈ w.sign, c = '+' ∨ c = '-'
  /-- There is a run. -/
  runs_ne_nil : w.runs ≠ []
  /-- No run is empty. -/
  run_ne_nil : ∀ run ∈ w.runs, run ≠ []
  /-- All digits are decimal digits. -/
  isDecimal : ∀ run ∈ w.runs, ∀ c ∈ run, isDecimal c = true
  /-- Nothing but blanks stands behind the number. -/
  right : ∀ c ∈ w.right, isIntegerBlank c = true

end WrittenInteger

/-- The text is a whole number and denotes it. -/
def Denotes (t : Text) (n : Int) : Prop :=
  ∃ w : WrittenInteger, w.WellFormed ∧ w.text = t ∧ w.value = n

/-! ## Characters of a number -/

/-- The characters that a number is written with between its sign and the blanks. -/
def isIntegerPart (c : Char) : Bool := isDecimal c || c == '_'

theorem not_isBlank_of_isIntegerPart {c : Char} (h : isIntegerPart c = true) :
    isBlank c = false := by
  rcases Bool.or_eq_true_iff.1 h with hdecimal | hunderscore
  · exact not_isBlank_of_isDecimal hdecimal
  · rw [eq_of_beq hunderscore]
    decide

theorem not_isIntegerBlank {c : Char} (h : isBlank c = false) : isIntegerBlank c = false := by
  rw [isIntegerBlank, h, Bool.false_and]

theorem not_isIntegerPart_of_isIntegerBlank {c : Char} (h : isIntegerBlank c = true) :
    isIntegerPart c = false := by
  by_contra hpart
  rw [not_isIntegerBlank (not_isBlank_of_isIntegerPart (Bool.eq_true_of_not_eq_false hpart))] at h
  contradiction

theorem isDecimal_underscore : isDecimal '_' = false := by decide

/-! ## Runs of digits -/

/-- Reading the digits of a run adds them up by their places. -/
theorem digitsValue_eq_ofDigits (t : Text) :
    digitsValue t = Nat.ofDigits 10 (t.reverse.map digitValue) := by
  induction t using List.reverseRecOn with
  | nil => rfl
  | append_singleton t c ih =>
    rw [digitsValue, List.foldl_append, List.foldl_cons, List.foldl_nil, ← digitsValue, ih,
      List.reverse_append, List.reverse_singleton, List.singleton_append, List.map_cons,
      Nat.ofDigits_cons, Nat.add_comm]

/-- The underscores separate digits just when no piece between them is empty. -/
theorem underscoresSeparate_eq (piece t : Text) :
    underscoresSeparate (!piece.isEmpty) t =
      (cutAt '_' piece t).all fun run => !run.isEmpty := by
  induction t generalizing piece with
  | nil => simp [underscoresSeparate, cutAt]
  | cons c t ih =>
    by_cases hc : c = '_'
    · subst hc
      have hrest := ih []
      rw [cutAt, if_pos rfl, List.all_cons, ← hrest, List.isEmpty_reverse]
      rfl
    · have hrest := ih (c :: piece)
      rw [cutAt, if_neg hc, ← hrest, underscoresSeparate]
      · rfl
      · exact hc

theorem underscoresSeparate_iff {t : Text} :
    underscoresSeparate false t = true ↔ ∀ run ∈ t.splitOn '_', run ≠ [] := by
  have h := underscoresSeparate_eq [] t
  rw [cutAt_nil] at h
  rw [show false = !(([] : Text).isEmpty) by rfl, h, List.all_eq_true]
  simp

/-- Leaving out the underscores leaves the runs. -/
theorem filter_intercalate {runs : List Text}
    (h : ∀ run ∈ runs, ∀ c ∈ run, isDecimal c = true) :
    (['_'].intercalate runs).filter isDecimal = runs.flatten := by
  induction runs with
  | nil => rfl
  | cons run runs ih =>
    obtain ⟨hrun, hruns⟩ := List.forall_mem_cons.1 h
    have hkept : run.filter isDecimal = run := List.filter_eq_self.2 hrun
    by_cases hnil : runs = []
    · subst hnil
      rw [List.intercalate_singleton, hkept, List.flatten_singleton]
    · rw [List.intercalate_cons_of_ne_nil hnil, List.filter_append, List.filter_append, ih hruns,
        hkept, List.flatten_cons, List.filter_cons_of_neg (by simp [isDecimal_underscore]),
        List.filter_nil, List.append_nil]

theorem isIntegerPart_of_mem_intercalate {runs : List Text}
    (h : ∀ run ∈ runs, ∀ c ∈ run, isDecimal c = true) :
    ∀ c ∈ ['_'].intercalate runs, isIntegerPart c = true := by
  induction runs with
  | nil => exact fun c hc => absurd hc List.not_mem_nil
  | cons run runs ih =>
    obtain ⟨hrun, hruns⟩ := List.forall_mem_cons.1 h
    have hpart : ∀ c ∈ run, isIntegerPart c = true := by
      intro c hc
      rw [isIntegerPart, hrun c hc, Bool.true_or]
    by_cases hnil : runs = []
    · subst hnil
      rwa [List.intercalate_singleton]
    · rw [List.intercalate_cons_of_ne_nil hnil, List.forall_mem_append, List.forall_mem_append]
      refine ⟨⟨hpart, ?_⟩, ih hruns⟩
      intro c hc
      obtain rfl := List.mem_singleton.1 hc
      rfl

theorem mem_intercalate_of_mem {runs : List Text} {run : Text} (hrun : run ∈ runs) {c : Char}
    (hc : c ∈ run) : c ∈ ['_'].intercalate runs := by
  induction runs with
  | nil => exact absurd hrun List.not_mem_nil
  | cons first runs ih =>
    by_cases hnil : runs = []
    · subst hnil
      rwa [List.intercalate_singleton, ← List.mem_singleton.1 hrun]
    · rw [List.intercalate_cons_of_ne_nil hnil]
      rcases List.mem_cons.1 hrun with rfl | hrest
      · simp [hc]
      · exact List.mem_append_right _ (ih hrest)

/-! ## Reading what is written -/

/-- The sign that is split off, and what it says. -/
theorem takeSign_spec (t : Text) :
    ∃ sign : Option Char, (∀ c ∈ sign, c = '+' ∨ c = '-') ∧
      t = sign.toList ++ (takeSign t).2 ∧ ((takeSign t).1 = true ↔ sign = some '-') := by
  unfold takeSign
  split
  · exact ⟨some '-', by simp, rfl, by simp⟩
  · exact ⟨some '+', by simp, rfl, by simp⟩
  · exact ⟨none, by simp, rfl, by simp⟩

namespace WrittenInteger

variable {w : WrittenInteger} (h : w.WellFormed)
include h

/-- The digits begin with a digit. -/
theorem exists_body : ∃ c rest, w.body = c :: rest ∧ Text.isDecimal c = true := by
  obtain ⟨run, runs, hruns⟩ := List.exists_cons_of_ne_nil h.runs_ne_nil
  have hmem : run ∈ w.runs := by
    rw [hruns]
    exact List.mem_cons_self
  obtain ⟨c, rest, rfl⟩ := List.exists_cons_of_ne_nil (h.run_ne_nil run hmem)
  have hc := h.isDecimal _ hmem c List.mem_cons_self
  by_cases hnil : runs = []
  · exact ⟨c, rest, by rw [body, hruns, hnil, List.intercalate_singleton], hc⟩
  · refine ⟨c, rest ++ ['_'] ++ ['_'].intercalate runs, ?_, hc⟩
    rw [body, hruns, List.intercalate_cons_of_ne_nil hnil]
    rfl

theorem takeSign_append :
    takeSign (w.sign.toList ++ (w.body ++ w.right)) =
      (decide (w.sign = some '-'), w.body ++ w.right) := by
  obtain ⟨c, rest, hbody, hc⟩ := exists_body h
  cases hsign : w.sign with
  | none =>
    have hplus : c ≠ '+' := by
      rintro rfl
      exact absurd hc (by decide)
    have hminus : c ≠ '-' := by
      rintro rfl
      exact absurd hc (by decide)
    rw [hbody]
    simp [takeSign, hplus, hminus]
  | some s => rcases h.sign s hsign with rfl | rfl <;> rfl

/-- The blanks before a number end where its sign or its first digit stands. -/
theorem dropWhile_text :
    w.text.dropWhile isIntegerBlank = w.sign.toList ++ (w.body ++ w.right) := by
  have hhead : ∀ c ∈ (w.sign.toList ++ (w.body ++ w.right)).head?, isIntegerBlank c = false := by
    obtain ⟨d, rest, hbody, hd⟩ := exists_body h
    intro c hc
    cases hsign : w.sign with
    | none =>
      obtain rfl : d = c := by simpa [hsign, hbody] using hc
      exact not_isIntegerBlank (not_isBlank_of_isDecimal hd)
    | some s =>
      obtain rfl : s = c := by simpa [hsign] using hc
      rcases h.sign s hsign with rfl | rfl <;> decide
  exact (takeWhile_append_of_head h.left hhead).2

/-- The digits and underscores of a number end where the blanks behind it begin. -/
theorem takeWhile_body :
    (w.body ++ w.right).takeWhile isIntegerPart = w.body ∧
      (w.body ++ w.right).dropWhile isIntegerPart = w.right := by
  refine takeWhile_append_of_head (isIntegerPart_of_mem_intercalate h.isDecimal) ?_
  intro c hc
  exact not_isIntegerPart_of_isIntegerBlank (h.right c (List.mem_of_mem_head? hc))

theorem underscoresSeparate_body : underscoresSeparate false w.body = true := by
  have hsplit : w.body.splitOn '_' = w.runs := by
    refine List.splitOn_intercalate '_' ?_ h.runs_ne_nil
    intro run hrun hmem
    have hunderscore := h.isDecimal run hrun '_' hmem
    rw [isDecimal_underscore] at hunderscore
    contradiction
  rw [underscoresSeparate_iff, hsplit]
  exact h.run_ne_nil

/-- A whole number is read as it is written, unless it has too many digits. -/
theorem readInteger_text :
    readInteger w.text =
      if maxIntegerDigits < w.digits.length then .error (.tooLong w.digits.length)
      else .ok w.value := by
  have hright : w.right.all isIntegerBlank = true := List.all_eq_true.2 h.right
  obtain ⟨htake, hdrop⟩ := takeWhile_body h
  have hdigits : w.body.filter Text.isDecimal = w.digits := filter_intercalate h.isDecimal
  have hpart : (fun c => Text.isDecimal c || c == '_') = isIntegerPart := rfl
  simp only [readInteger, dropWhile_text h, takeSign_append h, hpart, htake, hdrop,
    underscoresSeparate_body h, hdigits, hright, Bool.not_true, Bool.false_eq_true, if_false,
    digitsValue_eq_ofDigits, decide_eq_true_eq]
  rfl

theorem countP_text : w.text.countP Text.isDecimal = w.digits.length := by
  have hblank : ∀ {t : Text}, (∀ c ∈ t, isIntegerBlank c = true) →
      t.countP Text.isDecimal = 0 := by
    intro t ht
    rw [List.countP_eq_zero]
    intro c hc hdecimal
    have hnot := not_isIntegerBlank (not_isBlank_of_isDecimal hdecimal)
    rw [ht c hc] at hnot
    contradiction
  have hsign : w.sign.toList.countP Text.isDecimal = 0 := by
    rw [List.countP_eq_zero]
    intro c hc
    rcases h.sign c (Option.mem_toList.1 hc) with rfl | rfl <;> decide
  rw [text, List.countP_append, List.countP_append, List.countP_append, hblank h.left, hsign,
    hblank h.right, zero_add, zero_add, add_zero, List.countP_eq_length_filter, body,
    filter_intercalate h.isDecimal, digits]

end WrittenInteger

/-- What is read as a whole number is written as one. -/
theorem exists_of_readInteger {t : Text} {n : Int} (h : readInteger t = .ok n) :
    ∃ w : WrittenInteger, w.WellFormed ∧ w.text = t := by
  obtain ⟨sign, hsign, hbody, -⟩ := takeSign_spec (t.dropWhile isIntegerBlank)
  set body := (takeSign (t.dropWhile isIntegerBlank)).2 with hbody_eq
  simp only [readInteger, ← hbody_eq] at h
  split at h
  · cases h
  rename_i hseparate
  split at h
  · cases h
  split at h
  · cases h
  rename_i hrest
  have hpart : (fun c => isDecimal c || c == '_') = isIntegerPart := rfl
  rw [hpart] at hseparate hrest
  have hruns := underscoresSeparate_iff.1 (by simpa using hseparate)
  have hjoin : ['_'].intercalate ((body.takeWhile isIntegerPart).splitOn '_') =
      body.takeWhile isIntegerPart := List.intercalate_splitOn '_'
  refine ⟨⟨t.takeWhile isIntegerBlank, sign, (body.takeWhile isIntegerPart).splitOn '_',
    body.dropWhile isIntegerPart⟩, ⟨all_takeWhile, hsign, List.splitOn_ne_nil _ _, hruns, ?_, ?_⟩,
    ?_⟩
  · intro run hrun c hc
    have hunderscore : c ≠ '_' := by
      rintro rfl
      rw [← cutAt_nil] at hrun
      exact not_mem_of_mem_cutAt List.not_mem_nil hrun hc
    have hmem : c ∈ body.takeWhile isIntegerPart := by
      rw [← hjoin]
      exact mem_intercalate_of_mem hrun hc
    have hkind := all_takeWhile c hmem
    simpa [isIntegerPart, hunderscore] using hkind
  · simpa using hrest
  · rw [WrittenInteger.text, WrittenInteger.body, hjoin, List.takeWhile_append_dropWhile, ← hbody,
      List.takeWhile_append_dropWhile]

/-- Exactly the whole numbers that do not have too many digits are read, as the numbers that they
denote. -/
theorem readInteger_eq_ok_iff {t : Text} {n : Int} :
    readInteger t = .ok n ↔ t.Denotes n ∧ t.countP isDecimal ≤ maxIntegerDigits := by
  constructor
  · intro h
    obtain ⟨w, hw, rfl⟩ := exists_of_readInteger h
    rw [WrittenInteger.readInteger_text hw] at h
    split_ifs at h with hlong
    refine ⟨⟨w, hw, rfl, Except.ok.inj h⟩, ?_⟩
    rw [WrittenInteger.countP_text hw]
    exact not_lt.1 hlong
  · rintro ⟨⟨w, hw, rfl, rfl⟩, hlength⟩
    rw [WrittenInteger.countP_text hw] at hlength
    rw [WrittenInteger.readInteger_text hw, if_neg (not_lt.2 hlength)]

end Reckoner.Text

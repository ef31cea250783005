import Mathlib
import Reckoner.Expression.Numeral
import Reckoner.Proofs.Expression.Numeral
import Reckoner.Text.Blank
import Reckoner.Proofs.Number.Sign

/-!
# Literals of doubles

Every finite double is written as a literal that reads back as the double, but for the sign of
zero (`Literal.exists_ofFloat`).  The shortest decimal of a double rounds to the double
(`Number.toFloat_shortest`), and each of the layouts of a decimal is the text of a numeral with the
same number (`Number.Decimal.exists_numeral`).
-/

namespace Reckoner

/-! ## Runs of ordinary digits -/

namespace Text

theorem digitValue_of_isDigit {c : Char} (h : c.isDigit = true) :
    digitValue c = c.toNat - '0'.toNat := by
  simp only [Char.isDigit, Bool.and_eq_true, decide_eq_true_eq] at h
  have h1 : 48 ≤ c.toNat := h.1
  have h2 : c.toNat < 58 := Nat.lt_succ_of_le h.2
  have hfirst : (0x30 ≤ c.toNat && c.toNat < 0x30 + 10) = true := by simp [h1, h2]
  simp only [digitValue, decimalValue?, decimalZeros, List.find?_cons, hfirst]
  rfl

theorem digitsValue_eq_ofDigitChars {t : Text} (h : ∀ c ∈ t, c.isDigit = true) :
    digitsValue t = Nat.ofDigitChars 10 t 0 := by
  rw [digitsValue, Nat.ofDigitChars_eq_foldl]
  refine List.foldl_ext _ _ _ ?_
  intro n c hc
  rw [digitValue_of_isDigit (h c hc)]

theorem isDigit_of_mem_ofNat {n : Nat} {c : Char} (h : c ∈ ofNat n) : c.isDigit = true :=
  Nat.isDigit_of_mem_toDigits (by decide) (by decide) h

theorem ofNat_ne_nil (n : Nat) : ofNat n ≠ [] := Nat.toDigits_ne_nil

/-- The digits of a number read back as the number. -/
theorem digitsValue_ofNat (n : Nat) : digitsValue (ofNat n) = n := by
  rw [digitsValue_eq_ofDigitChars fun c hc => isDigit_of_mem_ofNat hc]
  exact Nat.ofDigitChars_ten_toDigits

theorem isDigit_of_mem_zeros {n : Nat} {c : Char} (h : c ∈ List.replicate n '0') :
    c.isDigit = true := by
  rw [List.eq_of_mem_replicate h]
  rfl

/-- The digits in front count by as many powers of ten as there are digits behind them. -/
theorem digitsValue_append (t u : Text) :
    digitsValue (t ++ u) = digitsValue t * 10 ^ u.length + digitsValue u := by
  induction u using List.reverseRecOn with
  | nil => simp [digitsValue]
  | append_singleton u c ih =>
    have hlast (v : Text) : digitsValue (v ++ [c]) = 10 * digitsValue v + digitValue c := by
      simp [digitsValue]
    rw [← List.append_assoc, hlast, hlast, ih, List.length_append, List.length_singleton, pow_succ]
    ring

theorem digitsValue_zeros (k : Nat) : digitsValue (List.replicate k '0') = 0 := by
  induction k with
  | zero => rfl
  | succ k ih =>
    have hzero : digitsValue ['0'] = 0 := by decide
    rw [List.replicate_succ', digitsValue_append, ih, hzero, Nat.zero_mul]

/-- Zeros behind a number multiply it by powers of ten. -/
theorem digitsValue_append_zeros (t : Text) (k : Nat) :
    digitsValue (t ++ List.replicate k '0') = digitsValue t * 10 ^ k := by
  rw [digitsValue_append, digitsValue_zeros, List.length_replicate, Nat.add_zero]

/-- Zeros in front of a number change nothing. -/
theorem digitsValue_zeros_ofNat (k n : Nat) :
    digitsValue (List.replicate k '0' ++ ofNat n) = n := by
  rw [digitsValue_append, digitsValue_zeros, digitsValue_ofNat, Nat.zero_mul, Nat.zero_add]

/-- A decimal digit is not blank. -/
theorem not_isBlank_of_isDecimal {c : Char} (h : isDecimal c = true) : isBlank c = false := by
  have hall : decimalZeros.all (fun first => blankRanges.all fun r =>
      r.2 < first || first + 10 ≤ r.1) = true := by
    decide
  simp only [isDecimal, decimalValue?, Option.isSome_map, List.find?_isSome] at h
  obtain ⟨first, hfirst, hc⟩ := h
  rw [isBlank, inRanges, List.any_eq_false]
  intro r hr
  have := List.all_eq_true.1 (List.all_eq_true.1 hall first hfirst) r hr
  simp only [Bool.or_eq_true, Bool.and_eq_true, decide_eq_true_eq] at this hc ⊢
  omega

theorem toUpper_of_isDigit {c : Char} (h : c.isDigit = true) : c.toUpper = c := by
  simp only [Char.isDigit, Bool.and_eq_true, decide_eq_true_eq] at h
  rw [Char.toUpper, dif_neg]
  intro hlower
  exact absurd (UInt32.le_trans hlower.1 h.2) (by decide)

theorem map_toUpper_of_isDigit {t : Text} (h : ∀ c ∈ t, c.isDigit = true) :
    t.map Char.toUpper = t :=
  (List.map_congr_left fun c hc => toUpper_of_isDigit (h c hc)).trans (List.map_id t)

end Text

/-! ## The layouts of a decimal -/

namespace Number

open Float.Model (UnpackedFloat)

theorem isDigit_of_mem_paddedDigits {width n : Nat} {c : Char} (h : c ∈ paddedDigits width n) :
    c.isDigit = true := by
  rcases List.mem_append.1 h with h | h
  · exact Text.isDigit_of_mem_zeros h
  · exact Text.isDigit_of_mem_ofNat h

namespace Decimal

/-- Zeros behind the digits count like powers of ten. -/
theorem toRat_mul_pow (n k : Nat) (e : Int) :
    (⟨n * 10 ^ k, e⟩ : Decimal).toRat = (⟨n, e + k⟩ : Decimal).toRat := by
  simp only [toRat]
  rw [zpow_add₀ (by norm_num), zpow_natCast]
  push_cast
  ring

/-- A text that a decimal is written as: the text of a numeral with the same number. -/
def IsText (d : Decimal) (t : Text) : Prop :=
  ∃ n : Numeral, n.WellFormed ∧ n.text = t.map Char.toUpper ∧ n.decimal.toRat = d.toRat

section

variable (d : Decimal)

theorem isDecimal_digits : ∀ c ∈ Text.ofNat d.digits, Text.isDecimal c = true :=
  fun _ hc => Text.isDecimal_of_isDigit (Text.isDigit_of_mem_ofNat hc)

theorem isDecimal_zeros (k : Nat) : ∀ c ∈ List.replicate k '0', Text.isDecimal c = true :=
  fun _ hc => Text.isDecimal_of_isDigit (Text.isDigit_of_mem_zeros hc)

theorem map_toUpper_digits : (Text.ofNat d.digits).map Char.toUpper = Text.ofNat d.digits :=
  Text.map_toUpper_of_isDigit fun _ hc => Text.isDigit_of_mem_ofNat hc

/-- All digits, zeros up to the point, and one zero behind it. -/
theorem isText_whole (h : 0 ≤ d.exponent) :
    d.IsText (Text.ofNat d.digits ++ List.replicate d.exponent.toNat '0' ++ ['.', '0']) := by
  refine ⟨⟨Text.ofNat d.digits ++ List.replicate d.exponent.toNat '0', true, ['0'], none⟩,
    ⟨?_, isDecimal_zeros 1, .inr (by simp), by simp, by simp⟩, ?_, ?_⟩
  · intro c hc
    exact (List.mem_append.1 hc).elim (d.isDecimal_digits c) (isDecimal_zeros _ c)
  · simp [Numeral.text, map_toUpper_digits]
  · have hvalue := Text.digitsValue_append_zeros (Text.ofNat d.digits) (d.exponent.toNat + 1)
    rw [List.replicate_add, ← List.append_assoc, Text.digitsValue_ofNat] at hvalue
    simp only [Numeral.decimal, Option.map_none, Option.getD_none]
    rw [show ['0'] = List.replicate 1 '0' by rfl, hvalue, toRat_mul_pow]
    congr 2
    simp
    omega

/-- A point between the digits. -/
theorem isText_split {p : Nat} (h : d.exponent < 0) (hp : d.pointPosition = p) :
    d.IsText ((Text.ofNat d.digits).take p ++ '.' :: (Text.ofNat d.digits).drop p) := by
  simp only [pointPosition] at hp
  refine ⟨⟨(Text.ofNat d.digits).take p, true, (Text.ofNat d.digits).drop p, none⟩,
    ⟨fun c hc => d.isDecimal_digits c (List.mem_of_mem_take hc),
      fun c hc => d.isDecimal_digits c (List.mem_of_mem_drop hc), ?_, by simp, by simp⟩, ?_, ?_⟩
  · refine .inr ?_
    intro hnil
    have := List.drop_eq_nil_iff.1 hnil
    omega
  · simp [Numeral.text, List.map_take, List.map_drop, map_toUpper_digits]
  · simp only [Numeral.decimal, List.take_append_drop, Text.digitsValue_ofNat]
    congr 2
    simp
    omega

/-- Zeros between the point and all digits. -/
theorem isText_fraction (hpoint : d.pointPosition ≤ 0) :
    d.IsText
      ('0' :: '.' :: List.replicate (-d.pointPosition).toNat '0' ++ Text.ofNat d.digits) := by
  refine ⟨⟨['0'], true, List.replicate (-d.pointPosition).toNat '0' ++ Text.ofNat d.digits, none⟩,
    ⟨isDecimal_zeros 1, ?_, .inl (by simp), by simp, by simp⟩, ?_, ?_⟩
  · intro c hc
    exact (List.mem_append.1 hc).elim (isDecimal_zeros _ c) (d.isDecimal_digits c)
  · simp [Numeral.text, map_toUpper_digits]
  · have hvalue := Text.digitsValue_zeros_ofNat ((-d.pointPosition).toNat + 1) d.digits
    rw [List.replicate_succ, List.cons_append] at hvalue
    simp only [Numeral.decimal, List.cons_append, List.nil_append, hvalue]
    congr 2
    simp only [pointPosition] at hpoint ⊢
    simp
    omega

theorem isText_positional : d.IsText d.positional := by
  unfold positional
  simp only
  split_ifs with hwhole hpoint
  · exact d.isText_whole hwhole
  · exact d.isText_split (not_le.1 hwhole) (Int.toNat_of_nonneg hpoint.le).symm
  · exact d.isText_fraction (not_lt.1 hpoint)

/-- The sign and the digits of a power of ten. -/
theorem wellFormed_exponent (e : Int) :
    ∃ w : WrittenExponent, w.WellFormed ∧ w.text = (exponentText e).map Char.toUpper ∧
      w.value = e := by
  have hdigits : ∀ c ∈ paddedDigits 2 e.natAbs, c.isDigit = true :=
    fun c hc => isDigit_of_mem_paddedDigits hc
  have hne : paddedDigits 2 e.natAbs ≠ [] := by simp [paddedDigits, Text.ofNat_ne_nil]
  have hvalue : Text.digitsValue (paddedDigits 2 e.natAbs) = e.natAbs :=
    Text.digitsValue_zeros_ofNat _ _
  refine ⟨⟨some (if e < 0 then '-' else '+'), paddedDigits 2 e.natAbs⟩,
    ⟨?_, hne, fun c hc => Text.isDecimal_of_isDigit (hdigits c hc)⟩, ?_, ?_⟩
  · split_ifs <;> simp
  · simp only [WrittenExponent.text, exponentText, List.map_cons,
      Text.map_toUpper_of_isDigit hdigits]
    split_ifs <;> rfl
  · simp only [WrittenExponent.value, hvalue]
    by_cases hsign : e < 0
    · rw [if_pos hsign, if_pos rfl]
      omega
    · rw [if_neg hsign, if_neg (by decide)]
      omega

/-- One digit before the point, the rest behind it, and a power of ten. -/
theorem isText_scientific : d.IsText d.scientific := by
  obtain ⟨w, hw, htext, hvalue⟩ := wellFormed_exponent (d.pointPosition - 1)
  obtain ⟨digit, rest, hdigits⟩ := List.exists_cons_of_ne_nil (Text.ofNat_ne_nil d.digits)
  have hdecimal := d.isDecimal_digits
  have hupper := d.map_toUpper_digits
  have hnumber := Text.digitsValue_ofNat d.digits
  have hposition : d.pointPosition - 1 - rest.length = d.exponent := by
    simp [pointPosition, hdigits]
    omega
  rw [hdigits] at hdecimal hupper hnumber
  obtain ⟨hfirst, hrest⟩ := List.cons.inj hupper
  refine ⟨⟨[digit], !rest.isEmpty, rest, some w⟩, ⟨?_, ?_, .inl (by simp), ?_, ?_⟩, ?_, ?_⟩
  · intro c hc
    exact hdecimal c (by simp_all)
  · intro c hc
    exact hdecimal c (List.mem_cons_of_mem _ hc)
  · simp
  · intro e he
    rwa [← Option.some.inj he]
  · cases rest with
    | nil => simp [scientific, hdigits, Numeral.text, htext, hfirst]
    | cons c rest =>
      obtain ⟨hc, hrest⟩ := List.cons.inj hrest
      simp [scientific, hdigits, Numeral.text, htext, hfirst, hc, hrest]
  · simp only [Numeral.decimal, List.cons_append, List.nil_append, hnumber, Option.map_some,
      Option.getD_some, hvalue, hposition]

theorem isText_text : d.IsText d.text := by
  unfold text
  split
  · exact d.isText_positional
  · exact d.isText_scientific

end

end Decimal

/-! ## The shortest decimal -/

/-- All the digits of a magnitude are its number. -/
theorem toRat_allDigits (s : Scaled) : s.allDigits.toRat = s.toRat := by
  obtain ⟨m, e⟩ := s
  cases e with
  | ofNat e =>
    simp [Scaled.allDigits, Scaled.toRat, Decimal.toRat]
  | negSucc e =>
    have hten : (10 : Rat) ^ (e + 1) = 2 ^ (e + 1) * 5 ^ (e + 1) := by
      rw [← mul_pow]
      norm_num
    simp only [Scaled.allDigits, Scaled.toRat, Decimal.toRat, Nat.pow_eq, Int.negSucc_eq,
      zpow_neg, ← Nat.cast_succ, zpow_natCast, Nat.succ_eq_add_one, hten]
    push_cast
    field_simp

/-- The shortest decimal of a double rounds to the magnitude of the double. -/
theorem toFloat_shortest {x : Float} (h : x.isFinite = true) : (shortest x).toFloat = x.abs := by
  have hall : (scaled x).allDigits.toFloat = x.abs := by
    rw [Decimal.toFloat_eq, toRat_allDigits]
    exact ofRat_magnitude h
  unfold shortest
  split
  · split_ifs with hd
    · exact hd
    · exact hall
  · exact hall

/-! ## The plain text -/

theorem abs_of_beq_zero {x : Float} (h : x.isFinite = true) (h0 : (x == 0) = true) :
    x.abs = 0 := by
  refine eq_of_unpack_eq ?_
  rcases finite_cases h with ⟨s, hx⟩ | ⟨s, m, e, hm, hx⟩
  · rw [unpack_abs, hx, unpack_zero]
    rfl
  · rw [beq_iff, hx, unpack_zero] at h0
    cases s <;> simp [UnpackedFloat.compare] at h0

theorem not_isNaN_of_isFinite {x : Float} (h : x.isFinite = true) : x.isNaN = false := by
  show x.toModel.unpack.isNaN = false
  rcases finite_cases h with ⟨s, hx⟩ | ⟨s, m, e, hm, hx⟩ <;> rw [hx] <;> rfl

theorem not_isInf_of_isFinite {x : Float} (h : x.isFinite = true) : x.isInf = false := by
  show x.toModel.unpack.isInf = false
  rcases finite_cases h with ⟨s, hx⟩ | ⟨s, m, e, hm, hx⟩ <;> rw [hx] <;> rfl

/-- A magnitude that is a whole number is the number of its digits. -/
theorem exists_numeral_of_isWhole {x : Float} (h : isWhole x = true)
    (hsign : isNegative x = false) :
    ∃ n : Numeral, n.WellFormed ∧ n.text = (Text.ofInt (toRat x).num).map Char.toUpper ∧
      n.value = x.abs := by
  simp only [isWhole, Bool.and_eq_true, beq_iff_eq] at h
  obtain ⟨hfinite, hden⟩ := h
  have hrat : toRat x = magnitude x := by
    rw [toRat, hsign]
    rfl
  obtain ⟨k, hk⟩ : ∃ k : Nat, (toRat x).num = k := by
    refine Int.eq_ofNat_of_zero_le (Rat.num_nonneg.2 ?_)
    rw [hrat]
    exact magnitude_nonneg x
  have hmagnitude : (k : Rat) = magnitude x := by
    rw [← hrat, ← Rat.num_div_den (toRat x), hk, hden]
    simp
  have hdigits : ∀ c ∈ Text.ofNat k, c.isDigit = true := by
    intro c hc
    exact Text.isDigit_of_mem_ofNat hc
  refine ⟨⟨Text.ofNat k, false, [], none⟩,
    ⟨fun c hc => Text.isDecimal_of_isDigit (hdigits c hc), by simp, .inl (Text.ofNat_ne_nil k),
      fun _ => rfl, by simp⟩, ?_, ?_⟩
  · rw [hk]
    simp [Numeral.text, Text.ofInt, Text.map_toUpper_of_isDigit hdigits]
  · rw [← ofRat_magnitude hfinite, ← hmagnitude, Numeral.value, Decimal.toFloat_eq]
    simp [Numeral.decimal, Decimal.toRat, Text.digitsValue_ofNat]

/-- The plain text of a magnitude is a numeral that reads back as the magnitude. -/
theorem exists_numeral {x : Float} (h : x.isFinite = true) (hsign : isNegative x = false) :
    ∃ n : Numeral, n.WellFormed ∧ n.text = (plainText x).map Char.toUpper ∧ n.value = x.abs := by
  unfold plainText
  split
  · rename_i hplain
    exact exists_numeral_of_isWhole (by simp_all [isPlainWhole]) hsign
  · have hfull : fullText x = magnitudeText x := by
      simp only [fullText, not_isNaN_of_isFinite h, not_isInf_of_isFinite h, hsign,
        Bool.false_eq_true, if_false]
    rw [hfull, magnitudeText]
    split
    · rename_i h0
      refine ⟨⟨['0'], true, ['0'], none⟩,
        ⟨Decimal.isDecimal_zeros 1, Decimal.isDecimal_zeros 1, .inl (by simp), by simp, by simp⟩,
        rfl, ?_⟩
      rw [abs_of_beq_zero h h0]
      rfl
    · obtain ⟨n, hn, htext, hvalue⟩ := (shortest x).isText_text
      refine ⟨n, hn, htext, ?_⟩
      rw [← toFloat_shortest h, Numeral.value, Decimal.toFloat_eq, hvalue, Decimal.toFloat_eq]

/-! ## The characters of a double -/

/-- Whether the text of a double may have a character. -/
def isFigure (c : Char) : Bool := c.isDigit || ['.', 'e', '+', '-'].contains c

theorem isFigure_of_isDigit {c : Char} (h : c.isDigit = true) : isFigure c = true := by
  simp [isFigure, h]

theorem isFigure_of_mem_ofNat {n : Nat} {c : Char} (h : c ∈ Text.ofNat n) : isFigure c = true :=
  isFigure_of_isDigit (Text.isDigit_of_mem_ofNat h)

theorem isFigure_of_mem_zeros {n : Nat} {c : Char} (h : c ∈ List.replicate n '0') :
    isFigure c = true :=
  isFigure_of_isDigit (Text.isDigit_of_mem_zeros h)

theorem isFigure_of_mem_positional {d : Decimal} {c : Char} (h : c ∈ d.positional) :
    isFigure c = true := by
  unfold Decimal.positional at h
  simp only at h
  split_ifs at h
  · simp only [List.mem_append, List.mem_cons, List.not_mem_nil, or_false] at h
    rcases h with (h | h) | rfl | rfl
    · exact isFigure_of_mem_ofNat h
    · exact isFigure_of_mem_zeros h
    · rfl
    · rfl
  · rcases List.mem_append.1 h with h | h
    · exact isFigure_of_mem_ofNat (List.mem_of_mem_take h)
    · rcases List.mem_cons.1 h with rfl | h
      · rfl
      · exact isFigure_of_mem_ofNat (List.mem_of_mem_drop h)
  · simp only [List.cons_append, List.mem_cons, List.mem_append] at h
    rcases h with rfl | rfl | h | h
    · rfl
    · rfl
    · exact isFigure_of_mem_zeros h
    · exact isFigure_of_mem_ofNat h

theorem isFigure_of_mem_exponentText {e : Int} {c : Char} (h : c ∈ Decimal.exponentText e) :
    isFigure c = true := by
  simp only [Decimal.exponentText, List.mem_cons] at h
  rcases h with rfl | rfl | h
  · rfl
  · split <;> rfl
  · exact isFigure_of_isDigit (isDigit_of_mem_paddedDigits h)

theorem isFigure_of_mem_scientific {d : Decimal} {c : Char} (h : c ∈ d.scientific) :
    isFigure c = true := by
  have hdigit : ∀ b ∈ Text.ofNat d.digits, isFigure b = true := fun b hb => isFigure_of_mem_ofNat hb
  unfold Decimal.scientific at h
  split at h <;> rename_i hdigits
  · exact isFigure_of_mem_exponentText h
  · rcases List.mem_cons.1 h with rfl | h
    · exact hdigit _ (by simp [hdigits])
    · exact isFigure_of_mem_exponentText h
  · simp only [List.cons_append, List.mem_cons, List.mem_append] at h
    rcases h with rfl | rfl | h | h
    · exact hdigit _ (by simp [hdigits])
    · rfl
    · exact hdigit _ (by simp [hdigits, h])
    · exact isFigure_of_mem_exponentText h

theorem isFigure_of_mem_ofInt {n : Int} {c : Char} (h : c ∈ Text.ofInt n) : isFigure c = true := by
  rcases n with n | n
  · exact isFigure_of_mem_ofNat h
  · rcases List.mem_cons.1 h with rfl | h
    · rfl
    · exact isFigure_of_mem_ofNat h

theorem isFigure_of_mem_magnitudeText {x : Float} {c : Char} (h : c ∈ magnitudeText x) :
    isFigure c = true := by
  unfold magnitudeText Decimal.text at h
  split_ifs at h
  · simp only [List.mem_cons, List.not_mem_nil, or_false] at h
    rcases h with rfl | rfl | rfl <;> rfl
  · exact isFigure_of_mem_positional h
  · exact isFigure_of_mem_scientific h

/-- The plain text of a finite double is written in ordinary digits. -/
theorem isFigure_of_mem_plainText {x : Float} (hx : x.isFinite = true) {c : Char}
    (h : c ∈ plainText x) : isFigure c = true := by
  unfold plainText at h
  split at h
  · exact isFigure_of_mem_ofInt h
  · simp only [fullText, not_isNaN_of_isFinite hx, not_isInf_of_isFinite hx, Bool.false_eq_true,
      if_false] at h
    split at h
    · rcases List.mem_cons.1 h with rfl | h
      · rfl
      · exact isFigure_of_mem_magnitudeText h
    · exact isFigure_of_mem_magnitudeText h

/-- The plain text of any double has figures and the letters of `nan` and `inf`. -/
theorem isFigure_or_mem_of_mem_plainText {x : Float} {c : Char} (h : c ∈ plainText x) :
    isFigure c = true ∨ c ∈ ['n', 'a', 'i', 'f'] := by
  have hletters : ∀ word : Text, word ⊆ ['n', 'a', 'i', 'f'] → c ∈ word →
      isFigure c = true ∨ c ∈ ['n', 'a', 'i', 'f'] := fun _ hword hc => .inr (hword hc)
  have hunsigned : c ∈ (if x.isInf then ['i', 'n', 'f'] else magnitudeText x) →
      isFigure c = true ∨ c ∈ ['n', 'a', 'i', 'f'] := by
    split
    · exact hletters _ (by decide)
    · exact fun hc => .inl (isFigure_of_mem_magnitudeText hc)
  unfold plainText fullText at h
  split at h
  · exact .inl (isFigure_of_mem_ofInt h)
  · split at h
    · exact hletters _ (by decide) h
    · simp only at h
      split at h
      · rcases List.mem_cons.1 h with rfl | h
        · exact .inl rfl
        · exact hunsigned h
      · exact hunsigned h

end Number

/-! ## Literals -/

namespace Literal

/-- A literal that can be written. -/
def WellFormed (l : Literal) : Prop := l.numeral.WellFormed

/-- Whether a literal may be written with a character. -/
def isLetter (c : Char) : Bool :=
  Numeral.isMantissa c || c == 'E' || c == '+' || c == '-' || c == minus

/-- The characters that a literal is written with. -/
theorem isLetter_of_mem {l : Literal} (h : l.WellFormed) : ∀ c ∈ l.text, isLetter c = true := by
  intro c hc
  simp only [text, List.mem_append] at hc
  rcases hc with hc | hc
  · have hminus : c = minus := by
      split at hc <;> simp_all
    simp [isLetter, hminus]
  · rcases Numeral.mem_text h hc with hc | hc | hc | hc <;> simp [isLetter, hc]

theorem not_mem_text {l : Literal} (h : l.WellFormed) {c : Char} (hc : isLetter c = false) :
    c ∉ l.text := by
  intro hmem
  rw [isLetter_of_mem h c hmem] at hc
  exact absurd hc (by decide)

/-- Every finite double is written as a literal that reads back as the double, but for the sign of
zero. -/
theorem exists_ofFloat {x : Float} (h : x.isFinite = true) :
    ∃ l : Literal, l.WellFormed ∧ l.text = ofFloat x ∧ l.numeral.value.isFinite = true ∧
      Number.negateIf l.negative l.numeral.value = Number.unsigned x := by
  have hfinite : x.abs.isFinite = true := by rw [Number.isFinite_abs, h]
  obtain ⟨n, hn, htext, hvalue⟩ := Number.exists_numeral hfinite (Number.isNegative_abs x)
  rw [Number.abs_abs] at hvalue
  refine ⟨⟨x < 0, n⟩, hn, ?_, ?_, ?_⟩
  · rw [text, ofFloat, htext]
    by_cases hlt : x < 0 <;> simp [hlt]
  · rw [hvalue, hfinite]
  · rw [hvalue, Number.negateIf_abs h]

/-- The sign of zero is not written. -/
theorem ofFloat_unsigned {x : Float} (h : x.isFinite = true) :
    ofFloat (Number.unsigned x) = ofFloat x := by
  rcases Number.finite_cases h with ⟨s, hx⟩ | ⟨s, m, e, hm, hx⟩
  · have habs : (0 : Float).abs = x.abs := by
      refine Number.eq_of_unpack_eq ?_
      rw [Number.unpack_abs, Number.unpack_abs, hx, Number.unpack_zero]
      rfl
    have hlt : ¬ x < 0 := by
      rw [Number.lt_zero_iff, hx]
      cases s <;> simp [Float.Model.UnpackedFloat.lt, Float.Model.UnpackedFloat.compare]
    have hlt0 : ¬ (0 : Float) < 0 := by
      rw [Number.lt_zero_iff, Number.unpack_zero]
      simp [Float.Model.UnpackedFloat.lt, Float.Model.UnpackedFloat.compare]
    rw [Number.unsigned_of_zero hx, ofFloat, ofFloat, if_neg hlt, if_neg hlt0, habs]
  · rw [Number.unsigned_of_finite hx]

/-- Equal finite doubles are written the same way. -/
theorem ofFloat_eq_of_beq {x y : Float} (hx : x.isFinite = true) (hy : y.isFinite = true)
    (h : (x == y) = true) : ofFloat x = ofFloat y := by
  rw [← ofFloat_unsigned hx, ← ofFloat_unsigned hy, Number.unsigned_eq_of_beq hx hy h]

/-- The digits of a number that is written as a literal are ordinary ones. -/
theorem isDigit_of_mem_ofFloat {x : Float} (hx : x.isFinite = true) {c : Char}
    (h : c ∈ ofFloat x) (hc : Numeral.isMantissa c = true) : c.isDigit = true ∨ c = '.' := by
  have hfigure : ∀ d, Number.isFigure d = true → Numeral.isMantissa d.toUpper = true →
      d.toUpper.isDigit = true ∨ d.toUpper = '.' := by
    intro d hd hupper
    simp only [Number.isFigure, Bool.or_eq_true, List.contains_iff_mem] at hd
    rcases hd with hd | hd
    · rw [Text.toUpper_of_isDigit hd]
      exact .inl hd
    · fin_cases hd
      · exact .inr rfl
      all_goals exact absurd hupper (by decide)
  have hunsigned : c ∈ (Number.plainText x.abs).map Char.toUpper → c.isDigit = true ∨ c = '.' := by
    intro hmem
    obtain ⟨d, hd, rfl⟩ := List.mem_map.1 hmem
    exact hfigure d (Number.isFigure_of_mem_plainText (by rw [Number.isFinite_abs, hx]) hd) hc
  unfold ofFloat at h
  simp only at h
  split at h
  · rcases List.mem_cons.1 h with rfl | h
    · exact absurd hc (by decide)
    · exact hunsigned h
  · exact hunsigned h

/-- A literal is scanned up to the first character that cannot belong to it. -/
theorem scan?_append {l : Literal} {rest : Text} (h : l.WellFormed)
    (hrest : ∀ c ∈ rest.head?, Text.isDecimal c = false ∧ c ≠ '.' ∧ c ≠ 'E') :
    scan? (l.text ++ rest) = some (l, rest) := by
  obtain ⟨negative, n⟩ := l
  have hscan : Numeral.scan? (n.text ++ rest) = some (n, rest) := Numeral.scan?_append h hrest
  cases negative with
  | true => simp [text, scan?, minus, hscan]
  | false =>
    obtain ⟨c, behind, hn, hc⟩ := Numeral.exists_head h
    have hminus : c ≠ minus := by
      intro heq
      rw [heq] at hc
      exact absurd hc (by decide)
    rw [hn] at hscan
    simp only [List.cons_append] at hscan
    simp [text, scan?, hn, hminus, hscan]

/-- A literal is scanned from its own text. -/
theorem scan?_text {l : Literal} (h : l.WellFormed) : scan? l.text = some (l, []) := by
  have hscan := @scan?_append l [] h (by simp)
  rwa [List.append_nil] at hscan

/-- A literal is read from its own text. -/
theorem read?_text {l : Literal} (h : l.WellFormed) : read? l.text = some l := by
  simp only [read?, scan?_text h]

/-- What is scanned as a literal is one, and its text stood at the beginning.  If it has no power of
ten, none follows it. -/
theorem wellFormed_of_scan? {t rest : Text} {l : Literal} (h : scan? t = some (l, rest)) :
    l.WellFormed ∧ l.text ++ rest = t ∧
      (l.numeral.exponent = none → WrittenExponent.scan? rest = none) := by
  cases t with
  | nil => cases h
  | cons c t =>
    rw [scan?] at h
    split at h
    · rename_i hc
      obtain ⟨⟨n, behind⟩, hscan, heq⟩ := Option.map_eq_some_iff.1 h
      cases heq
      obtain ⟨hn, htext⟩ := Numeral.wellFormed_of_scan? hscan
      exact ⟨hn, by simp [text, htext, hc], Numeral.scanExponent?_eq_none hscan⟩
    · obtain ⟨⟨n, behind⟩, hscan, heq⟩ := Option.map_eq_some_iff.1 h
      cases heq
      obtain ⟨hn, htext⟩ := Numeral.wellFormed_of_scan? hscan
      exact ⟨hn, by simpa [text] using htext, Numeral.scanExponent?_eq_none hscan⟩

/-- A literal that is all of a text is well-formed. -/
theorem wellFormed_of_read? {t : Text} {l : Literal} (h : read? t = some l) :
    l.WellFormed ∧ l.text = t := by
  rw [read?] at h
  split at h
  · rename_i hscan
    obtain rfl := Option.some.inj h
    obtain ⟨hl, htext, -⟩ := wellFormed_of_scan? hscan
    exact ⟨hl, by simpa using htext⟩
  · cases h

/-- The text of a literal without its power of ten. -/
def mantissa (l : Literal) : Text := (if l.negative then [minus] else []) ++ l.numeral.mantissa

theorem text_eq (l : Literal) :
    l.text = l.mantissa ++ (l.numeral.exponent.map WrittenExponent.text).getD [] := by
  rw [text, mantissa, Numeral.text_eq, List.append_assoc]

theorem mem_mantissa {l : Literal} (h : l.WellFormed) {c : Char} (hc : c ∈ l.mantissa) :
    c = minus ∨ Numeral.isMantissa c = true := by
  rcases List.mem_append.1 hc with hc | hc
  · left
    split at hc <;> simp_all
  · exact .inr (Numeral.isMantissa_of_mem h c hc)

/-- A literal ends with a digit or a point, and so does what stands before its power of ten. -/
theorem exists_last_mantissa {l : Literal} (h : l.WellFormed) :
    ∃ start c, l.mantissa = start ++ [c] ∧ Numeral.isMantissa c = true := by
  obtain ⟨start, c, hlast⟩ := (List.eq_nil_or_concat' _).resolve_left (Numeral.mantissa_ne_nil h)
  refine ⟨(if l.negative then [minus] else []) ++ start, c, ?_, ?_⟩
  · rw [mantissa, hlast, List.append_assoc]
  · exact Numeral.isMantissa_of_mem h c (by simp [hlast])

/-- A literal does not begin with a power of ten. -/
theorem head?_append_ne {l : Literal} (h : l.WellFormed) (t : Text) :
    (l.text ++ t).head? ≠ some 'E' := by
  unfold text
  split
  · simp [minus]
  · exact Numeral.head?_append_ne h t

/-- A literal has no unfinished power of ten. -/
theorem hasUnfinishedExponent_append {l : Literal} (h : l.WellFormed) {t : Text}
    (ht : t.head? ≠ some 'E') :
    hasUnfinishedExponent (l.text ++ t) = hasUnfinishedExponent t := by
  have hnumeral := hasUnfinishedExponent_numeral h ht
  unfold text
  split
  · rw [List.append_assoc, List.singleton_append,
      hasUnfinishedExponent_cons (Numeral.head?_append_ne h t), hnumeral]
  · exact hnumeral

theorem hasUnfinishedExponent_text {l : Literal} (h : l.WellFormed) :
    hasUnfinishedExponent l.text = false := by
  have hnil : ([] : Text).head? ≠ some 'E' := by simp
  have htext := hasUnfinishedExponent_append h hnil
  rwa [List.append_nil] at htext

/-- No character of a literal is blank. -/
theorem not_isBlank_of_mem {l : Literal} (h : l.WellFormed) :
    ∀ c ∈ l.text, Text.isBlank c = false := by
  intro c hc
  have hletter := isLetter_of_mem h c hc
  simp only [isLetter, Numeral.isMantissa, Bool.or_eq_true, beq_iff_eq] at hletter
  rcases hletter with ((((hc | rfl) | rfl) | rfl) | rfl) | rfl
  · exact Text.not_isBlank_of_isDecimal hc
  all_goals decide

end Literal

end Reckoner

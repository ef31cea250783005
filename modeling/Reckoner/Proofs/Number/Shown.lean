import Mathlib
import Reckoner.Proofs.Number.Display
import Reckoner.Proofs.Number.Significant

/-!
# Decimal texts and the numbers that they show

A text that is displayed is a decimal number, with a minus before it where it is negative (`Shows`),
and there is one such reading of it only (`Shows.unique`).  Zeros at its end are left out and its
last significant digit is kept, since they stand behind the point (`dropTrailingZeros_eq`).  From
this it follows for each of the layouts which number is shown (`shows_ofInt`,
`exists_shows_fixedPlaces`, `exists_shows_significant`).
-/

namespace Reckoner.Number

/-! ## Decimal texts -/

/-- The text is a numeral with a minus before it where it is negative.  The letter before a power of
ten is a small one, and all digits are ordinary ones. -/
structure Shows (t : Text) (negative : Bool) (n : Numeral) : Prop where
  /-- The numeral can be written. -/
  wellFormed : n.WellFormed
  /-- No other character is used. -/
  figures : ∀ c ∈ t, isFigure c = true
  /-- The text is that of the numeral. -/
  text : ∃ body, t = (if negative then ['-'] else []) ++ body ∧ body.map Char.toUpper = n.text

/-- The number that is written with or without a minus. -/
def signed (negative : Bool) (r : Rat) : Rat := if negative then -r else r

theorem abs_signed (negative : Bool) (r : Rat) : |signed negative r| = |r| := by
  cases negative with
  | false => rfl
  | true => exact abs_neg r

theorem signed_sub (negative : Bool) (r s : Rat) :
    signed negative r - signed negative s = signed negative (r - s) := by
  cases negative with
  | false => rfl
  | true => exact neg_sub_neg r s |>.trans (neg_sub r s).symm

theorem signed_natAbs (k : Int) : signed (decide (k < 0)) (k.natAbs : Nat) = k := by
  by_cases hneg : k < 0
  · rw [decide_eq_true hneg, signed, if_pos rfl, Nat.cast_natAbs, abs_of_neg hneg]
    push_cast
    ring
  · rw [decide_eq_false hneg, signed, if_neg (by decide), Nat.cast_natAbs,
      abs_of_nonneg (not_lt.1 hneg)]

theorem toRat_eq_signed (x : Float) : toRat x = signed (isNegative x) (magnitude x) := rfl

namespace Shows

variable {t body : Text} {negative negative' : Bool} {n n' : Numeral}

theorem minus (h : Shows body false n) : Shows ('-' :: body) true n := by
  obtain ⟨body, rfl, hbody⟩ := h.text
  refine ⟨h.wellFormed, List.forall_mem_cons.2 ⟨rfl, h.figures⟩, body, rfl, hbody⟩

theorem signed (h : Shows body false n) (negative : Bool) :
    Shows (if negative then '-' :: body else body) negative n := by
  cases negative with
  | false => exact h
  | true => exact h.minus

/-- A numeral does not begin with a minus. -/
theorem head?_ne_minus (h : n.WellFormed) (hbody : body.map Char.toUpper = n.text) :
    body.head? ≠ some '-' := by
  obtain ⟨c, rest, htext, hc⟩ := Numeral.exists_head h
  intro hhead
  have hmapped := congrArg (Option.map Char.toUpper) hhead
  rw [← List.head?_map, hbody, htext] at hmapped
  obtain rfl : c = '-' := by simpa using hmapped
  exact absurd hc (by decide)

/-- A minus is written exactly where the number is negative. -/
theorem head?_eq_minus_iff (h : Shows t negative n) : t.head? = some '-' ↔ negative = true := by
  obtain ⟨body, rfl, hbody⟩ := h.text
  cases negative with
  | false => simpa using head?_ne_minus h.wellFormed hbody
  | true => simp

/-- A text shows one numeral only, with or without a minus. -/
theorem unique (h : Shows t negative n) (h' : Shows t negative' n') :
    negative = negative' ∧ n = n' := by
  have hsign : negative = negative' :=
    Bool.eq_iff_iff.2 (h.head?_eq_minus_iff.symm.trans h'.head?_eq_minus_iff)
  subst hsign
  obtain ⟨body, rfl, hbody⟩ := h.text
  obtain ⟨body', htext, hbody'⟩ := h'.text
  obtain rfl : body = body' := List.append_cancel_left htext
  have hscan := Numeral.scan?_text h.wellFormed
  rw [← hbody, hbody', Numeral.scan?_text h'.wellFormed] at hscan
  exact ⟨rfl, (Prod.mk.inj (Option.some.inj hscan)).1.symm⟩

theorem body_ne_nil (h : n.WellFormed) (hbody : body.map Char.toUpper = n.text) : body ≠ [] := by
  obtain ⟨c, rest, htext, -⟩ := Numeral.exists_head h
  rintro rfl
  rw [htext] at hbody
  exact absurd hbody.symm (List.cons_ne_nil c rest)

theorem ne_nil (h : Shows t negative n) : t ≠ [] := by
  obtain ⟨body, rfl, hbody⟩ := h.text
  exact List.append_ne_nil_of_right_ne_nil _ (body_ne_nil h.wellFormed hbody)

theorem ne_minus (h : Shows t negative n) : t ≠ ['-'] := by
  obtain ⟨body, rfl, hbody⟩ := h.text
  cases negative with
  | false =>
    rintro rfl
    exact head?_ne_minus h.wellFormed hbody rfl
  | true =>
    intro htext
    exact body_ne_nil h.wellFormed hbody (List.cons_inj_right '-' |>.1 htext)

/-- Only zero could be shown as a negative zero. -/
theorem ne_minus_zero (h : Shows t negative n)
    (hzero : negative = true → n.decimal.toRat ≠ 0) : t ≠ ['-', '0'] := by
  rintro rfl
  have hdecimal : (⟨['0'], false, [], none⟩ : Numeral).WellFormed :=
    ⟨List.forall_mem_singleton.2 (by decide), List.forall_mem_nil _, .inl (by simp),
      fun _ => rfl, by rintro e ⟨⟩⟩
  have hnegativeZero : Shows ['-', '0'] true ⟨['0'], false, [], none⟩ :=
    ⟨hdecimal, List.forall_mem_cons.2 ⟨rfl, List.forall_mem_singleton.2 rfl⟩, ['0'], rfl, rfl⟩
  obtain ⟨rfl, rfl⟩ := h.unique hnegativeZero
  refine hzero rfl ?_
  have hdigits : Text.digitsValue ['0'] = 0 := by decide
  simp [Numeral.decimal, Decimal.toRat, hdigits]

end Shows

/-! ## Zeros at the end -/

/-- The digits behind a point without the zeros at their end. -/
def keptPlaces (places : Text) : Text := (places.reverse.dropWhile (· == '0')).reverse

theorem exists_keptPlaces (places : Text) :
    ∃ k, places = keptPlaces places ++ List.replicate k '0' := by
  have hzeros : ∀ c ∈ places.reverse.takeWhile (· == '0'), c = '0' := by
    intro c hc
    simpa using List.mem_takeWhile_imp hc
  obtain ⟨k, hk⟩ : ∃ k, places.reverse.takeWhile (· == '0') = List.replicate k '0' :=
    ⟨_, List.eq_replicate_of_mem hzeros⟩
  refine ⟨k, ?_⟩
  have hcut : places.reverse = List.replicate k '0' ++ places.reverse.dropWhile (· == '0') := by
    rw [← hk, List.takeWhile_append_dropWhile]
  have hback := congrArg List.reverse hcut
  rwa [List.reverse_reverse, List.reverse_append, List.reverse_replicate] at hback

theorem getLast?_keptPlaces (places : Text) : (keptPlaces places).getLast? ≠ some '0' := by
  rw [keptPlaces, List.getLast?_reverse]
  intro hhead
  have hnot := List.head?_dropWhile_not (· == '0') places.reverse
  rw [hhead] at hnot
  exact absurd hnot (by decide)

theorem mem_of_mem_keptPlaces {places : Text} {c : Char} (h : c ∈ keptPlaces places) :
    c ∈ places := by
  obtain ⟨k, hk⟩ := exists_keptPlaces places
  rw [hk]
  exact List.mem_append_left _ h

/-- Only zeros behind the point are left out, and the point with them if nothing else is there. -/
theorem dropTrailingZeros_eq {whole places : Text} (hwhole : ∀ c ∈ whole, c ≠ '.')
    (hplaces : ∀ c ∈ places, c ≠ '.') :
    dropTrailingZeros (whole ++ '.' :: places) =
      whole ++ (if !(keptPlaces places).isEmpty then ['.'] else []) ++ keptPlaces places := by
  have hreverse : (whole ++ '.' :: places).reverse = places.reverse ++ '.' :: whole.reverse := by
    simp
  rw [dropTrailingZeros, hreverse, List.dropWhile_append]
  by_cases hkept : keptPlaces places = []
  · have hnone : places.reverse.dropWhile (· == '0') = [] := List.reverse_eq_nil_iff.1 hkept
    have hstop : whole.reverse.dropWhile (· == '.') = whole.reverse := by
      cases hback : whole.reverse with
      | nil => rfl
      | cons c rest =>
        have hc : c ∈ whole := by
          rw [← List.mem_reverse, hback]
          exact List.mem_cons_self
        exact List.dropWhile_cons_of_neg (by simpa using hwhole c hc)
    rw [hnone, hkept]
    simp [hstop]
  · have hsome : places.reverse.dropWhile (· == '0') ≠ [] := fun h =>
      hkept (List.reverse_eq_nil_iff.2 h)
    obtain ⟨c, rest, hback⟩ := List.exists_cons_of_ne_nil hsome
    have hc : c ∈ places := by
      apply mem_of_mem_keptPlaces
      rw [keptPlaces, hback]
      simp
    have hkeep : keptPlaces places = (c :: rest).reverse := by rw [keptPlaces, hback]
    rw [hback, if_neg (by simp), List.cons_append,
      List.dropWhile_cons_of_neg (by simpa using hplaces c hc), hkeep]
    simp

/-! ## The layouts of a result -/

/-- The numeral of digits around a point without the zeros at its end. -/
def trimmed (whole places : Text) (exponent : Option WrittenExponent) : Numeral :=
  ⟨whole, !(keptPlaces places).isEmpty, keptPlaces places, exponent⟩

/-- A numeral whose last digit behind the point is not a zero, and whose point is not its end. -/
structure IsTrimmed (n : Numeral) : Prop where
  /-- No zero ends the digits behind the point. -/
  getLast? : n.fraction.getLast? ≠ some '0'
  /-- A digit is behind the point. -/
  ne_nil : n.point = true → n.fraction ≠ []

section

variable (whole places : Text) (exponent : Option WrittenExponent)

theorem isTrimmed_trimmed : IsTrimmed (trimmed whole places exponent) where
  getLast? := getLast?_keptPlaces places
  ne_nil := by simp [trimmed]

/-- The zeros at the end are powers of ten. -/
theorem exists_digits_trimmed : ∃ k, places.length = (keptPlaces places).length + k ∧
    Text.digitsValue (whole ++ places) =
      (trimmed whole places exponent).decimal.digits * 10 ^ k := by
  obtain ⟨k, hk⟩ := exists_keptPlaces places
  refine ⟨k, ?_, ?_⟩
  · conv_lhs => rw [hk, List.length_append, List.length_replicate]
  · show _ = Text.digitsValue (whole ++ keptPlaces places) * 10 ^ k
    rw [← Text.digitsValue_append_zeros, List.append_assoc, ← hk]

/-- The zeros at the end do not count. -/
theorem toRat_trimmed : (trimmed whole places exponent).decimal.toRat =
    (⟨Text.digitsValue (whole ++ places),
      (exponent.map WrittenExponent.value).getD 0 - places.length⟩ : Decimal).toRat := by
  obtain ⟨k, hlength, hvalue⟩ := exists_digits_trimmed whole places exponent
  have hexponent : (exponent.map WrittenExponent.value).getD 0 - (places.length : Int) + k =
      (exponent.map WrittenExponent.value).getD 0 - (keptPlaces places).length := by
    rw [hlength]
    push_cast
    ring
  rw [hvalue, Decimal.toRat_mul_pow, hexponent]
  rfl

variable {whole places exponent}

/-- Digits around a point show a numeral without the zeros at its end. -/
theorem shows_dropTrailingZeros {power : Text} (hne : whole ≠ [])
    (hwhole : ∀ c ∈ whole, c.isDigit = true) (hplaces : ∀ c ∈ places, c.isDigit = true)
    (hexponent : ∀ e ∈ exponent, e.WellFormed) (hfigures : ∀ c ∈ power, isFigure c = true)
    (hpower : power.map Char.toUpper = (exponent.map WrittenExponent.text).getD []) :
    Shows (dropTrailingZeros (whole ++ '.' :: places) ++ power) false
      (trimmed whole places exponent) := by
  have hpoint {c : Char} (hc : c.isDigit = true) : c ≠ '.' := by
    rintro rfl
    exact absurd hc (by decide)
  have hkept : ∀ c ∈ keptPlaces places, c.isDigit = true := fun c hc =>
    hplaces c (mem_of_mem_keptPlaces hc)
  rw [dropTrailingZeros_eq (fun c hc => hpoint (hwhole c hc)) fun c hc => hpoint (hplaces c hc)]
  refine ⟨⟨fun c hc => Text.isDecimal_of_isDigit (hwhole c hc),
    fun c hc => Text.isDecimal_of_isDigit (hkept c hc), .inl hne, by simp [trimmed], hexponent⟩,
    ?_, _, (List.nil_append _).symm, ?_⟩
  · intro c hc
    rcases List.mem_append.1 hc with hc | hc
    · rcases List.mem_append.1 hc with hc | hc
      · rcases List.mem_append.1 hc with hc | hc
        · exact isFigure_of_isDigit (hwhole c hc)
        · obtain rfl : c = '.' := by
            split at hc <;> simp_all
          rfl
      · exact isFigure_of_isDigit (hkept c hc)
    · exact hfigures c hc
  · have hdot : (if !(keptPlaces places).isEmpty then ['.'] else [] : Text).map Char.toUpper =
        if !(keptPlaces places).isEmpty then ['.'] else [] := by
      split <;> rfl
    rw [List.map_append, List.map_append, List.map_append, Text.map_toUpper_of_isDigit hwhole,
      Text.map_toUpper_of_isDigit hkept, hdot, hpower]
    rfl

end

/-- A whole number shows itself. -/
theorem shows_ofNat (k : Nat) : Shows (Text.ofNat k) false ⟨Text.ofNat k, false, [], none⟩ where
  wellFormed := ⟨fun _ hc => Text.isDecimal_of_isDigit (Text.isDigit_of_mem_ofNat hc),
    List.forall_mem_nil _, .inl (Text.ofNat_ne_nil k), fun _ => rfl, by rintro e ⟨⟩⟩
  figures _ hc := isFigure_of_mem_ofNat hc
  text := ⟨Text.ofNat k, rfl, by
    rw [Text.map_toUpper_of_isDigit fun c hc => Text.isDigit_of_mem_ofNat hc]
    simp [Numeral.text]⟩

theorem toRat_ofNat (k : Nat) :
    (⟨Text.ofNat k, false, [], none⟩ : Numeral).decimal.toRat = k := by
  simp [Numeral.decimal, Decimal.toRat, Text.digitsValue_ofNat]

/-- A whole number is shown with its sign. -/
theorem shows_ofInt (k : Int) :
    Shows (Text.ofInt k) (decide (k < 0)) ⟨Text.ofNat k.natAbs, false, [], none⟩ := by
  cases k with
  | ofNat k =>
    rw [decide_eq_false (by simp)]
    exact shows_ofNat k
  | negSucc k =>
    rw [decide_eq_true (Int.negSucc_lt_zero k)]
    exact (shows_ofNat (k + 1)).minus

theorem length_paddedDigits {width n : Nat} (hwidth : 0 < width) (h : n < 10 ^ width) :
    (paddedDigits width n).length = width := by
  have hlength := length_ofNat_le hwidth h
  rw [paddedDigits, List.length_append, List.length_replicate]
  omega

/-- A number with so many places is shown rounded to them. -/
theorem exists_shows_fixedPlaces {places : Nat} (hplaces : 0 < places) {r : Rat} (h : 0 ≤ r) :
    ∃ n, Shows (dropTrailingZeros (fixedPlaces places r)) false n ∧ n.exponent = none ∧
      IsTrimmed n ∧ n.decimal.toRat = roundHalfEven (r * 10 ^ places) * 10 ^ (-(places : Int)) := by
  set units := (roundHalfEven (r * Nat.pow 10 places)).toNat with hunits
  have hsmall : units % 10 ^ places < 10 ^ places := Nat.mod_lt _ (by positivity)
  have hlength := length_paddedDigits hplaces hsmall
  have hshows : Shows (dropTrailingZeros (fixedPlaces places r) ++ []) false
      (trimmed (Text.ofNat (units / 10 ^ places)) (paddedDigits places (units % 10 ^ places))
        none) :=
    shows_dropTrailingZeros (Text.ofNat_ne_nil _) (fun c hc => Text.isDigit_of_mem_ofNat hc)
      (fun c hc => isDigit_of_mem_paddedDigits hc) (by rintro e ⟨⟩) (List.forall_mem_nil _) rfl
  rw [List.append_nil] at hshows
  refine ⟨_, hshows, rfl, isTrimmed_trimmed _ _ _, ?_⟩
  have hvalue : Text.digitsValue (paddedDigits places (units % 10 ^ places)) =
      units % 10 ^ places := Text.digitsValue_zeros_ofNat _ _
  have hcast : (units : Rat) = roundHalfEven (r * 10 ^ places) := by
    have hnonneg : 0 ≤ roundHalfEven (r * Nat.pow 10 places) :=
      roundHalfEven_nonneg (mul_nonneg h (Nat.cast_nonneg _))
    have hround := congrArg (Int.cast (R := Rat)) (Int.toNat_of_nonneg hnonneg)
    rw [← hunits] at hround
    simpa using hround
  rw [toRat_trimmed, Text.digitsValue_append, hlength, Text.digitsValue_ofNat, hvalue,
    Nat.div_add_mod', Decimal.toRat, hcast]
  simp

/-- A number with so many significant digits is shown rounded to them. -/
theorem exists_shows_significant (count : Nat) (r : Rat) :
    ∃ digit rest power, digit :: rest = Text.ofNat (roundToDigits count r).digits ∧
      Shows (significant count r) false (trimmed [digit] rest (some power)) ∧
      (trimmed [digit] rest (some power)).decimal.toRat = (roundToDigits count r).toRat := by
  set d := roundToDigits count r with hd
  obtain ⟨power, hwell, htext, hvalue⟩ := Decimal.wellFormed_exponent (d.pointPosition - 1)
  obtain ⟨digit, rest, hdigits⟩ := List.exists_cons_of_ne_nil (Text.ofNat_ne_nil d.digits)
  have hdigit : ∀ c ∈ digit :: rest, c.isDigit = true := by
    rw [← hdigits]
    exact fun c hc => Text.isDigit_of_mem_ofNat hc
  obtain ⟨hfirst, hrest⟩ := List.forall_mem_cons.1 hdigit
  have hsignificant : significant count r =
      dropTrailingZeros ([digit] ++ '.' :: rest) ++ Decimal.exponentText (d.pointPosition - 1) := by
    simp only [significant, ← hd, hdigits, List.singleton_append]
  have hshows : Shows (significant count r) false (trimmed [digit] rest (some power)) := by
    rw [hsignificant]
    exact shows_dropTrailingZeros (List.cons_ne_nil _ _) (List.forall_mem_singleton.2 hfirst) hrest
      (by rintro e ⟨⟩; exact hwell) (fun c hc => isFigure_of_mem_exponentText hc) htext.symm
  have hposition : d.pointPosition - 1 - rest.length = d.exponent := by
    rw [Decimal.pointPosition, hdigits, List.length_cons]
    push_cast
    ring
  refine ⟨digit, rest, power, hdigits.symm, hshows, ?_⟩
  rw [toRat_trimmed, List.singleton_append, ← hdigits, Text.digitsValue_ofNat, Option.map_some,
    Option.getD_some, hvalue, hposition]

end Reckoner.Number

import Mathlib
import Reckoner.Expression.Numeral

/-!
# Numerals and their texts

Which numerals can be written (`Numeral.WellFormed`), and the round trip of scanning: a numeral is
scanned from its own text (`Numeral.scan?_append`), and what is scanned is a numeral whose text
stood at the beginning (`Numeral.wellFormed_of_scan?`).
-/

namespace Reckoner

/-! ## Runs of characters -/

namespace Text

theorem all_takeWhile {p : Char → Bool} {t : Text} : ∀ c ∈ t.takeWhile p, p c = true :=
  List.all_eq_true.1 List.all_takeWhile

/-- A run of decimal digits ends before the first character that is none. -/
theorem takeWhile_append_of_head {p : Char → Bool} {t rest : Text} (h : ∀ c ∈ t, p c = true)
    (hrest : ∀ c ∈ rest.head?, p c = false) :
    (t ++ rest).takeWhile p = t ∧ (t ++ rest).dropWhile p = rest := by
  induction t with
  | nil =>
    cases rest with
    | nil => exact ⟨rfl, rfl⟩
    | cons c rest => simp [hrest c rfl]
  | cons c t ih =>
    have hc : p c = true := h c (by simp)
    obtain ⟨htake, hdrop⟩ := ih fun d hd => h d (List.mem_cons_of_mem _ hd)
    simp [hc, htake, hdrop]

end Text

/-! ## Powers of ten -/

namespace WrittenExponent

/-- A power of ten that can be written: its sign is a plus or a minus, and it has digits. -/
structure WellFormed (e : WrittenExponent) : Prop where
  /-- The sign is one of the two. -/
  sign : ∀ c ∈ e.sign, c = '+' ∨ c = '-'
  /-- There is a digit. -/
  digits_ne_nil : e.digits ≠ []
  /-- All digits are decimal digits. -/
  digits : ∀ c ∈ e.digits, Text.isDecimal c = true

theorem not_isDecimal_plus : Text.isDecimal '+' = false := by decide

theorem not_isDecimal_minus : Text.isDecimal '-' = false := by decide

/-- A power of ten is scanned up to the first character that is no digit. -/
theorem scan?_append {e : WrittenExponent} {rest : Text} (h : e.WellFormed)
    (hrest : ∀ c ∈ rest.head?, Text.isDecimal c = false) :
    scan? (e.text ++ rest) = some (e, rest) := by
  obtain ⟨sign, digits⟩ := e
  obtain ⟨hsign, hne, hdigits⟩ := h
  obtain ⟨htake, hdrop⟩ := Text.takeWhile_append_of_head hdigits hrest
  obtain ⟨d, digits, rfl⟩ := List.exists_cons_of_ne_nil hne
  simp only [List.cons_append] at hsign hdigits htake hdrop
  cases sign with
  | none =>
    have hd : Text.isDecimal d = true := hdigits d (by simp)
    have hplus : d ≠ '+' := by
      intro h
      simp [h, not_isDecimal_plus] at hd
    have hminus : d ≠ '-' := by
      intro h
      simp [h, not_isDecimal_minus] at hd
    simp [text, scan?, hplus, hminus, htake, hdrop]
  | some c =>
    rcases hsign c rfl with rfl | rfl <;>
      simp [text, scan?, htake, hdrop]

/-- What is scanned as a power of ten is one, and its text stood at the beginning. -/
theorem wellFormed_of_scan? {t rest : Text} {e : WrittenExponent}
    (h : scan? t = some (e, rest)) : e.WellFormed ∧ e.text ++ rest = t := by
  unfold scan? at h
  split at h
  · rename_i t
    split at h
    rename_i sign body hsplit
    have hsign : (∀ c ∈ sign, c = '+' ∨ c = '-') ∧ sign.toList ++ body = t := by
      split at hsplit <;> cases hsplit <;> simp
    split at h
    · cases h
    · rename_i digits hdigits
      cases h
      refine ⟨⟨hsign.1, fun h => hdigits h, Text.all_takeWhile⟩, ?_⟩
      simp [text, ← hsign.2]
  · cases h

/-- A power of ten is scanned whatever follows it. -/
theorem isSome_scan?_append {e : WrittenExponent} (h : e.WellFormed) (rest : Text) :
    (scan? (e.text ++ rest)).isSome = true := by
  obtain ⟨sign, digits⟩ := e
  obtain ⟨hsign, hne, hdigits⟩ := h
  obtain ⟨d, digits, rfl⟩ := List.exists_cons_of_ne_nil hne
  have hd : Text.isDecimal d = true := hdigits d (by simp)
  cases sign with
  | none =>
    have hplus : d ≠ '+' := by
      rintro rfl
      simp [not_isDecimal_plus] at hd
    have hminus : d ≠ '-' := by
      rintro rfl
      simp [not_isDecimal_minus] at hd
    simp [text, scan?, hplus, hminus, hd]
  | some c => rcases hsign c rfl with rfl | rfl <;> simp [text, scan?, hd]

end WrittenExponent

/-! ## Numerals -/

namespace Numeral

theorem not_isDecimal_dot : Text.isDecimal '.' = false := by decide

/-- A numeral that can be written: it has a digit, all its digits are decimal digits, and nothing
stands behind a point that is not written. -/
structure WellFormed (n : Numeral) : Prop where
  /-- The digits before the point are decimal digits. -/
  whole : ∀ c ∈ n.whole, Text.isDecimal c = true
  /-- The digits behind the point are decimal digits. -/
  fraction : ∀ c ∈ n.fraction, Text.isDecimal c = true
  /-- There is a digit. -/
  ne_nil : n.whole ≠ [] ∨ n.fraction ≠ []
  /-- Without a point, no digit is behind it. -/
  fraction_eq_nil : n.point = false → n.fraction = []
  /-- The power of ten can be written. -/
  exponent : ∀ e ∈ n.exponent, e.WellFormed

/-- The digits and the point of a numeral are scanned from their own text. -/
theorem scanMantissa?_append {n : Numeral} {rest : Text} (h : n.WellFormed)
    (hnone : n.exponent = none) (hrest : ∀ c ∈ rest.head?, Text.isDecimal c = false ∧ c ≠ '.') :
    scanMantissa? (n.text ++ rest) = some (n, rest) := by
  obtain ⟨whole, point, fraction, exponent⟩ := n
  obtain ⟨hwhole, hfraction, hne, hpoint, -⟩ := h
  subst hnone
  have hdecimal : ∀ c ∈ rest.head?, Text.isDecimal c = false := by
    intro c hc
    exact (hrest c hc).1
  simp only at hwhole hfraction hne hpoint
  cases point with
  | true =>
    have hdot : ∀ c ∈ ('.' :: (fraction ++ rest)).head?, Text.isDecimal c = false := by
      simp [not_isDecimal_dot]
    obtain ⟨htake, hdrop⟩ := Text.takeWhile_append_of_head hwhole hdot
    obtain ⟨htake', hdrop'⟩ := Text.takeWhile_append_of_head hfraction hdecimal
    have htext : (⟨whole, true, fraction, none⟩ : Numeral).text ++ rest =
        whole ++ '.' :: (fraction ++ rest) := by simp [text]
    have hsome : (whole.isEmpty && fraction.isEmpty) = false := by
      simpa [or_iff_not_imp_left] using hne
    rw [htext]
    simp only [scanMantissa?, htake, hdrop, htake', hdrop', hsome]
    rfl
  | false =>
    obtain rfl := hpoint rfl
    have hsome : whole.isEmpty = false := by simpa using hne
    obtain ⟨htake, hdrop⟩ := Text.takeWhile_append_of_head hwhole hdecimal
    have htext : (⟨whole, false, [], none⟩ : Numeral).text ++ rest = whole ++ rest := by
      simp [text]
    rw [htext]
    simp only [scanMantissa?, htake, hdrop]
    split
    · rename_i rest
      exact absurd rfl (hrest '.' rfl).2
    · simp [hsome]

/-- A numeral is scanned up to the first character that cannot belong to it. -/
theorem scan?_append {n : Numeral} {rest : Text} (h : n.WellFormed)
    (hrest : ∀ c ∈ rest.head?, Text.isDecimal c = false ∧ c ≠ '.' ∧ c ≠ 'E') :
    scan? (n.text ++ rest) = some (n, rest) := by
  obtain ⟨whole, point, fraction, exponent⟩ := n
  have hmantissa : (⟨whole, point, fraction, none⟩ : Numeral).WellFormed :=
    ⟨h.whole, h.fraction, h.ne_nil, h.fraction_eq_nil, by simp⟩
  cases exponent with
  | none =>
    have hscan := scanMantissa?_append h rfl fun c hc => ⟨(hrest c hc).1, (hrest c hc).2.1⟩
    have hnone : WrittenExponent.scan? rest = none := by
      cases rest with
      | nil => rfl
      | cons c rest =>
        unfold WrittenExponent.scan?
        split
        · rename_i heq
          exact absurd (List.cons.inj heq).1 (hrest c rfl).2.2
        · rfl
    simp only [scan?, hscan, Option.map_some, hnone]
  | some e =>
    have hhead : ∀ c ∈ (e.text ++ rest).head?, Text.isDecimal c = false ∧ c ≠ '.' := by
      simp [WrittenExponent.text]
      decide
    have hscan := scanMantissa?_append hmantissa rfl hhead
    have htext : (⟨whole, point, fraction, some e⟩ : Numeral).text ++ rest =
        (⟨whole, point, fraction, none⟩ : Numeral).text ++ (e.text ++ rest) := by simp [text]
    rw [htext]
    simp only [scan?, hscan, Option.map_some,
      WrittenExponent.scan?_append (h.exponent e rfl) fun c hc => (hrest c hc).1]

/-- A numeral is scanned from its own text. -/
theorem scan?_text {n : Numeral} (h : n.WellFormed) : scan? n.text = some (n, []) := by
  have hscan := @scan?_append n [] h (by simp)
  rwa [List.append_nil] at hscan

/-- What is scanned as digits and a point is a numeral without a power of ten. -/
theorem wellFormed_of_scanMantissa? {t rest : Text} {n : Numeral}
    (h : scanMantissa? t = some (n, rest)) :
    n.WellFormed ∧ n.exponent = none ∧ n.text ++ rest = t := by
  have hsplit : t.takeWhile Text.isDecimal ++ t.dropWhile Text.isDecimal = t :=
    List.takeWhile_append_dropWhile
  have hwhole : ∀ c ∈ t.takeWhile Text.isDecimal, Text.isDecimal c = true := Text.all_takeWhile
  unfold scanMantissa? at h
  generalize t.takeWhile Text.isDecimal = whole at h hsplit hwhole
  simp only at h
  split at h
  · rename_i behind hdrop
    split at h
    · cases h
    · rename_i hne
      cases h
      refine ⟨⟨hwhole, Text.all_takeWhile, ?_, by simp, by simp⟩, rfl, ?_⟩
      · simpa [or_iff_not_imp_left] using hne
      · rw [hdrop] at hsplit
        simp [text, ← hsplit]
  · split at h
    · cases h
    · rename_i hne
      cases h
      refine ⟨⟨hwhole, by simp, .inl ?_, by simp, by simp⟩, rfl, ?_⟩
      · simpa using hne
      · simp [text, hsplit]

/-- What is scanned as a numeral is one, and its text stood at the beginning. -/
theorem wellFormed_of_scan? {t rest : Text} {n : Numeral} (h : scan? t = some (n, rest)) :
    n.WellFormed ∧ n.text ++ rest = t := by
  obtain ⟨⟨mantissa, behind⟩, hmantissa, h⟩ := Option.map_eq_some_iff.1 h
  obtain ⟨hwell, hnone, htext⟩ := wellFormed_of_scanMantissa? hmantissa
  simp only at h
  split at h
  · rename_i e rest' hscan
    cases h
    obtain ⟨he, hrest⟩ := WrittenExponent.wellFormed_of_scan? hscan
    refine ⟨⟨hwell.whole, hwell.fraction, hwell.ne_nil, hwell.fraction_eq_nil, ?_⟩, ?_⟩
    · simpa using he
    · rw [← htext, ← hrest]
      simp [text, hnone]
  · cases h
    exact ⟨hwell, htext⟩

/-- What follows a numeral without a power of ten is none. -/
theorem scanExponent?_eq_none {t rest : Text} {n : Numeral} (h : scan? t = some (n, rest))
    (hnone : n.exponent = none) : WrittenExponent.scan? rest = none := by
  obtain ⟨⟨mantissa, behind⟩, -, h⟩ := Option.map_eq_some_iff.1 h
  simp only at h
  split at h
  · cases h
    exact absurd hnone (by simp)
  · rename_i hscan
    cases h
    exact hscan

/-! ### Characters of a numeral -/

/-- Whether a character may stand before a power of ten. -/
def isMantissa (c : Char) : Bool := Text.isDecimal c || c == '.'

/-- Only a digit or a point begins a numeral. -/
theorem scan?_eq_none {c : Char} {t : Text} (h : isMantissa c = false) : scan? (c :: t) = none := by
  simp only [isMantissa, Bool.or_eq_false_iff, beq_eq_false_iff_ne] at h
  have hdrop : (c :: t).dropWhile Text.isDecimal = c :: t :=
    List.dropWhile_cons_of_neg (by simp [h.1])
  have htake : (c :: t).takeWhile Text.isDecimal = [] :=
    List.takeWhile_cons_of_neg (by simp [h.1])
  simp [scan?, scanMantissa?, hdrop, htake, h.2]

/-- The text of a numeral without its power of ten. -/
def mantissa (n : Numeral) : Text := n.whole ++ (if n.point then ['.'] else []) ++ n.fraction

theorem text_eq (n : Numeral) :
    n.text = n.mantissa ++ (n.exponent.map WrittenExponent.text).getD [] := rfl

theorem mantissa_ne_nil {n : Numeral} (h : n.WellFormed) : n.mantissa ≠ [] := by
  rcases h.ne_nil with hne | hne <;> simp [mantissa, hne]

theorem isMantissa_of_mem {n : Numeral} (h : n.WellFormed) :
    ∀ c ∈ n.mantissa, isMantissa c = true := by
  intro c hc
  simp only [mantissa, List.mem_append] at hc
  rcases hc with (hc | hc) | hc
  · simp [isMantissa, h.whole c hc]
  · have hdot : c = '.' := by
      split at hc <;> simp_all
    simp [isMantissa, hdot]
  · simp [isMantissa, h.fraction c hc]

/-- A numeral begins with a digit or its point. -/
theorem exists_head {n : Numeral} (h : n.WellFormed) :
    ∃ c rest, n.text = c :: rest ∧ isMantissa c = true := by
  obtain ⟨c, rest, hn⟩ := List.exists_cons_of_ne_nil (mantissa_ne_nil h)
  refine ⟨c, rest ++ (n.exponent.map WrittenExponent.text).getD [], ?_, ?_⟩
  · rw [text_eq, hn, List.cons_append]
  · exact isMantissa_of_mem h c (by simp [hn])

/-- A numeral does not begin with a power of ten. -/
theorem head?_append_ne {n : Numeral} (h : n.WellFormed) (t : Text) :
    (n.text ++ t).head? ≠ some 'E' := by
  obtain ⟨c, rest, hn, hc⟩ := exists_head h
  rw [hn, List.cons_append, List.head?_cons]
  intro heq
  rw [Option.some.inj heq] at hc
  exact absurd hc (by decide)

/-- A numeral ends with a digit or its point. -/
theorem exists_last {n : Numeral} (h : n.WellFormed) :
    ∃ before c, n.text = before ++ [c] ∧ isMantissa c = true := by
  cases he : n.exponent with
  | none =>
    obtain ⟨before, c, hn⟩ := (List.eq_nil_or_concat' _).resolve_left (mantissa_ne_nil h)
    refine ⟨before, c, ?_, ?_⟩
    · rw [text_eq, he, hn]
      simp
    · exact isMantissa_of_mem h c (by simp [hn])
  | some e =>
    have hwell := h.exponent e he
    obtain ⟨before, c, hdigits⟩ := (List.eq_nil_or_concat' _).resolve_left hwell.digits_ne_nil
    refine ⟨n.mantissa ++ 'E' :: e.sign.toList ++ before, c, ?_, ?_⟩
    · rw [text_eq, he]
      simp [WrittenExponent.text, hdigits]
    · simp [isMantissa, hwell.digits c (by simp [hdigits])]

/-- The characters that a numeral is written with. -/
theorem mem_text {n : Numeral} (h : n.WellFormed) {c : Char} (hc : c ∈ n.text) :
    isMantissa c = true ∨ c = 'E' ∨ c = '+' ∨ c = '-' := by
  rw [text_eq, List.mem_append] at hc
  rcases hc with hc | hc
  · exact .inl (isMantissa_of_mem h c hc)
  · cases he : n.exponent with
    | none => simp [he] at hc
    | some e =>
      have hwell := h.exponent e he
      simp only [he, Option.map_some, Option.getD_some, WrittenExponent.text, List.cons_append,
        List.mem_cons, List.mem_append] at hc
      rcases hc with hc | hc | hc
      · exact .inr (.inl hc)
      · exact .inr (.inr (hwell.sign c (by simpa using hc)))
      · exact .inl (by simp [isMantissa, hwell.digits c hc])

/-- The numerals are exactly what is scanned whole from its own text. -/
theorem wellFormed_iff_scan? {n : Numeral} : n.WellFormed ↔ scan? n.text = some (n, []) :=
  ⟨scan?_text, fun h => (wellFormed_of_scan? h).1⟩

end Numeral

/-! ## Unfinished powers of ten -/

/-- Only an `E` after the first character can begin an unfinished power of ten. -/
theorem hasUnfinishedExponent_cons {c : Char} {t : Text} (h : t.head? ≠ some 'E') :
    hasUnfinishedExponent (c :: t) = hasUnfinishedExponent t := by
  rw [hasUnfinishedExponent]
  have hstart : startsUnfinishedExponent (c :: t) = false := by
    unfold startsUnfinishedExponent
    split
    · rename_i heq
      rw [(List.cons.inj heq).2] at h
      exact absurd rfl h
    · rfl
  rw [hstart, Bool.false_or]

/-- A power of ten begins behind a digit or a point only. -/
theorem hasUnfinishedExponent_of_not_mantissa {s : Text}
    (h : ∀ c ∈ s, Numeral.isMantissa c = false) (t : Text) :
    hasUnfinishedExponent (s ++ t) = hasUnfinishedExponent t := by
  induction s with
  | nil => rfl
  | cons c s ih =>
    obtain ⟨hc, hs⟩ := List.forall_mem_cons.1 h
    have hstarts : ∀ u, startsUnfinishedExponent (c :: u) = false := by
      intro u
      unfold startsUnfinishedExponent
      split
      · rename_i heq
        rw [← (List.cons.inj heq).1, show (Text.isDecimal c || c == '.') = false from hc]
        rfl
      · rfl
    rw [List.cons_append, hasUnfinishedExponent, hstarts, Bool.false_or, ih hs]

/-- What stands before a character that belongs to no power of ten does not depend on what stands
behind it. -/
theorem hasUnfinishedExponent_append_cons {c : Char} (hc : c ≠ 'E' ∧ c ≠ '+' ∧ c ≠ '-')
    (hdecimal : Text.isDecimal c = false) (s t : Text) :
    hasUnfinishedExponent (s ++ c :: t) =
      (hasUnfinishedExponent s || hasUnfinishedExponent (c :: t)) := by
  have hstarts : ∀ (d : Char) (s : Text),
      startsUnfinishedExponent (d :: (s ++ c :: t)) = startsUnfinishedExponent (d :: s) := by
    intro d s
    rcases s with _ | ⟨e, s⟩
    · simp [startsUnfinishedExponent, hc.1]
    · by_cases he : e = 'E'
      · subst he
        rcases s with _ | ⟨f, s⟩
        · simp [startsUnfinishedExponent, hc.2]
        · cases s <;> simp [startsUnfinishedExponent, hdecimal]
      · simp [startsUnfinishedExponent, he]
  induction s with
  | nil => rfl
  | cons d s ih =>
    rw [List.cons_append, hasUnfinishedExponent, hstarts, ih, ← Bool.or_assoc]
    rfl

/-- A text without `E` is passed, if none follows it. -/
theorem hasUnfinishedExponent_append {s t : Text} (hs : 'E' ∉ s) (ht : t.head? ≠ some 'E') :
    hasUnfinishedExponent (s ++ t) = hasUnfinishedExponent t := by
  induction s with
  | nil => rfl
  | cons c s ih =>
    rw [List.mem_cons, not_or] at hs
    rw [List.cons_append, hasUnfinishedExponent_cons, ih hs.2]
    cases s with
    | nil => exact ht
    | cons d s =>
      intro heq
      exact hs.2 (by simp [Option.some.inj heq])

theorem not_mem_of_isDecimal {t : Text} (h : ∀ c ∈ t, Text.isDecimal c = true) : 'E' ∉ t :=
  fun hE => absurd (h 'E' hE) (by decide)

/-- There is one `E` in a power of ten. -/
theorem WrittenExponent.exponent_not_mem {e : WrittenExponent} (h : e.WellFormed) :
    'E' ∉ e.sign.toList ++ e.digits := by
  intro hE
  rcases List.mem_append.1 hE with hE | hE
  · exact absurd (h.sign 'E' (by simpa using hE)) (by decide)
  · exact not_mem_of_isDecimal h.digits hE

/-- A power of ten that can be written is finished. -/
theorem WrittenExponent.startsUnfinishedExponent_eq_false {e : WrittenExponent} (h : e.WellFormed)
    (c : Char) (t : Text) :
    startsUnfinishedExponent (c :: 'E' :: (e.sign.toList ++ (e.digits ++ t))) = false := by
  obtain ⟨d, digits, hdigits⟩ := List.exists_cons_of_ne_nil h.digits_ne_nil
  have hd : Text.isDecimal d = true := h.digits d (by simp [hdigits])
  cases hsign : e.sign with
  | none =>
    have hplus : d ≠ '+' := by
      rintro rfl
      simp [not_isDecimal_plus] at hd
    have hminus : d ≠ '-' := by
      rintro rfl
      simp [not_isDecimal_minus] at hd
    simp [hdigits, startsUnfinishedExponent, hplus, hminus]
  | some sign => simp [hdigits, startsUnfinishedExponent, hd]


/-- A numeral has no unfinished power of ten. -/
theorem hasUnfinishedExponent_numeral {n : Numeral} (h : n.WellFormed) {t : Text}
    (ht : t.head? ≠ some 'E') :
    hasUnfinishedExponent (n.text ++ t) = hasUnfinishedExponent t := by
  have hmantissa := Numeral.isMantissa_of_mem h
  have hmem : 'E' ∉ n.mantissa := by
    intro hE
    exact absurd (hmantissa 'E' hE) (by decide)
  rw [Numeral.text_eq]
  cases he : n.exponent with
  | none =>
    simp only [Option.map_none, Option.getD_none, List.append_nil]
    exact hasUnfinishedExponent_append hmem ht
  | some e =>
    have hwell := h.exponent e he
    obtain ⟨start, c, hlast⟩ := (List.eq_nil_or_concat' _).resolve_left (Numeral.mantissa_ne_nil h)
    have hpower := WrittenExponent.exponent_not_mem hwell
    have hhead : (e.sign.toList ++ (e.digits ++ t)).head? ≠ some 'E' := by
      rw [← List.append_assoc, List.head?_append_of_ne_nil _ (by simp [hwell.digits_ne_nil])]
      intro hhead
      exact hpower (List.mem_of_head? hhead)
    rw [hlast, List.mem_append, not_or, List.mem_singleton] at hmem
    simp only [Option.map_some, Option.getD_some, WrittenExponent.text, List.cons_append,
      List.append_assoc, hlast]
    rw [hasUnfinishedExponent_append hmem.1 (by simpa using Ne.symm hmem.2), List.nil_append,
      hasUnfinishedExponent, WrittenExponent.startsUnfinishedExponent_eq_false hwell,
      Bool.false_or, hasUnfinishedExponent_cons hhead, ← List.append_assoc,
      hasUnfinishedExponent_append hpower ht]

end Reckoner

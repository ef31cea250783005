import Mathlib
import Reckoner.Proofs.Expression.Pieces

/-!
# Literals that are not divided

Where a literal stands in a text, no piece of the text that is read begins or ends inside of the
literal (`Term.not_cuts_of_mem_pieces`).  There are two exceptions, in which what stands before the
literal takes a part of it (`Literal.TakesPart`): the digits of the literal may go on with a power
of ten that has begun, so that its own power of ten is left over, and its first zero may end the
name `mu0`.
-/

namespace Reckoner

namespace Literal

/-! ## What takes a part of a literal -/

/-- A power of ten has begun at the end of a text, and digits that follow belong to it. -/
def BeginsExponent (t : Text) : Prop :=
  ∃ (start : Text) (c : Char) (sign : Option Char) (digits : Text),
    t = start ++ c :: 'E' :: (sign.toList ++ digits) ∧ Numeral.isMantissa c = true ∧
      (∀ s ∈ sign, s = '+' ∨ s = '-') ∧ ∀ d ∈ digits, Text.isDecimal d = true

/-- What stands before a literal takes a part of it: a power of ten takes the digits before the
power of ten of the literal, or a name takes its first zero. -/
def TakesPart (before literal : Text) : Prop :=
  (BeginsExponent before ∧
      ∃ digits rest, literal = digits ++ 'E' :: rest ∧ ∀ d ∈ digits, Text.isDecimal d = true) ∨
    ∃ start m u c rest, before = start ++ [m, u] ∧ Text.lowercase [m, u] = ['m', 'u'] ∧
      literal = '0' :: c :: rest

theorem TakesPart.append {before literal : Text} (h : TakesPart before literal) (t : Text) :
    TakesPart (t ++ before) literal := by
  rcases h with ⟨⟨start, c, sign, digits, rfl, h⟩, hliteral⟩ | ⟨start, m, u, c, rest, rfl, h⟩
  · exact .inl ⟨⟨t ++ start, c, sign, digits, by rw [List.append_assoc], h⟩, hliteral⟩
  · exact .inr ⟨t ++ start, m, u, c, rest, by rw [List.append_assoc], h⟩

/-- What takes a part of a literal holds an `E`, or the literal begins with a zero. -/
theorem TakesPart.exponent_or_zero {before literal : Text} (h : TakesPart before literal) :
    'E' ∈ before ∨ literal.head? = some '0' := by
  rcases h with ⟨⟨start, c, sign, digits, rfl, -⟩, -⟩ | ⟨start, m, u, c, rest, -, -, rfl⟩
  · exact .inl (by simp)
  · exact .inr rfl

/-! ## Inside of a literal -/

section

variable {l : Literal} {first rest : Text}

/-- A literal has one `E` at most, and its power of ten begins there. -/
theorem eq_mantissa_of_exponent (h : l.WellFormed) (htext : l.text = first ++ 'E' :: rest) :
    first = l.mantissa ∧ ∃ e, l.numeral.exponent = some e ∧ e.text = 'E' :: rest := by
  have hmantissa : 'E' ∉ l.mantissa := by
    intro hE
    exact absurd (mem_mantissa h hE) (by decide)
  rw [text_eq] at htext
  cases he : l.numeral.exponent with
  | none =>
    rw [he, Option.map_none, Option.getD_none, List.append_nil] at htext
    exact absurd (by simp [htext]) hmantissa
  | some e =>
    have hdigits := WrittenExponent.exponent_not_mem (h.exponent e he)
    rw [he, Option.map_some, Option.getD_some, WrittenExponent.text, List.cons_append] at htext
    obtain ⟨rfl, -, rfl⟩ := (List.append_cons_inj_of_notMem hmantissa hdigits).1 htext
    exact ⟨rfl, e, rfl, rfl⟩

/-- No character of a literal is an operator where it stands. -/
theorem at?_eq_none_of_text (h : l.WellFormed) {c : Char} (htext : l.text = first ++ c :: rest)
    (tier : Tier) (before : Text) : Operator.at? tier (first.reverse ++ before) c = none := by
  cases hop : tier.operator? c with
  | none => exact Operator.at?_eq_none hop
  | some op =>
    -- the only operator in a literal is the sign of its power of ten
    have hc : Operator.isOperator c = true := Operator.isOperator_of_operator? hop
    have hfigure : Numeral.isMantissa c = false := by
      by_contra hmantissa
      rw [Split.not_isOperator_of_isMantissa (by simpa using hmantissa)] at hc
      exact absurd hc (by decide)
    have hmantissa : c ∉ l.mantissa := by
      intro hmem
      rcases mem_mantissa h hmem with rfl | hmem
      · exact absurd hc (by decide)
      · rw [hfigure] at hmem
        exact absurd hmem (by decide)
    have hE : c ≠ 'E' := by
      rintro rfl
      exact absurd hc (by decide)
    have hmem : c ∈ l.text := by simp [htext]
    obtain ⟨start, d, hlast, hd⟩ := exists_last_mantissa h
    rw [text_eq] at htext hmem
    cases he : l.numeral.exponent with
    | none => exact absurd (by simpa [he] using hmem) hmantissa
    | some e =>
      have hwell := h.exponent e he
      have hdigits : c ∉ e.digits := by
        intro hmem
        simp [Numeral.isMantissa, hwell.digits c hmem] at hfigure
      obtain ⟨sign, hsign⟩ : ∃ sign, e.sign = some sign := by
        cases hsign : e.sign with
        | none =>
          simp only [he, Option.map_some, Option.getD_some, WrittenExponent.text, hsign,
            List.mem_append, List.mem_cons, Option.toList_none] at hmem
          tauto
        | some sign => exact ⟨sign, rfl⟩
      have hbefore : c ∉ l.mantissa ++ ['E'] := by simp [hmantissa, hE]
      have htext' : (l.mantissa ++ ['E']) ++ sign :: e.digits = first ++ c :: rest := by
        rw [← htext, he]
        simp [WrittenExponent.text, hsign]
      obtain ⟨rfl, rfl, -⟩ := (List.append_cons_inj_of_notMem hbefore hdigits).1 htext'
      have hafter : Operator.isSignAfter ((l.mantissa ++ ['E']).reverse ++ before) = true := by
        rw [hlast]
        simpa using Split.isSignAfter_exponent hd
      rcases hwell.sign sign hsign with rfl | rfl <;> cases tier <;>
        first | exact Operator.at?_sum_eq_none hafter | cases hop

end

/-! ## Texts that divide a literal -/

/-- Two texts next to each other divide a literal that begins after `lead`: one ends with a part of
it, and the other begins with what is left. -/
inductive Divides (lead literal : Text) : Text → Text → Prop where
  /-- Both parts hold a character. -/
  | parts {first rest after : Text} (hfirst : first ≠ []) (hrest : rest ≠ [])
    (h : literal = first ++ rest) : Divides lead literal (lead ++ first) (rest ++ after)

section

variable {l : Literal} {lead x y : Text}

theorem not_divides_nil_left : ¬ Divides lead l.text [] y := by
  intro h
  generalize hx : ([] : Text) = left at h
  cases h with
  | parts hfirst _ _ => exact hfirst (List.append_eq_nil_iff.1 hx.symm).2

theorem not_divides_nil_right : ¬ Divides lead l.text x [] := by
  intro h
  generalize hy : ([] : Text) = right at h
  cases h with
  | parts _ hrest _ => exact hrest (List.append_eq_nil_iff.1 hy.symm).1

/-- What is no part of a literal is not behind the place where it is divided. -/
theorem not_divides_of_head {literal : Text} {c : Char} (hc : c ∉ literal) :
    ¬ Divides lead literal x (c :: y) := by
  intro h
  generalize hy : c :: y = right at h
  cases h with
  | @parts first rest after hfirst hrest h =>
    obtain ⟨d, rest, rfl⟩ := List.exists_cons_of_ne_nil hrest
    obtain ⟨rfl, -⟩ := List.cons.inj hy
    exact hc (by simp [h])

/-- Nor is it before that place. -/
theorem not_divides_of_last {literal : Text} {c : Char} (hc : c ∉ literal) :
    ¬ Divides lead literal (x ++ [c]) y := by
  intro h
  generalize hx : x ++ [c] = left at h
  cases h with
  | @parts first rest after hfirst hrest h =>
    obtain ⟨start, d, rfl⟩ := (List.eq_nil_or_concat' first).resolve_left hfirst
    rw [← List.append_assoc] at hx
    have hlast := (List.append_inj' hx rfl).2
    exact hc (by simp [h, List.singleton_inj.1 hlast])

/-- No operator divides a literal. -/
theorem not_divides_of_at? (h : l.WellFormed) {tier : Tier} {c : Char} {op : Operator}
    (hat : Operator.at? tier x.reverse c = some op) :
    ¬ Divides lead l.text x (c :: y) ∧ ¬ Divides lead l.text (x ++ [c]) y := by
  have hnone : ∀ first rest, l.text = first ++ c :: rest → x ≠ lead ++ first := by
    rintro first rest htext rfl
    rw [List.reverse_append, at?_eq_none_of_text h htext] at hat
    cases hat
  constructor
  · intro hdivides
    generalize hy : c :: y = right at hdivides
    cases hdivides with
    | @parts first rest after hfirst hrest htext =>
      obtain ⟨d, rest, rfl⟩ := List.exists_cons_of_ne_nil hrest
      obtain ⟨rfl, -⟩ := List.cons.inj hy
      exact hnone first rest htext rfl
  · intro hdivides
    generalize hx : x ++ [c] = left at hdivides
    cases hdivides with
    | @parts first rest after hfirst hrest htext =>
      obtain ⟨start, d, rfl⟩ := (List.eq_nil_or_concat' first).resolve_left hfirst
      rw [← List.append_assoc] at hx
      obtain ⟨hstart, hlast⟩ := List.append_inj' hx rfl
      rw [← List.singleton_inj.1 hlast, List.append_assoc, List.singleton_append] at htext
      exact hnone start rest htext hstart

/-! ### Names -/

/-- A character of a literal is lowered to a letter of a name if it is the `E` or a zero. -/
theorem eq_of_lowersTo {c a : Char} (hc : isLetter c = true) (h : Text.LowersTo c a)
    (ha : a ∈ Symbol.alphabet) : c = 'E' ∨ c = '0' ∧ a = '0' := by
  simp only [isLetter, Numeral.isMantissa, Bool.or_eq_true, beq_iff_eq] at hc
  rcases hc with ((((hc | rfl) | rfl) | rfl) | rfl) | rfl
  · have hdigit : Text.isDigit c = true := by rw [Text.isDigit, hc, Bool.true_or]
    exact .inr (Symbol.eq_zero_of_isDigit hdigit h ha)
  · exact absurd ha (by rw [← Option.some.inj h]; decide)
  · exact .inl rfl
  · exact absurd ha (by rw [← Option.some.inj h]; decide)
  · exact absurd ha (by rw [← Option.some.inj h]; decide)
  · exact absurd ha (by rw [← Option.some.inj h]; decide)

/-- A name that begins inside of a literal begins with its `E`. -/
theorem eq_exponent_of_atStart? {c : Char} {t : Text} {s : Symbol} (hc : isLetter c = true)
    (h : Symbol.atStart? (c :: t) = some s) : c = 'E' := by
  obtain ⟨cut, htext, hcut⟩ := Symbol.exists_of_atStart? h
  obtain ⟨a, letters, hletters⟩ := List.exists_cons_of_ne_nil s.letters_ne_nil
  rw [hletters] at hcut
  cases hcut with
  | @cons d _ cut _ hd hcut =>
    obtain ⟨rfl, -⟩ := List.cons.inj htext
    have ha : a ∈ s.letters := by simp [hletters]
    rcases eq_of_lowersTo hc hd (Symbol.mem_alphabet ha) with hE | ⟨-, rfl⟩
    · exact hE
    · rw [Symbol.letters_of_digit ha] at hletters
      exact absurd (List.cons.inj hletters).1 (by decide)

/-- Digits that go on with a power of ten: it has begun before them. -/
theorem beginsExponent_of_text {l' : Literal} (h' : l'.WellFormed) (h : l.WellFormed)
    {e : WrittenExponent} (he : l'.numeral.exponent = some e)
    (htext : l'.text = lead ++ l.mantissa) :
    BeginsExponent lead ∧ ∀ d ∈ l.mantissa, Text.isDecimal d = true := by
  have hwell := h'.exponent e he
  have hE : 'E' ∉ l.mantissa := by
    intro hE
    exact absurd (mem_mantissa h hE) (by decide)
  rw [text_eq, he, Option.map_some, Option.getD_some, WrittenExponent.text,
    List.cons_append] at htext
  obtain ⟨behind, rfl, hdigits⟩ : ∃ behind, lead = l'.mantissa ++ 'E' :: behind ∧
      e.sign.toList ++ e.digits = behind ++ l.mantissa := by
    rcases List.append_eq_append_iff.1 htext with ⟨t, rfl, ht⟩ | ⟨t, -, ht⟩
    · cases t with
      | nil =>
        rw [List.nil_append] at ht
        exact absurd (by simp [← ht]) hE
      | cons c t =>
        obtain ⟨rfl, hrest⟩ := List.cons.inj ht
        exact ⟨t, rfl, hrest⟩
    · exact absurd (by simp [ht]) hE
  obtain ⟨start, c, hlast, hc⟩ := exists_last_mantissa h'
  have hdecimal : ∀ d ∈ l.mantissa, Text.isDecimal d = true := by
    intro d hd
    have hmem : d ∈ e.sign.toList ++ e.digits := by simp [hdigits, hd]
    rcases List.mem_append.1 hmem with hmem | hmem
    · rcases hwell.sign d (by simpa using hmem) with rfl | rfl <;>
        exact absurd (mem_mantissa h hd) (by decide)
    · exact hwell.digits d hmem
  refine ⟨?_, hdecimal⟩
  rw [hlast, List.append_assoc, List.singleton_append]
  cases hsign : e.sign with
  | none =>
    rw [hsign, Option.toList_none, List.nil_append] at hdigits
    exact ⟨start, c, none, behind, rfl, hc, by simp,
      fun d hd => hwell.digits d (by simp [hdigits, hd])⟩
  | some sign =>
    rw [hsign] at hdigits
    cases behind with
    | nil =>
      have hmem : sign ∈ l.mantissa := by
        rw [List.nil_append] at hdigits
        simp [← hdigits]
      rcases hwell.sign sign hsign with rfl | rfl <;>
        exact absurd (hdecimal _ hmem) (by decide)
    | cons d behind =>
      obtain ⟨rfl, hrest⟩ := List.cons.inj hdigits
      refine ⟨start, c, some sign, behind, rfl, hc, ?_, fun d hd => hwell.digits d ?_⟩
      · simpa using hwell.sign sign hsign
      · have hrest' : e.digits = behind ++ l.mantissa := hrest
        simp [hrest', hd]

/-- The factor before a name does not end inside of a literal, unless a power of ten takes a part of
it. -/
theorem not_divides_of_factor (h : l.WellFormed) {t name : Text} {l' : Literal}
    (hscan : scan? t = some (l', name)) {s : Symbol} (hname : Symbol.atStart? name = some s)
    (htake : ¬ TakesPart lead l.text) : ¬ Divides lead l.text l'.text name := by
  intro hdivides
  obtain ⟨h', -, hexponent⟩ := wellFormed_of_scan? hscan
  generalize hx : l'.text = left at hdivides
  cases hdivides with
  | @parts first rest after hfirst hrest htext =>
    obtain ⟨c, rest, rfl⟩ := List.exists_cons_of_ne_nil hrest
    obtain rfl : c = 'E' :=
      eq_exponent_of_atStart? (isLetter_of_mem h c (by simp [htext])) hname
    obtain ⟨rfl, e, he, hetext⟩ := eq_mantissa_of_exponent h htext
    -- the power of ten of the literal would have been scanned
    have hsome := WrittenExponent.isSome_scan?_append (h.exponent e he) after
    rw [hetext] at hsome
    cases he' : l'.numeral.exponent with
    | none =>
      rw [hexponent he'] at hsome
      exact absurd hsome (by decide)
    | some e' =>
      obtain ⟨hbegins, hdecimal⟩ := beginsExponent_of_text h' h he' hx
      exact htake (.inl ⟨hbegins, l.mantissa, rest, htext, hdecimal⟩)

/-- Nor does a name end there, unless it takes the first zero of the literal. -/
theorem not_divides_of_name (h : l.WellFormed) {cut rest : Text} {s : Symbol}
    (hcut : List.Forall₂ Text.LowersTo cut s.letters)
    (hfactor : ¬ Divides lead l.text x (cut ++ rest)) (htake : ¬ TakesPart lead l.text) :
    ¬ Divides lead l.text (x ++ cut) rest := by
  intro hdivides
  generalize hx : x ++ cut = left at hdivides
  cases hdivides with
  | @parts first rest after hfirst hrest htext =>
    obtain ⟨t, rfl, rfl⟩ : ∃ t, lead = x ++ t ∧ cut = t ++ first := by
      rcases List.append_eq_append_iff.1 hx with ⟨t, hlead, ht⟩ | ⟨t, rfl, rfl⟩
      · exact ⟨t, hlead, ht⟩
      · by_cases ht : t = []
        · exact ⟨[], by simp [ht], by simp [ht]⟩
        · refine absurd ?_ hfactor
          rw [← List.append_assoc]
          exact .parts ht (by simp [hrest]) (by rw [htext, List.append_assoc])
    obtain ⟨c, first, rfl⟩ := List.exists_cons_of_ne_nil hfirst
    have hc : isLetter c = true := isLetter_of_mem h c (by simp [htext])
    have hE : c ≠ 'E' := by
      rintro rfl
      exact head?_append_ne h [] (by simp [htext])
    obtain ⟨a, ha, hlower⟩ := exists_of_mem_forall₂ hcut (show c ∈ t ++ c :: first by simp)
    obtain ⟨rfl, rfl⟩ := (eq_of_lowersTo hc hlower (Symbol.mem_alphabet ha)).resolve_left hE
    obtain ⟨d, rest, rfl⟩ := List.exists_cons_of_ne_nil hrest
    rw [Symbol.letters_of_digit ha] at hcut
    -- the zero is the last letter of the name, and stands behind the other two
    match t, hcut with
    | [], .cons h _ => exact absurd h (by decide)
    | [_], .cons _ (.cons h _) => exact absurd h (by decide)
    | [m, u], .cons hm (.cons hu (.cons _ hfirst)) =>
      have hlowercase : Text.lowercase [m, u] = ['m', 'u'] := by
        simp [Text.lowercase, Text.lowercaseFrom, hm.lowercaseAt, hu.lowercaseAt]
      cases hfirst
      exact htake (.inr ⟨x, m, u, d, rest, rfl, hlowercase, htext⟩)
    | _ :: _ :: _ :: _, h => exact absurd h.length_eq (by simp)

end

end Literal

/-! ## Pieces that do not divide a literal -/

open Literal

namespace Piece

/-- A piece cuts a literal that begins after `left`: it begins or ends inside of the literal. -/
def Cuts (p : Piece) (left literal : Text) : Prop :=
  Divides left literal p.before (p.text ++ p.after) ∨
    Divides left literal (p.before ++ p.text) p.after

section

variable {p : Piece} {left literal x y : Text}

/-- Where a literal is divided inside of a piece that does not cut it, the whole literal stands in
the piece. -/
theorem exists_of_divides (hp : ¬ p.Cuts left literal) (htext : p.text = x ++ y)
    (h : Divides left literal (p.before ++ x) (y ++ p.after)) :
    ∃ lead, left = p.before ++ lead ∧ Divides lead literal x y := by
  rw [Cuts, not_or, htext] at hp
  generalize hbefore : p.before ++ x = before at h
  generalize hafter : y ++ p.after = after at h
  cases h with
  | @parts first rest after hfirst hrest hliteral =>
    obtain ⟨lead, rfl, rfl⟩ : ∃ lead, left = p.before ++ lead ∧ x = lead ++ first := by
      rcases List.append_eq_append_iff.1 hbefore with ⟨t, hleft, hx⟩ | ⟨t, hleft, rfl⟩
      · exact ⟨t, hleft, hx⟩
      · by_cases ht : t = []
        · exact ⟨[], by simp [hleft, ht], by simp [ht]⟩
        · refine absurd ?_ hp.1
          rw [hleft, List.append_assoc, hafter, ← List.append_assoc]
          exact .parts ht (by simp [hrest]) (by rw [hliteral, List.append_assoc])
    obtain ⟨behind, rfl⟩ : ∃ behind, y = rest ++ behind := by
      rcases List.append_eq_append_iff.1 hafter with ⟨t, hrest', hafter'⟩ | ⟨t, hy, -⟩
      · by_cases ht : t = []
        · exact ⟨[], by simp [hrest', ht]⟩
        · refine absurd ?_ hp.2
          rw [hafter', ← List.append_assoc, ← List.append_assoc, List.append_assoc]
          exact .parts (by simp [hfirst]) ht (by rw [hliteral, hrest', List.append_assoc])
      · exact ⟨t, hy⟩
    exact ⟨lead, rfl, .parts hfirst hrest hliteral⟩

/-- A piece that does not cut a literal begins with no piece that cuts it, if the literal is not
divided at the end of that piece. -/
theorem not_cuts_initial (hp : ¬ p.Cuts left literal) (htext : p.text = x ++ y)
    (h : ∀ lead, left = p.before ++ lead → ¬ Divides lead literal x y) :
    ¬ (p.initial x).Cuts left literal := by
  rw [initial_eq htext]
  rintro (hcuts | hcuts)
  · exact hp (.inl (by rwa [htext, List.append_assoc]))
  · obtain ⟨lead, hlead, hdivides⟩ := exists_of_divides hp htext hcuts
    exact h lead hlead hdivides

/-- Nor does it end with one. -/
theorem not_cuts_final (hp : ¬ p.Cuts left literal) (htext : p.text = x ++ y)
    (h : ∀ lead, left = p.before ++ lead → ¬ Divides lead literal x y) :
    ¬ (p.final y).Cuts left literal := by
  rw [final_eq htext]
  rintro (hcuts | hcuts)
  · obtain ⟨lead, hlead, hdivides⟩ := exists_of_divides hp htext hcuts
    exact h lead hlead hdivides
  · exact hp (.inr (by rwa [htext, ← List.append_assoc]))

end

/-- What is read behind a name cuts no literal that the piece does not cut, if nothing before the
literal takes a part of it. -/
theorem not_cuts_rest {p : Piece} {left : Text} {l : Literal} {n : Naming} (hl : l.WellFormed)
    (htake : ∀ lead, left = p.before ++ lead → ¬ TakesPart lead l.text)
    (hp : ¬ p.Cuts left l.text) (h : Naming.read? p.text = some n) :
    ¬ (p.final n.rest).Cuts left l.text := by
  obtain ⟨name, htext, hlower, hname, hscan⟩ := Naming.exists_of_read? h
  rw [← List.append_assoc] at htext
  refine not_cuts_final hp htext fun lead heq => not_divides_of_name hl hlower ?_ (htake lead heq)
  cases hfactor : n.factor with
  | none => exact not_divides_nil_left
  | some l' => exact not_divides_of_factor hl (hscan l' hfactor) hname (htake lead heq)

/-- The parts of a piece cut no literal that the piece does not cut, if nothing before the literal
takes a part of it. -/
theorem not_cuts_of_part {p q : Piece} {left : Text} {l : Literal} (hl : l.WellFormed)
    (htake : ¬ TakesPart left l.text) (hp : ¬ p.Cuts left l.text) (h : p.Part q) :
    ¬ q.Cuts left l.text := by
  have htake' : ∀ lead, left = p.before ++ lead → ¬ TakesPart lead l.text := by
    rintro lead rfl htakes
    exact htake (htakes.append p.before)
  have hsymbol : ∀ c : Char, isLetter c = false → c ∉ l.text := by
    intro c hc hmem
    rw [isLetter_of_mem hl c hmem] at hc
    exact absurd hc (by decide)
  cases h with
  | left h =>
    obtain ⟨tier, c, hat, htext⟩ := Split.text_of_loosest? h
    exact not_cuts_initial hp htext fun lead _ => (not_divides_of_at? hl hat).1
  | right h =>
    obtain ⟨tier, c, hat, htext⟩ := Split.text_of_loosest? h
    exact not_cuts_final hp (htext.trans (List.append_cons _ _ _)) fun lead _ =>
      (not_divides_of_at? hl hat).2
  | operand h =>
    have htext := (List.dropLast_append_getLast? _ h).symm
    exact not_cuts_initial hp htext fun lead _ => not_divides_of_head (hsymbol '!' (by decide))
  | @factor n l' h hfactor =>
    obtain ⟨name, htext, -, hname, hscan⟩ := Naming.exists_of_read? h
    rw [hfactor] at htext
    exact not_cuts_initial hp htext fun lead heq =>
      not_divides_of_factor hl (hscan l' hfactor) hname (htake' lead heq)
  | @rest n h => exact not_cuts_rest hl htake' hp h
  | @item n args _ h hlist hitem =>
    obtain ⟨first, rest, rfl, hrest⟩ := ArgumentList.exists_of_read? hlist
    obtain ⟨⟨u, c, hc, hbefore⟩, d, hd, v, hafter⟩ :=
      exists_of_mem_items ⟨_, '[', by simp, rfl⟩ hitem
    rintro (hcuts | hcuts)
    · rw [hbefore] at hcuts
      refine not_divides_of_last (hsymbol c ?_) hcuts
      fin_cases hc <;> decide
    · rw [hafter] at hcuts
      refine not_divides_of_head (hsymbol d ?_) hcuts
      fin_cases hd <;> decide

end Piece

namespace Term

/-- No piece of a text that is read cuts a literal in the text, if nothing before the literal takes
a part of it. -/
theorem not_cuts_of_mem_pieces [Stack] {t left : Text} {l : Literal} (hl : l.WellFormed)
    (htake : ¬ TakesPart left l.text) : ∀ p ∈ pieces t, ¬ p.Cuts left l.text := by
  refine forall_mem_readAt (fun _ _ => Piece.not_cuts_of_part hl htake) Stack.levels 0 ?_
  rintro (hcuts | hcuts)
  · exact not_divides_nil_left hcuts
  · exact not_divides_nil_right hcuts

end Term

end Reckoner

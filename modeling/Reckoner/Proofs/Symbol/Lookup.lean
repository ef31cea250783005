import Mathlib
import Reckoner.Symbol.Lookup
import Reckoner.Text.Digit

/-!
# Names at the beginning of a text

No name goes on from the name of a function, so a function is found whatever follows its name
(`Symbol.atStart?_function`).  A constant is found where nothing follows it.
-/

namespace Reckoner

/-- In two rows that are related element by element, every element of the first one is related to
one of the second. -/
theorem exists_of_mem_forall₂ {α β : Type} {R : α → β → Prop} {l : List α} {l' : List β}
    (h : List.Forall₂ R l l') {a : α} (ha : a ∈ l) : ∃ b ∈ l', R a b := by
  induction h with
  | nil => exact absurd ha List.not_mem_nil
  | @cons x y l l' hxy h ih =>
    rcases List.mem_cons.1 ha with rfl | ha
    · exact ⟨y, List.mem_cons_self, hxy⟩
    · obtain ⟨b, hb, hab⟩ := ih ha
      exact ⟨b, List.mem_cons_of_mem y hb, hab⟩

/-! ## Lowercase forms -/

namespace Text

/-- Small letters are their own lowercase form, whatever follows them. -/
theorem lowercaseFrom_append {t : Text} (h : t.all (fun c => c.toNat < 128 && c.toLower == c))
    (before rest : Text) :
    lowercaseFrom before (t ++ rest) = t ++ lowercaseFrom (t.reverse ++ before) rest := by
  induction t generalizing before with
  | nil => rfl
  | cons c t ih =>
    simp only [List.all_cons, Bool.and_eq_true, decide_eq_true_eq, beq_iff_eq] at h
    obtain ⟨⟨hascii, hlower⟩, hrest⟩ := h
    have hdotted : c ≠ 'İ' := by
      rintro rfl
      exact absurd hascii (by decide)
    have hsigma : c ≠ 'Σ' := by
      rintro rfl
      exact absurd hascii (by decide)
    have hc : ∀ after, lowercaseAt before c after = [c] := by
      intro after
      rw [lowercaseAt, if_neg hdotted, if_neg hsigma, if_pos hascii, hlower]
    rw [List.cons_append, lowercaseFrom, hc, ih hrest]
    simp

/-- The lowercase form of a character begins with a character. -/
def LowersTo (c a : Char) : Prop := (lowercaseAt [] c []).head? = some a

instance (c a : Char) : Decidable (LowersTo c a) :=
  inferInstanceAs (Decidable ((lowercaseAt [] c []).head? = some a))

/-- A character is lowered to one character, but for the dotted capital.  If that is an ordinary
one, what stands around it does not matter. -/
theorem lowercaseAt_cases (before : Text) (c : Char) (after : Text) :
    c = 'İ' ∧ lowercaseAt before c after = ['i', '\u0307'] ∨
      ∃ d, lowercaseAt before c after = [d] ∧
        (d.toNat < 128 → ∀ before' after', lowercaseAt before' c after' = [d]) := by
  by_cases hdotted : c = 'İ'
  · exact .inl ⟨hdotted, if_pos hdotted⟩
  · right
    by_cases hsigma : c = 'Σ'
    · rw [lowercaseAt, if_neg hdotted, if_pos hsigma]
      split
      · exact ⟨'ς', rfl, fun h => absurd h (by decide)⟩
      · exact ⟨'σ', rfl, fun h => absurd h (by decide)⟩
    · have hlower : ∀ before' after', lowercaseAt before' c after' =
          if c.toNat < 128 then [c.toLower] else [smallLetter c] := by
        intro before' after'
        rw [lowercaseAt, if_neg hdotted, if_neg hsigma]
      simp only [hlower]
      split
      · exact ⟨c.toLower, rfl, fun _ _ _ => rfl⟩
      · exact ⟨smallLetter c, rfl, fun _ _ _ => rfl⟩

/-- But for the letter `i`, an ordinary character that a character is lowered to is all of its
lowercase form. -/
theorem LowersTo.lowercaseAt {c a : Char} (h : LowersTo c a) (ha : a.toNat < 128) (hi : a ≠ 'i')
    (before after : Text) : lowercaseAt before c after = [a] := by
  rcases lowercaseAt_cases [] c [] with ⟨-, hc⟩ | ⟨d, hc, hall⟩
  · rw [LowersTo, hc] at h
    exact absurd (Option.some.inj h).symm hi
  · rw [LowersTo, hc] at h
    obtain rfl : d = a := Option.some.inj h
    exact hall ha before after

/-- The lowercase form of a text wherever it stands. -/
def Spells (cut lowered : Text) : Prop :=
  ∀ before rest, lowercaseFrom before (cut ++ rest) =
    lowered ++ lowercaseFrom (cut.reverse ++ before) rest

theorem Spells.nil : Spells [] [] := by
  intro before rest
  rfl

theorem Spells.cons {c a : Char} {cut lowered : Text}
    (hc : ∀ before after, lowercaseAt before c after = [a]) (h : Spells cut lowered) :
    Spells (c :: cut) (a :: lowered) := by
  intro before rest
  rw [List.cons_append, lowercaseFrom, hc, h (c :: before) rest]
  simp

theorem Spells.dotted : Spells ['İ'] ['i', '\u0307'] := by
  intro before rest
  rfl

theorem Spells.lowercase_eq {cut lowered : Text} (h : Spells cut lowered) :
    cut.lowercase = lowered := by
  have hself := h [] []
  rw [List.append_nil, lowercaseFrom, List.append_nil] at hself
  exact hself

/-- Ordinary characters at the beginning of the lowercase form of a text are the lowercase forms of
as many of its characters.  The last one of these may be a dotted capital, and leaves its dot. -/
theorem exists_spells {letters : Text} (hascii : ∀ a ∈ letters, a.toNat < 128) {before t : Text}
    (h : letters <+: lowercaseFrom before t) :
    ∃ cut rest, t = cut ++ rest ∧ List.Forall₂ LowersTo cut letters ∧
      (Spells cut letters ∨ Spells cut (letters ++ ['\u0307'])) := by
  induction letters generalizing before t with
  | nil => exact ⟨[], t, rfl, .nil, .inl .nil⟩
  | cons a letters ih =>
    obtain ⟨ha, hletters⟩ := List.forall_mem_cons.1 hascii
    cases t with
    | nil => exact absurd (List.prefix_nil.1 h) (by simp)
    | cons c t =>
      rw [lowercaseFrom] at h
      rcases lowercaseAt_cases before c t with ⟨rfl, hc⟩ | ⟨d, hc, hall⟩
      · rw [hc] at h
        obtain ⟨rfl, hrest⟩ := List.cons_prefix_cons.1 h
        -- the combining dot is no ordinary character, so nothing else is spelled
        cases letters with
        | nil => exact ⟨['İ'], t, rfl, .cons rfl .nil, .inr .dotted⟩
        | cons b letters =>
          obtain ⟨rfl, -⟩ := List.cons_prefix_cons.1 hrest
          exact absurd (hletters '\u0307' (by simp)) (by decide)
      · rw [hc] at h
        obtain ⟨rfl, hrest⟩ := List.cons_prefix_cons.1 h
        obtain ⟨cut, rest, rfl, hcut, hspells⟩ := ih hletters hrest
        have hlower : LowersTo c a := by
          rw [LowersTo, hall ha]
          rfl
        refine ⟨c :: cut, rest, rfl, .cons hlower hcut, ?_⟩
        exact hspells.imp (.cons (hall ha)) (.cons (hall ha))

/-- A character that is in no run of capital letters is its own lowercase form. -/
theorem lowercaseAt_of_outside {c : Char} (hdotted : c ≠ 'İ') (hsigma : c ≠ 'Σ')
    (houtside : ∀ r ∈ caseRuns, c.toNat < r.first ∨ r.last < c.toNat) (before after : Text) :
    lowercaseAt before c after = [c] := by
  rw [lowercaseAt, if_neg hdotted, if_neg hsigma]
  split
  · -- the first run holds the ordinary capital letters
    have hcapital : c.toNat < 0x41 ∨ 0x5A < c.toNat :=
      houtside ⟨0x41, 0x5A, 1, 32⟩ List.mem_cons_self
    rw [Char.toLower, dif_neg]
    rintro ⟨hfirst, hlast⟩
    exact hcapital.elim (not_lt.2 hfirst) (not_lt.2 hlast)
  · have hnone : caseRuns.find? (·.holds c.toNat) = none := by
      rw [List.find?_eq_none]
      intro r hr hholds
      simp only [CaseRun.holds, Bool.and_eq_true, decide_eq_true_eq] at hholds
      exact (houtside r hr).elim (not_lt.2 hholds.1.1) (not_lt.2 hholds.1.2)
    rw [smallLetter, hnone]

/-- The digits are in as many runs, ten at a time if they are decimal. -/
theorem exists_range_of_isDigit {c : Char} (h : isDigit c = true) :
    ∃ r ∈ decimalZeros.map (fun first => (first, first + 9)) ++ otherDigitRanges,
      r.1 ≤ c.toNat ∧ c.toNat ≤ r.2 := by
  rw [isDigit, Bool.or_eq_true] at h
  rcases h with h | h
  · simp only [isDecimal, decimalValue?, Option.isSome_map, List.find?_isSome, Bool.and_eq_true,
      decide_eq_true_eq] at h
    obtain ⟨first, hfirst, hc⟩ := h
    refine ⟨(first, first + 9), List.mem_append_left _ (List.mem_map_of_mem hfirst), hc.1, ?_⟩
    exact Nat.le_of_lt_succ hc.2
  · obtain ⟨r, hr, hc⟩ := inRanges_iff.1 h
    exact ⟨r, List.mem_append_right _ hr, hc⟩

/-- A digit is its own lowercase form. -/
theorem lowercaseAt_of_isDigit {c : Char} (h : isDigit c = true) (before after : Text) :
    lowercaseAt before c after = [c] := by
  have hruns : (decimalZeros.map (fun first => (first, first + 9)) ++ otherDigitRanges).all
      (fun r => caseRuns.all fun run => r.2 < run.first || run.last < r.1) = true := by
    decide +kernel
  obtain ⟨r, hr, hfirst, hlast⟩ := exists_range_of_isDigit h
  refine lowercaseAt_of_outside ?_ ?_ (fun run hrun => ?_) before after
  · rintro rfl
    exact absurd h (by decide)
  · rintro rfl
    exact absurd h (by decide)
  · have hrun := List.all_eq_true.1 (List.all_eq_true.1 hruns r hr) run hrun
    rw [Bool.or_eq_true, decide_eq_true_eq, decide_eq_true_eq] at hrun
    exact hrun.imp hlast.trans_lt hfirst.trans_lt'

end Text

namespace Symbol

/-! ## The table -/

/-- The characters that names are written with. -/
def alphabet : Text :=
  ['a', 'b', 'c', 'e', 'f', 'g', 'h', 'i', 'k', 'l', 'm', 'n', 'o', 'p', 'q', 'r', 's', 't', 'u',
    'x', '0']

theorem mem_alphabet {s : Symbol} {c : Char} (h : c ∈ s.letters) : c ∈ alphabet := by
  have hall : all.all (fun s => s.letters.all alphabet.contains) = true := by decide
  simpa using List.all_eq_true.1 (List.all_eq_true.1 hall s s.mem_all) c h

/-- The only digit that a name is written with is the zero. -/
theorem eq_zero_of_isDigit {c a : Char} (hc : Text.isDigit c = true) (h : Text.LowersTo c a)
    (ha : a ∈ alphabet) : c = '0' ∧ a = '0' := by
  have hdigit : alphabet.all (fun a => !Text.isDigit a || a == '0') = true := by decide
  rw [Text.LowersTo, Text.lowercaseAt_of_isDigit hc] at h
  obtain rfl : c = a := Option.some.inj h
  have hzero : c = '0' := by simpa [hc] using List.all_eq_true.1 hdigit c ha
  exact ⟨hzero, hzero⟩

theorem letters_ne_nil (s : Symbol) : s.letters ≠ [] := by
  have hall : all.all (fun s => s.letters != []) = true := by decide
  simpa using List.all_eq_true.1 hall s s.mem_all

theorem isSmall_letters (s : Symbol) :
    s.letters.all (fun c => c.toNat < 128 && c.toLower == c) = true := by
  have hall : alphabet.all (fun c => c.toNat < 128 && c.toLower == c) = true := by decide
  exact List.all_eq_true.2 fun c hc => List.all_eq_true.1 hall c (mem_alphabet hc)

theorem toNat_lt_of_mem_letters {s : Symbol} {c : Char} (h : c ∈ s.letters) : c.toNat < 128 := by
  have hsmall := List.all_eq_true.1 s.isSmall_letters c h
  simp only [Bool.and_eq_true, decide_eq_true_eq] at hsmall
  exact hsmall.1

theorem letters_injective {s s' : Symbol} (h : s.letters = s'.letters) : s = s' := by
  have hall : all.all (fun s => all.all fun s' => s.letters != s'.letters || s == s') = true := by
    decide
  have hs := List.all_eq_true.1 (List.all_eq_true.1 hall s s.mem_all) s' s'.mem_all
  simpa [h] using hs

/-- No name goes on from the name of a function. -/
theorem length_le_of_isPrefix {f : MathFunction} {s : Symbol}
    (h : (function f).letters <+: s.letters) : s.letters.length ≤ (function f).letters.length := by
  have hall : MathFunction.all.all (fun f => all.all fun s =>
      !(function f).letters.isPrefixOf s.letters ||
        s.letters.length ≤ (function f).letters.length) = true := by
    decide
  have hs := List.all_eq_true.1 (List.all_eq_true.1 hall f f.mem_all) s s.mem_all
  rw [List.isPrefixOf_iff_prefix.2 h] at hs
  simpa using hs

/-- No name begins with a digit, and one name holds a digit. -/
theorem letters_of_digit {s : Symbol} (h : '0' ∈ s.letters) : s.letters = ['m', 'u', '0'] := by
  have hall : all.all (fun s => !s.letters.contains '0' || s.letters == ['m', 'u', '0']) =
      true := by
    decide
  have hs := List.all_eq_true.1 hall s s.mem_all
  simpa [h] using hs

/-! ## Names in a text -/

theorem mem_candidates {t : Text} {s : Symbol} : s ∈ candidates t ↔ s.letters <+: t := by
  simp [candidates, s.mem_all]

/-- A name that is found begins the lowercase form of the text. -/
theorem prefix_of_atStart? {t : Text} {s : Symbol} (h : atStart? t = some s) :
    s.letters <+: t.lowercase :=
  mem_candidates.1 (List.maxOn?_mem h)

/-- A name is found just when there is one. -/
theorem exists_atStart?_iff {t : Text} :
    (∃ s, atStart? t = some s) ↔ ∃ s : Symbol, s.letters <+: t.lowercase := by
  constructor
  · rintro ⟨s, hs⟩
    exact ⟨s, prefix_of_atStart? hs⟩
  · rintro ⟨s, hs⟩
    exact Option.isSome_iff_exists.1 (List.isSome_maxOn?_of_mem (mem_candidates.2 hs))

/-- The name that is found is the longest one. -/
theorem length_le_of_atStart? {t : Text} {s s' : Symbol} (h : atStart? t = some s)
    (h' : s'.letters <+: t.lowercase) : s'.letters.length ≤ s.letters.length := by
  have hle := List.le_apply_get_maxOn?_of_mem (f := fun s : Symbol => s.letters.length)
    (mem_candidates.2 h')
  rw [atStart?] at h
  simpa [h] using hle

/-- The longest name at the beginning of a text is found. -/
theorem atStart?_eq_some {t : Text} {s : Symbol} (h : s.letters <+: t.lowercase)
    (hlongest : ∀ s' : Symbol, s'.letters <+: t.lowercase →
      s'.letters.length ≤ s.letters.length) : atStart? t = some s := by
  obtain ⟨best, hbest⟩ := exists_atStart?_iff.2 ⟨s, h⟩
  have hbegins := prefix_of_atStart? hbest
  have heq : best.letters = s.letters := List.IsPrefix.eq_of_length
    (List.prefix_of_prefix_length_le hbegins h (hlongest best hbegins))
    (le_antisymm (hlongest best hbegins) (length_le_of_atStart? hbest h))
  rw [hbest, letters_injective heq]

/-- What is found at the beginning of a text is as many characters as the name has, in any case. -/
theorem exists_of_atStart? {t : Text} {s : Symbol} (h : atStart? t = some s) :
    ∃ cut, t = cut ++ t.drop s.letters.length ∧ List.Forall₂ Text.LowersTo cut s.letters := by
  obtain ⟨cut, rest, rfl, hcut, -⟩ :=
    Text.exists_spells (fun _ => toNat_lt_of_mem_letters) (prefix_of_atStart? h)
  exact ⟨cut, by rw [← hcut.length_eq, List.drop_left], hcut⟩

theorem atStart?_nil : atStart? [] = none := by
  decide

/-- The names are written in small letters, whatever follows them. -/
theorem lowercase_letters_append (s : Symbol) (rest : Text) :
    (s.letters ++ rest).lowercase = s.letters ++ Text.lowercaseFrom s.letters.reverse rest := by
  rw [Text.lowercase, Text.lowercaseFrom_append (isSmall_letters s), List.append_nil]

/-- A function is found whatever follows its name. -/
theorem atStart?_function (f : MathFunction) (rest : Text) :
    atStart? ((function f).letters ++ rest) = some (function f) := by
  have hprefix : (function f).letters <+: ((function f).letters ++ rest).lowercase := by
    rw [lowercase_letters_append]
    exact List.prefix_append _ _
  refine atStart?_eq_some hprefix ?_
  intro s hs
  by_contra hlt
  exact hlt (length_le_of_isPrefix (List.prefix_of_prefix_length_le hprefix hs (not_le.1 hlt).le))

/-- A constant is found where nothing follows it. -/
theorem atStart?_constant (c : MathConstant) :
    atStart? (constant c).letters = some (constant c) := by
  have hlower := lowercase_letters_append (constant c) []
  rw [List.append_nil, Text.lowercaseFrom, List.append_nil] at hlower
  apply atStart?_eq_some
  · rw [hlower]
  · intro s hs
    rw [hlower] at hs
    exact hs.length_le

end Symbol

end Reckoner

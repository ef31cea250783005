import Mathlib
import Reckoner.Proofs.Settings.Integer
import Reckoner.Settings.Limit

/-!
# Reading a limit

A limit is the number that its setting denotes, if this is a whole number that is not negative, and
otherwise the default.  A warning is logged for a setting that is neither blank nor such a number,
and for no other (`readLimit_spec`).
-/

namespace Reckoner

/-- The setting is a whole number that a limit can have. -/
def IsLimit (setting : Option Text) (n : Int) : Prop := ∃ t ∈ setting, t.Denotes n ∧ 0 ≤ n

/-- Something is written in the setting, and it is no limit. -/
def IsUnusable (setting : Option Text) : Prop :=
  (∃ t ∈ setting, t.isBlankText = false) ∧ ∀ n, ¬ IsLimit setting n

/-- The setting does not have more digits than are read. -/
def IsShortSetting (setting : Option Text) : Prop :=
  ∀ t ∈ setting, t.countP Text.isDecimal ≤ Text.maxIntegerDigits

/-- A whole number is not blank. -/
theorem Text.Denotes.isBlankText_eq {t : Text} {n : Int} (h : t.Denotes n) :
    t.isBlankText = false := by
  obtain ⟨w, hw, rfl, -⟩ := h
  obtain ⟨c, rest, hbody, hc⟩ := WrittenInteger.exists_body hw
  refine isBlankText_eq_false ?_ (not_isBlank_of_isDecimal hc)
  rw [WrittenInteger.text, hbody]
  simp

section

variable (name : String) (default : Int) {setting : Option Text} {t : Text} {n : Int}

/-- Nothing in the setting means the default. -/
theorem readLimit_of_blank (h : ∀ t ∈ setting, t.isBlankText = true) :
    readLimit name default setting = ⟨default, []⟩ := by
  cases setting with
  | none => rfl
  | some t => rw [readLimit, Text.isEmpty_trim, h t rfl, if_pos rfl]

/-- A whole number is the limit unless it is negative. -/
theorem readLimit_of_denotes (h : t.Denotes n) (hshort : IsShortSetting (some t)) :
    readLimit name default (some t) =
      if n < 0 then ⟨default, [⟨.warning, s!"{name}={n} is negative. " ++ usingDefault default,
        rootLogger⟩]⟩
      else ⟨n, []⟩ := by
  have hread : Text.readInteger t = .ok n := Text.readInteger_eq_ok_iff.2 ⟨h, hshort t rfl⟩
  rw [readLimit, Text.isEmpty_trim, h.isBlankText_eq, if_neg Bool.false_ne_true, hread]

/-- Any other text means the default. -/
theorem readLimit_of_not_denotes (hblank : t.isBlankText = false) (h : ∀ n, ¬ t.Denotes n) :
    readLimit name default (some t) =
      ⟨default, [⟨.warning, s!"{name}={String.ofList t.quoted} is not an integer. " ++
        usingDefault default, rootLogger⟩]⟩ := by
  rw [readLimit, Text.isEmpty_trim, hblank, if_neg Bool.false_ne_true]
  cases hread : Text.readInteger t with
  | ok n => exact absurd (Text.readInteger_eq_ok_iff.1 hread).1 (h n)
  | error fault => rfl

/-- The setting is a limit and is read as it. -/
theorem readLimit_of_isLimit (h : IsLimit setting n) (hshort : IsShortSetting setting) :
    readLimit name default setting = ⟨n, []⟩ := by
  obtain ⟨t, ht, hn, hnonneg⟩ := h
  obtain rfl := Option.mem_def.1 ht
  rw [readLimit_of_denotes name default hn hshort, if_neg (not_lt.2 hnonneg)]

/-- A setting that is no limit is complained about. -/
theorem exists_readLimit_of_isUnusable (h : IsUnusable setting) (hshort : IsShortSetting setting) :
    ∃ complaint, readLimit name default setting =
      ⟨default, [⟨.warning, complaint ++ usingDefault default, rootLogger⟩]⟩ := by
  obtain ⟨⟨t, ht, hblank⟩, hnone⟩ := h
  obtain rfl := Option.mem_def.1 ht
  by_cases hdenotes : ∃ n, t.Denotes n
  · obtain ⟨n, hn⟩ := hdenotes
    have hnegative : n < 0 := by
      by_contra hnonneg
      exact hnone n ⟨t, rfl, hn, not_lt.1 hnonneg⟩
    rw [readLimit_of_denotes name default hn hshort, if_pos hnegative]
    exact ⟨_, rfl⟩
  · exact ⟨_, readLimit_of_not_denotes name default hblank fun n hn => hdenotes ⟨n, hn⟩⟩

/-- No setting makes a limit negative. -/
theorem readLimit_nonneg (hdefault : 0 ≤ default) (setting : Option Text) :
    0 ≤ (readLimit name default setting).value := by
  cases setting with
  | none => exact hdefault
  | some t =>
    rw [readLimit]
    split
    · exact hdefault
    · split
      · exact hdefault
      · split
        · exact hdefault
        · rename_i hnonneg
          exact not_lt.1 hnonneg

/-- Every setting is blank, a limit or neither. -/
theorem isBlank_or_isLimit_or_isUnusable (setting : Option Text) :
    (∀ t ∈ setting, t.isBlankText = true) ∨ (∃ n, IsLimit setting n) ∨ IsUnusable setting := by
  by_cases hblank : ∃ t ∈ setting, t.isBlankText = false
  · by_cases hlimit : ∃ n, IsLimit setting n
    · exact .inr (.inl hlimit)
    · exact .inr (.inr ⟨hblank, not_exists.1 hlimit⟩)
  · refine .inl fun t ht => ?_
    by_contra hnot
    exact hblank ⟨t, ht, Bool.eq_false_of_not_eq_true hnot⟩

end

/-! ## The decimal text of a limit -/

/-- A number in decimal digits, with zeros before them. -/
def plainInteger (left : Text) (plus : Option Char) (zeros n : Nat) (right : Text) :
    Text.WrittenInteger :=
  ⟨left, plus, [List.replicate zeros '0' ++ Text.ofNat n], right⟩

section

variable {left right : Text} {plus : Option Char} (zeros n : Nat)

theorem text_plainInteger : (plainInteger left plus zeros n right).text =
    left ++ (plus.toList ++ (List.replicate zeros '0' ++ Text.ofNat n ++ right)) := by
  rw [Text.WrittenInteger.text, Text.WrittenInteger.body, plainInteger, List.intercalate_singleton]

theorem digits_plainInteger : (plainInteger left plus zeros n right).digits =
    List.replicate zeros '0' ++ Text.ofNat n :=
  List.flatten_singleton

theorem value_plainInteger (hplus : ∀ c ∈ plus, c = '+') :
    (plainInteger left plus zeros n right).value = n := by
  have hminus : plus ≠ some '-' := by
    intro h
    exact absurd (hplus '-' h) (by decide)
  have hmagnitude : (plainInteger left plus zeros n right).magnitude = n := by
    rw [Text.WrittenInteger.magnitude, digits_plainInteger, ← Text.digitsValue_eq_ofDigits,
      Text.digitsValue_zeros_ofNat]
  rw [Text.WrittenInteger.value, hmagnitude]
  exact if_neg hminus

theorem wellFormed_plainInteger (hleft : ∀ c ∈ left, c = ' ' ∨ c = '\t')
    (hright : ∀ c ∈ right, c = ' ' ∨ c = '\t') (hplus : ∀ c ∈ plus, c = '+') :
    (plainInteger left plus zeros n right).WellFormed := by
  have hblank : ∀ c, c = ' ' ∨ c = '\t' → Text.isIntegerBlank c = true := by
    rintro c (rfl | rfl) <;> decide
  refine ⟨fun c hc => hblank c (hleft c hc), fun c hc => .inl (hplus c hc),
    List.cons_ne_nil _ _, ?_, ?_, fun c hc => hblank c (hright c hc)⟩
  · intro run hrun
    rw [List.mem_singleton.1 hrun]
    exact List.append_ne_nil_of_right_ne_nil _ (Text.ofNat_ne_nil n)
  · intro run hrun c hc
    rw [List.mem_singleton.1 hrun] at hc
    apply Text.isDecimal_of_isDigit
    rcases List.mem_append.1 hc with hzero | hdigit
    · exact Text.isDigit_of_mem_zeros hzero
    · exact Text.isDigit_of_mem_ofNat hdigit

end

/-- The limit that is read is never negative: it is the number that the setting denotes where this
is one that a limit can have, and otherwise the default.  A warning that ends with the default is
logged just when the setting is unusable.  Every number is a limit, and is read from its decimal
digits with spaces and tabs around them, a plus or none, and any zeros before them. -/
theorem readLimit_spec (name : String) {default : Int} (hdefault : 0 ≤ default) :
    (∀ setting, IsShortSetting setting →
      0 ≤ (readLimit name default setting).value ∧
      (∀ n, IsLimit setting n → (readLimit name default setting).value = n) ∧
      ((∀ n, ¬ IsLimit setting n) → (readLimit name default setting).value = default) ∧
      (IsUnusable setting → ∃ complaint, (readLimit name default setting).log =
        [⟨.warning, complaint ++ usingDefault default, rootLogger⟩]) ∧
      (¬ IsUnusable setting → (readLimit name default setting).log = [])) ∧
    ∀ (n zeros : Nat) (left right : Text) (plus : Option Char),
      (∀ c ∈ left, c = ' ' ∨ c = '\t') → (∀ c ∈ right, c = ' ' ∨ c = '\t') →
      (∀ c ∈ plus, c = '+') → zeros + (Text.ofNat n).length ≤ Text.maxIntegerDigits →
      readLimit name default (some (left ++ (plus.toList ++
        (List.replicate zeros '0' ++ Text.ofNat n ++ right)))) = ⟨n, []⟩ := by
  constructor
  · intro setting hshort
    refine ⟨readLimit_nonneg name default hdefault setting, ?_⟩
    rcases isBlank_or_isLimit_or_isUnusable setting with hblank | ⟨n, hn⟩ | hunusable
    · rw [readLimit_of_blank name default hblank]
      refine ⟨?_, fun _ => rfl, ?_, fun _ => rfl⟩
      · rintro n ⟨t, ht, hn, -⟩
        have hwritten := hn.isBlankText_eq
        rw [hblank t ht] at hwritten
        contradiction
      · rintro ⟨⟨t, ht, hwritten⟩, -⟩
        rw [hblank t ht] at hwritten
        contradiction
    · have hread := readLimit_of_isLimit name default hn hshort
      rw [hread]
      refine ⟨?_, fun hnone => absurd hn (hnone n), fun h => absurd hn (h.2 n), fun _ => rfl⟩
      intro m hm
      rw [readLimit_of_isLimit name default hm hshort] at hread
      exact (congrArg ReadLimit.value hread).symm
    · obtain ⟨complaint, hread⟩ := exists_readLimit_of_isUnusable name default hunusable hshort
      rw [hread]
      exact ⟨fun n hn => absurd hn (hunusable.2 n), fun _ => rfl, fun _ => ⟨complaint, rfl⟩,
        fun h => absurd hunusable h⟩
  · intro n zeros left right plus hleft hright hplus hlength
    have hwritten := wellFormed_plainInteger zeros n hleft hright hplus
    have hcount := Text.WrittenInteger.countP_text hwritten
    rw [digits_plainInteger, List.length_append, List.length_replicate] at hcount
    rw [← text_plainInteger]
    refine readLimit_of_isLimit name default ?_ ?_
    · exact ⟨_, rfl, ⟨_, hwritten, rfl, value_plainInteger zeros n hplus⟩, Int.natCast_nonneg n⟩
    · rintro t ⟨⟩
      rwa [hcount]

/-- A limit in digits of two scripts, with an underscore between them. -/
theorem readLimit_twoScripts :
    (0 : Int) ≤ 8 ∧ IsShortSetting (some ['\t', '+', '٤', '_', '2', ' ']) ∧
      IsLimit (some ['\t', '+', '٤', '_', '2', ' ']) 42 ∧
      (readLimit "MATH_MAX_ROLLS_VERBOSE_DICE" 8
        (some ['\t', '+', '٤', '_', '2', ' '])).value = 42 := by
  have hshort : IsShortSetting (some ['\t', '+', '٤', '_', '2', ' ']) := by
    rintro t ⟨⟩
    decide
  have hlimit : IsLimit (some ['\t', '+', '٤', '_', '2', ' ']) 42 := by
    have hwritten : (⟨['\t'], some '+', [['٤'], ['2']], [' ']⟩ :
        Text.WrittenInteger).WellFormed := by
      have hruns : [['٤'], ['2']].all (·.all Text.isDecimal) = true := by decide
      refine ⟨List.forall_mem_singleton.2 (by decide), ?_, List.cons_ne_nil _ _, by decide, ?_,
        List.forall_mem_singleton.2 (by decide)⟩
      · rintro c ⟨⟩
        exact .inl rfl
      · simpa only [List.all_eq_true] using hruns
    exact ⟨_, rfl, ⟨_, hwritten, by decide, by decide⟩, by decide⟩
  exact ⟨by decide, hshort, hlimit,
    ((readLimit_spec "MATH_MAX_ROLLS_VERBOSE_DICE" (by decide)).1 _ hshort).2.1 42 hlimit⟩

end Reckoner

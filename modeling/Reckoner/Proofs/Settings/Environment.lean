import Mathlib
import Reckoner.Proofs.Settings.Limit
import Reckoner.Settings.Environment

/-!
# Reading the settings

An id is the number that its decimal digits denote.  Other digits, such as a superscript two, pass
for digits where an id is looked at and for no number where it is read, and so do more digits than
are read.  Such an id is the only thing that stops the settings from being read, and whatever else
is in the environment, an id that is not of decimal digits counts as absent and no limit is negative
(`readSettings_spec`).
-/

namespace Reckoner

/-! ## Digits of a wider class -/

namespace Text

theorem inRanges_eq_false {ranges others : List (Nat × Nat)} {c : Char}
    (hapart : (ranges.all fun r => others.all fun s => r.2 < s.1 || s.2 < r.1) = true)
    (h : inRanges ranges c = true) : inRanges others c = false := by
  obtain ⟨r, hr, hlow, hhigh⟩ := inRanges_iff.1 h
  rw [inRanges, List.any_eq_false]
  intro s hs
  have hdisjoint := List.all_eq_true.1 (List.all_eq_true.1 hapart r hr) s hs
  simp only [Bool.or_eq_true, Bool.and_eq_true, decide_eq_true_eq] at hdisjoint ⊢
  omega

/-- No digit is blank, whether it has a decimal value or not. -/
theorem not_isBlank_of_isDigitClass {c : Char} (h : isDigit c = true) : isBlank c = false := by
  rcases Bool.or_eq_true_iff.1 h with hdecimal | hother
  · exact not_isBlank_of_isDecimal hdecimal
  · exact inRanges_eq_false (by decide) hother

/-- A whole number of digits only is of decimal digits only. -/
theorem Denotes.isDecimal {t : Text} {n : Int} (h : t.Denotes n)
    (hdigits : ∀ c ∈ t, isDigit c = true) : ∀ c ∈ t, isDecimal c = true := by
  obtain ⟨w, hw, rfl, -⟩ := h
  intro c hc
  have hdigit := hdigits c hc
  have hblank := not_isIntegerBlank (not_isBlank_of_isDigitClass hdigit)
  simp only [WrittenInteger.text, List.mem_append] at hc
  rcases hc with hleft | hsign | hbody | hright
  · rw [hw.left c hleft] at hblank
    contradiction
  · rcases hw.sign c (Option.mem_toList.1 hsign) with rfl | rfl
    · exact absurd hdigit (by decide)
    · exact absurd hdigit (by decide)
  · rcases Bool.or_eq_true_iff.1 (isIntegerPart_of_mem_intercalate hw.isDecimal c hbody) with
      hdecimal | hunderscore
    · exact hdecimal
    · rw [eq_of_beq hunderscore] at hdigit
      exact absurd hdigit (by decide)
  · rw [hw.right c hright] at hblank
    contradiction

/-- Decimal digits denote their number. -/
theorem denotes_of_isDecimal {t : Text} (hne : t ≠ []) (h : ∀ c ∈ t, isDecimal c = true) :
    t.Denotes (Nat.ofDigits 10 (t.reverse.map digitValue) : Nat) := by
  refine ⟨⟨[], none, [t], []⟩, ⟨?_, ?_, List.cons_ne_nil _ _, ?_, ?_, ?_⟩, ?_, ?_⟩
  · exact List.forall_mem_nil _
  · rintro c ⟨⟩
  · exact List.forall_mem_singleton.2 hne
  · exact List.forall_mem_singleton.2 h
  · exact List.forall_mem_nil _
  · simp [WrittenInteger.text, WrittenInteger.body]
  · simp [WrittenInteger.value, WrittenInteger.magnitude, WrittenInteger.digits]

end Text

/-! ## Ids -/

/-- The text consists of decimal digits. -/
def IsDecimalId (t : Text) : Prop := t ≠ [] ∧ ∀ c ∈ t, Text.isDecimal c = true

/-- The id that a setting means: the number of its decimal digits, and none for any other text. -/
structure IsIdOf (setting : Option Text) (id : Option Int) : Prop where
  /-- Decimal digits mean their number. -/
  decimal : ∀ t ∈ setting, IsDecimalId t →
    id = some ((Nat.ofDigits 10 (t.reverse.map Text.digitValue) : Nat) : Int)
  /-- Any other text means no id. -/
  other : (∀ t ∈ setting, ¬ IsDecimalId t) → id = none

/-- The text consists of digits and cannot be read: one of them has no decimal value, or there are
more than are read. -/
structure IsFaultyId (t : Text) : Prop where
  /-- There is a digit. -/
  ne_nil : t ≠ []
  /-- There are digits only. -/
  isDigit : ∀ c ∈ t, Text.isDigit c = true
  /-- They are not read as a number. -/
  unreadable : (∃ c ∈ t, Text.isDecimal c = false) ∨ Text.maxIntegerDigits < t.length

/-- Reading a faulty id fails. -/
theorem exists_readId_eq_error {t : Text} (h : IsFaultyId t) :
    ∃ fault, readId (some t) = .error ⟨t, fault⟩ := by
  have hdigits : (t.isEmpty || !t.all Text.isDigit) = false := by
    simpa [h.ne_nil] using h.isDigit
  cases hread : Text.readInteger t with
  | error fault =>
    refine ⟨fault, ?_⟩
    simp only [readId, hdigits, hread]
    rfl
  | ok n =>
    -- a number of digits only is of decimal digits only, and then all of them are counted
    obtain ⟨hdenotes, hcount⟩ := Text.readInteger_eq_ok_iff.1 hread
    have hdecimal := hdenotes.isDecimal h.isDigit
    rw [List.countP_eq_length.2 hdecimal] at hcount
    rcases h.unreadable with ⟨c, hc, hother⟩ | hlong
    · rw [hdecimal c hc] at hother
      contradiction
    · exact absurd hcount (not_le.2 hlong)

/-- Any other id is read. -/
theorem exists_readId_eq_ok {setting : Option Text} (h : ∀ t ∈ setting, ¬ IsFaultyId t) :
    ∃ id, readId setting = .ok id ∧ IsIdOf setting id := by
  cases setting with
  | none => exact ⟨none, rfl, ⟨fun t ht => absurd ht (by simp), fun _ => rfl⟩⟩
  | some t =>
    by_cases hdigits : (t.isEmpty || !t.all Text.isDigit) = true
    · refine ⟨none, by rw [readId, if_pos hdigits], ⟨?_, fun _ => rfl⟩⟩
      rintro t ⟨⟩ ⟨hne, hdecimal⟩
      have hall : t.all Text.isDigit = true := by
        refine List.all_eq_true.2 fun c hc => ?_
        rw [Text.isDigit, hdecimal c hc, Bool.true_or]
      rw [hall, List.isEmpty_eq_false_iff.2 hne] at hdigits
      contradiction
    · obtain ⟨hne, hall⟩ : t ≠ [] ∧ ∀ c ∈ t, Text.isDigit c = true := by
        simpa using hdigits
      have hreadable : ¬ ((∃ c ∈ t, Text.isDecimal c = false) ∨
          Text.maxIntegerDigits < t.length) := fun hfault => h t rfl ⟨hne, hall, hfault⟩
      obtain ⟨hdecimal, hshort⟩ := not_or.1 hreadable
      have hdecimal : ∀ c ∈ t, Text.isDecimal c = true := by simpa using hdecimal
      have hread := Text.readInteger_eq_ok_iff.2 ⟨Text.denotes_of_isDecimal hne hdecimal,
        List.countP_le_length.trans (not_lt.1 hshort)⟩
      refine ⟨_, by rw [readId, if_neg hdigits, hread], ⟨?_, fun hnone => ?_⟩⟩
      · rintro t ⟨⟩ -
        rfl
      · exact absurd ⟨hne, hdecimal⟩ (hnone t rfl)

/-! ## The environment -/

/-- The text of a variable, if it is set. -/
def textOf (environment : Environment) (name : String) : Option Text :=
  (environment.lookup name).map String.toList

/-- No limit is negative. -/
structure Limits.IsNonneg (limits : Limits) : Prop where
  dice : 0 ≤ limits.dice
  listedDice : 0 ≤ limits.listedDice
  listedChars : 0 ≤ limits.listedChars
  steps : 0 ≤ limits.steps

/-- Settings whose ids are read have no negative limit. -/
theorem exists_readSettings_eq_ok {environment : Environment} {ownerId channelId : Option Int}
    (howner : readId (textOf environment "OWNER_ID") = .ok ownerId)
    (hchannel : readId (textOf environment "SYSTEM_CHANNEL_ID") = .ok channelId) :
    ∃ read, readSettings environment = .ok read ∧ read.settings.ownerId = ownerId ∧
      read.settings.systemChannelId = channelId ∧ read.settings.limits.IsNonneg := by
  rw [textOf] at howner hchannel
  refine ⟨_, by simp only [readSettings, howner, hchannel]; rfl, rfl, rfl, ⟨?_, ?_, ?_, ?_⟩⟩ <;>
    exact readLimit_nonneg _ _ (by decide) _

/-- An id of the owner that is not read stops the settings. -/
theorem readSettings_of_owner {environment : Environment} {fault : IdFault}
    (howner : readId (textOf environment "OWNER_ID") = .error fault) :
    readSettings environment = .error fault := by
  rw [textOf] at howner
  simp only [readSettings, howner]
  rfl

/-- So does an id of the channel. -/
theorem readSettings_of_channel {environment : Environment} {ownerId : Option Int}
    {fault : IdFault} (howner : readId (textOf environment "OWNER_ID") = .ok ownerId)
    (hchannel : readId (textOf environment "SYSTEM_CHANNEL_ID") = .error fault) :
    readSettings environment = .error fault := by
  rw [textOf] at howner hchannel
  simp only [readSettings, howner, hchannel]
  rfl

/-- No limit that is read from an environment is negative. -/
theorem isNonneg_of_readSettings {environment : Environment} {read : ReadSettings}
    (h : readSettings environment = .ok read) : read.settings.limits.IsNonneg := by
  cases howner : readId (textOf environment "OWNER_ID") with
  | error fault => cases (readSettings_of_owner howner).symm.trans h
  | ok ownerId =>
    cases hchannel : readId (textOf environment "SYSTEM_CHANNEL_ID") with
    | error fault => cases (readSettings_of_channel howner hchannel).symm.trans h
    | ok channelId =>
      obtain ⟨_, hread, -, -, hlimits⟩ := exists_readSettings_eq_ok howner hchannel
      cases hread.symm.trans h
      exact hlimits

/-- The settings are read from every environment but one with a faulty id, which is reported, the
one of the owner first.  Each id is the number that its text denotes if this consists of decimal
digits, and absent otherwise, and no limit is negative. -/
theorem readSettings_spec (environment : Environment) :
    ((∀ t ∈ textOf environment "OWNER_ID", ¬ IsFaultyId t) →
      (∀ t ∈ textOf environment "SYSTEM_CHANNEL_ID", ¬ IsFaultyId t) →
      ∃ read, readSettings environment = .ok read ∧
        IsIdOf (textOf environment "OWNER_ID") read.settings.ownerId ∧
        IsIdOf (textOf environment "SYSTEM_CHANNEL_ID") read.settings.systemChannelId ∧
        read.settings.limits.IsNonneg) ∧
    (∀ t ∈ textOf environment "OWNER_ID", IsFaultyId t →
      ∃ fault, readSettings environment = .error ⟨t, fault⟩) ∧
    ((∀ t ∈ textOf environment "OWNER_ID", ¬ IsFaultyId t) →
      ∀ t ∈ textOf environment "SYSTEM_CHANNEL_ID", IsFaultyId t →
        ∃ fault, readSettings environment = .error ⟨t, fault⟩) := by
  refine ⟨fun howner hchannel => ?_, fun t ht hfaulty => ?_, fun howner t ht hfaulty => ?_⟩
  · obtain ⟨ownerId, hreadOwner, hownerId⟩ := exists_readId_eq_ok howner
    obtain ⟨channelId, hreadChannel, hchannelId⟩ := exists_readId_eq_ok hchannel
    obtain ⟨read, hread, rfl, rfl, hlimits⟩ := exists_readSettings_eq_ok hreadOwner hreadChannel
    exact ⟨read, hread, hownerId, hchannelId, hlimits⟩
  · obtain ⟨fault, hread⟩ := exists_readId_eq_error hfaulty
    rw [← Option.mem_def.1 ht] at hread
    exact ⟨fault, readSettings_of_owner hread⟩
  · obtain ⟨ownerId, hreadOwner, -⟩ := exists_readId_eq_ok howner
    obtain ⟨fault, hread⟩ := exists_readId_eq_error hfaulty
    rw [← Option.mem_def.1 ht] at hread
    exact ⟨fault, readSettings_of_channel hreadOwner hread⟩

/-- A superscript two is a digit without a decimal value, and no settings are read. -/
theorem readSettings_superscript :
    readSettings [("OWNER_ID", "²")] = .error ⟨['²'], .malformed⟩ ∧
      IdFault.message ⟨['²'], .malformed⟩ = "invalid literal for int() with base 10: '²'" := by
  decide +kernel

end Reckoner

import Mathlib
import Reckoner.Proofs.Settings.Prefix
import Reckoner.Proofs.Symbol.Lookup

/-!
# The prefix of a message

A message is matched with the lowercase forms of the prefixes.  A prefix ends in a space, and only a
space is lowered to a space, so what is matched is a beginning of the message that has the same
lowercase form.  The cut is as long as the prefix.  It is the matched beginning unless the two hold
the dotted capital `İ`, the one letter with two characters in its lowercase form, a different number
of times (`commandPrefixes_spec`).
-/

namespace Reckoner

namespace Text

/-! ## The length of a lowercase form -/

theorem length_lowercaseAt (before : Text) (c : Char) (after : Text) :
    (lowercaseAt before c after).length = 1 + if c = 'İ' then 1 else 0 := by
  by_cases hc : c = 'İ'
  · simp [lowercaseAt, hc]
  · rcases lowercaseAt_cases before c after with ⟨hdotted, -⟩ | ⟨d, hd, -⟩
    · exact absurd hdotted hc
    · simp [hd, hc]

theorem length_lowercaseFrom (before t : Text) :
    (lowercaseFrom before t).length = t.length + t.count 'İ' := by
  induction t generalizing before with
  | nil => rfl
  | cons c t ih =>
    rw [lowercaseFrom, List.length_append, length_lowercaseAt, ih, List.count_cons,
      List.length_cons]
    simp only [beq_iff_eq]
    omega

/-! ## Spaces -/

theorem space_lt_of_mem_caseRuns {run : CaseRun} (h : run ∈ caseRuns) :
    32 < run.first + run.shift := by
  have hall : caseRuns.all (fun r => 32 < r.first + r.shift) = true := by
    decide +kernel
  simpa using List.all_eq_true.1 hall run h

theorem smallLetter_ne_space {c : Char} (h : c ≠ ' ') : smallLetter c ≠ ' ' := by
  rw [smallLetter]
  split
  · rename_i run hfind
    intro hspace
    have hrun := space_lt_of_mem_caseRuns (List.mem_of_find?_eq_some hfind)
    have hfirst : run.first ≤ c.toNat := by
      have hholds := List.find?_some hfind
      simp only [CaseRun.holds, Bool.and_eq_true, decide_eq_true_eq] at hholds
      exact hholds.1.1
    have hvalue : (Char.ofNat (c.toNat + run.shift).toNat).toNat = 32 := by
      rw [hspace]
      rfl
    rw [Char.toNat_ofNat] at hvalue
    split at hvalue
    · omega
    · contradiction
  · exact h

theorem toLower_ne_space {c : Char} (h : c ≠ ' ') (hascii : c.toNat < 128) : c.toLower ≠ ' ' := by
  have hall : ∀ n < 128, (Char.ofNat n).toLower = ' ' → Char.ofNat n = ' ' := by decide
  intro hspace
  have hc := hall c.toNat hascii
  rw [Char.ofNat_toNat] at hc
  exact h (hc hspace)

/-- Only a space is lowered to a space. -/
theorem space_not_mem_lowercaseAt {c : Char} (h : c ≠ ' ') (before after : Text) :
    ' ' ∉ lowercaseAt before c after := by
  rw [lowercaseAt]
  split
  · decide
  · split
    · split <;> decide
    · split
      · rename_i hascii
        simpa using (toLower_ne_space h hascii).symm
      · simpa using (smallLetter_ne_space h).symm

/-- A space ends the word before it, whatever follows. -/
theorem meetsCased_append_space (u rest : Text) :
    meetsCased (u ++ ' ' :: rest) = meetsCased (u ++ [' ']) := by
  have hspace : inRanges caseIgnorableRanges ' ' = false := by decide +kernel
  induction u with
  | nil => simp [meetsCased, hspace]
  | cons c u ih =>
    cases hc : inRanges caseIgnorableRanges c with
    | false => simp [meetsCased, hc]
    | true => simpa [meetsCased, hc] using ih

theorem lowercaseAt_append_space (before : Text) (c : Char) (u rest : Text) :
    lowercaseAt before c (u ++ ' ' :: rest) = lowercaseAt before c (u ++ [' ']) := by
  rw [lowercaseAt, lowercaseAt, meetsCased_append_space]

/-- A text with a space at its end that begins two texts, of which the first one has no space, goes
on in the second one. -/
theorem exists_of_prefix_append {l lowered t : Text} (hno : ' ' ∉ l)
    (h : lowered ++ [' '] <+: l ++ t) :
    ∃ lowered', lowered = l ++ lowered' ∧ lowered' ++ [' '] <+: t := by
  have hle : l.length ≤ lowered.length := by
    by_contra hlt
    have hbegin : lowered ++ [' '] <+: l := by
      refine List.prefix_of_prefix_length_le h (List.prefix_append l t) ?_
      simp only [List.length_append, List.length_singleton]
      omega
    exact hno (hbegin.subset (by simp))
  have hl : l <+: lowered := by
    have hboth := (List.prefix_append lowered [' ']).trans h
    exact List.prefix_of_prefix_length_le (List.prefix_append l t) hboth hle
  obtain ⟨lowered', rfl⟩ := hl
  rw [List.append_assoc, List.prefix_append_right_inj] at h
  exact ⟨lowered', rfl, h⟩

/-- What is lowered to a text that ends in a space ends in a space, and has the same lowercase form
where the text goes on. -/
theorem exists_of_prefix_lowercaseFrom {lowered before t : Text}
    (h : lowered ++ [' '] <+: lowercaseFrom before t) :
    ∃ u rest, t = u ++ ' ' :: rest ∧ lowercaseFrom before (u ++ [' ']) = lowered ++ [' '] := by
  induction t generalizing lowered before with
  | nil =>
    rw [lowercaseFrom, List.prefix_nil] at h
    simp at h
  | cons c t ih =>
    rw [lowercaseFrom] at h
    by_cases hc : c = ' '
    · subst hc
      have hspace (after : Text) : lowercaseAt before ' ' after = [' '] := rfl
      rw [hspace, List.singleton_append] at h
      cases lowered with
      | nil => exact ⟨[], t, rfl, rfl⟩
      | cons a lowered =>
        obtain ⟨rfl, hrest⟩ := List.cons_prefix_cons.1 h
        obtain ⟨u, rest, rfl, hu⟩ := ih hrest
        refine ⟨' ' :: u, rest, rfl, ?_⟩
        rw [List.cons_append, lowercaseFrom, hspace, hu]
        rfl
    · -- the lowercase form of the character has no space, so it lies before the one of the prefix
      have hno := space_not_mem_lowercaseAt hc before t
      obtain ⟨lowered', rfl, hrest⟩ : ∃ lowered', lowered = lowercaseAt before c t ++ lowered' ∧
          lowered' ++ [' '] <+: lowercaseFrom (c :: before) t :=
        exists_of_prefix_append hno h
      obtain ⟨u, rest, rfl, hu⟩ := ih hrest
      refine ⟨c :: u, rest, rfl, ?_⟩
      rw [List.cons_append, lowercaseFrom, hu, ← lowercaseAt_append_space before c u rest,
        List.append_assoc]

/-- The lowercase form of a text with a space at its end has one there. -/
theorem exists_lowercaseFrom_append_space (before core : Text) :
    ∃ lowered, lowercaseFrom before (core ++ [' ']) = lowered ++ [' '] := by
  induction core generalizing before with
  | nil => exact ⟨[], rfl⟩
  | cons c core ih =>
    obtain ⟨lowered, hlowered⟩ := ih (c :: before)
    refine ⟨lowercaseAt before c (core ++ [' ']) ++ lowered, ?_⟩
    rw [List.cons_append, lowercaseFrom, hlowered, List.append_assoc]

/-- Of two beginnings of a text, the longer one has the longer lowercase form. -/
theorem eq_of_lowercase_eq {u v : Text} (h : u <+: v) (hlower : u.lowercase = v.lowercase) :
    u = v := by
  refine h.eq_of_length ?_
  have hlength := congrArg List.length hlower
  rw [lowercase, lowercase, length_lowercaseFrom, length_lowercaseFrom] at hlength
  have hcount := h.sublist.count_le 'İ'
  have hle := h.length_le
  omega

end Text

/-! ## The cut -/

/-- The prefixes that a message begins with, in any letter case. -/
def matched (setting message : Text) : List Text :=
  (parsePrefixes setting).filter (beginsWith message)

/-- The beginning of the message that a prefix is matched with. -/
theorem exists_typed {setting message p : Text} (h : p ∈ matched setting message) :
    ∃ typed command, message = typed ++ command ∧ typed.lowercase = p.lowercase := by
  obtain ⟨hp, hbegins⟩ := List.mem_filter.1 h
  obtain ⟨core, rfl, -, -⟩ := exists_of_mem_parsePrefixes hp
  obtain ⟨lowered, hlowered⟩ := Text.exists_lowercaseFrom_append_space [] core
  have hbegin : lowered ++ [' '] <+: Text.lowercaseFrom [] message := by
    rw [← hlowered]
    exact List.isPrefixOf_iff_prefix.1 hbegins
  obtain ⟨u, command, rfl, hu⟩ := Text.exists_of_prefix_lowercaseFrom hbegin
  refine ⟨u ++ [' '], command, by simp, ?_⟩
  rw [Text.lowercase, Text.lowercase, hu, hlowered]

/-- The longest prefix that the message begins with decides where it is cut. -/
theorem exists_commandPrefixes_eq {setting message : Text} (h : matched setting message ≠ [])
    (mentions : List Text) :
    ∃ p ∈ matched setting message, (∀ q ∈ matched setting message, q.length ≤ p.length) ∧
      commandPrefixes mentions (parsePrefixes setting) message = [message.take p.length] := by
  have hordered := ordersByLength_longestFirst (matched setting message)
  cases hsorted : longestFirst (matched setting message) with
  | nil =>
    rw [hsorted] at hordered
    exact absurd hordered.perm.symm.eq_nil h
  | cons p rest =>
    rw [hsorted] at hordered
    have hmem {q : Text} : q ∈ matched setting message ↔ q ∈ p :: rest :=
      hordered.perm.mem_iff.symm
    refine ⟨p, hmem.2 List.mem_cons_self, ?_, ?_⟩
    · intro q hq
      rcases List.mem_cons.1 (hmem.1 hq) with rfl | hrest
      · exact le_rfl
      · exact List.rel_of_pairwise_cons hordered.decreasing hrest
    · rw [matched] at hsorted
      rw [commandPrefixes, hsorted]

/-- A cut in front of the second of two texts is as long as the first one, or it is longer and
nothing is left to be cut. -/
theorem take_append_eq_left_iff {u v : Text} {n : Nat} :
    (u ++ v).take n = u ↔ n = u.length ∨ u.length < n ∧ v = [] := by
  constructor
  · intro h
    have hlength := congrArg List.length h
    rw [List.length_take, List.length_append] at hlength
    rcases Nat.lt_trichotomy n u.length with hlt | heq | hgt
    · omega
    · exact .inl heq
    · exact .inr ⟨hgt, List.eq_nil_of_length_eq_zero (by omega)⟩
  · rintro (rfl | ⟨hgt, rfl⟩)
    · exact List.take_left
    · rw [List.append_nil]
      exact List.take_of_length_le hgt.le

/-- Only a mention of the bot makes a command of a message that begins with no prefix.  Otherwise
the message begins, in some letter case, with a longest of its prefixes, and a beginning as long as
this prefix is cut from it.  The cut is what was typed for the prefix, and has its lowercase form,
just when both hold equally many dotted capitals or the message ends where the cut goes too far. -/
theorem commandPrefixes_spec (setting message : Text) (mentions : List Text) :
    (matched setting message = [] →
      commandPrefixes mentions (parsePrefixes setting) message = mentions) ∧
    (matched setting message ≠ [] →
      ∃ p ∈ matched setting message, (∀ q ∈ matched setting message, q.length ≤ p.length) ∧
        commandPrefixes mentions (parsePrefixes setting) message = [message.take p.length] ∧
        ∃ typed command, message = typed ++ command ∧ typed.lowercase = p.lowercase ∧
          (Text.lowercase (message.take p.length) = p.lowercase ↔ message.take p.length = typed) ∧
          (message.take p.length = typed ↔
            typed.count 'İ' = p.count 'İ' ∨ p.count 'İ' < typed.count 'İ' ∧ command = [])) := by
  constructor
  · intro hnone
    rw [matched] at hnone
    rw [commandPrefixes, hnone, longestFirst, List.mergeSort_nil]
  · intro hsome
    obtain ⟨p, hp, hlongest, hcut⟩ := exists_commandPrefixes_eq hsome mentions
    obtain ⟨typed, command, rfl, hlower⟩ := exists_typed hp
    have hlength : typed.length + typed.count 'İ' = p.length + p.count 'İ' := by
      rw [← Text.length_lowercaseFrom [] typed, ← Text.length_lowercaseFrom [] p]
      exact congrArg List.length hlower
    refine ⟨p, hp, hlongest, hcut, typed, command, rfl, hlower, ?_, ?_⟩
    · rw [← hlower]
      constructor
      · intro hsame
        rcases List.prefix_or_prefix_of_prefix (List.take_prefix _ _)
          (List.prefix_append typed command) with hshort | hlong
        · exact Text.eq_of_lowercase_eq hshort hsame
        · exact (Text.eq_of_lowercase_eq hlong hsame.symm).symm
      · intro hsame
        rw [hsame]
    · rw [take_append_eq_left_iff]
      refine or_congr ?_ (and_congr ?_ Iff.rfl)
      · omega
      · omega

/-- A small `i` with a combining dot is typed as a dotted capital, and the cut takes the first
letter of the command with it. -/
theorem commandPrefixes_dotted :
    matched ['i', '\u0307'] ['İ', ' ', 'c', 'a', 'l', 'c'] ≠ [] ∧
      commandPrefixes [] (parsePrefixes ['i', '\u0307']) ['İ', ' ', 'c', 'a', 'l', 'c'] =
        [['İ', ' ', 'c']] ∧
      ∀ p ∈ matched ['i', '\u0307'] ['İ', ' ', 'c', 'a', 'l', 'c'],
        Text.lowercase ['İ', ' ', 'c'] ≠ p.lowercase := by
  decide +kernel

end Reckoner

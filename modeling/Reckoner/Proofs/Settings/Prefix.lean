import Mathlib
import Reckoner.Settings.Prefix

/-!
# The prefixes of a setting

The prefixes of a setting are its items that are not blank, stripped, each with one space after it
and the longer ones first (`parsePrefixes_spec`).  Written with commas between them they are a
setting again, and one that is read as the same prefixes.
-/

namespace Reckoner

/-! ## Cutting at a separator -/

theorem cutAt_eq_splitOnPPrepend (separator : Char) (piece t : Text) :
    cutAt separator piece t = t.splitOnPPrepend (· == separator) piece := by
  induction t generalizing piece with
  | nil => simp [cutAt]
  | cons c t ih =>
    by_cases hc : c = separator
    · rw [cutAt, if_pos hc, ih, List.splitOnPPrepend_cons_pos (by simpa using hc)]
      simp
    · rw [cutAt, if_neg hc, ih, List.splitOnPPrepend_cons_neg (by simpa using hc)]

theorem cutAt_nil (separator : Char) (t : Text) : cutAt separator [] t = t.splitOn separator := by
  rw [cutAt_eq_splitOnPPrepend]
  rfl

/-- The separator is in no piece. -/
theorem not_mem_of_mem_cutAt {separator : Char} {piece t p : Text} (hpiece : separator ∉ piece)
    (h : p ∈ cutAt separator piece t) : separator ∉ p := by
  induction t generalizing piece with
  | nil =>
    obtain rfl : p = piece.reverse := by simpa [cutAt] using h
    simpa using hpiece
  | cons c t ih =>
    rw [cutAt] at h
    split at h
    · rcases List.mem_cons.1 h with rfl | hrest
      · simpa using hpiece
      · exact ih List.not_mem_nil hrest
    · rename_i hc
      exact ih (List.not_mem_cons_of_ne_of_not_mem (Ne.symm hc) hpiece) h

/-! ## Stripping blanks -/

namespace Text

/-- The second text is what the first one has between its first and its last character that is not
blank. -/
def StripsTo (t core : Text) : Prop :=
  ∃ left right, t = left ++ core ++ right ∧
    (∀ c ∈ left, isBlank c = true) ∧ (∀ c ∈ right, isBlank c = true) ∧
    (∃ first ∈ core.head?, isBlank first = false) ∧ ∃ last ∈ core.getLast?, isBlank last = false

/-- A text that is not all blank begins with blanks and a character that is not blank. -/
theorem exists_dropWhile {t : Text} (h : t.isBlankText = false) :
    ∃ left, t = left ++ t.dropWhile isBlank ∧ (∀ c ∈ left, isBlank c = true) ∧
      ∃ first ∈ (t.dropWhile isBlank).head?, isBlank first = false := by
  refine ⟨t.takeWhile isBlank, List.takeWhile_append_dropWhile.symm,
    fun _ => List.mem_takeWhile_imp, ?_⟩
  cases hrest : t.dropWhile isBlank with
  | nil =>
    have hall : t.isBlankText = true := List.all_eq_true.2 (List.dropWhile_eq_nil_iff.1 hrest)
    rw [hall] at h
    contradiction
  | cons first rest =>
    have hfirst := List.head?_dropWhile_not isBlank t
    rw [hrest] at hfirst
    exact ⟨first, rfl, hfirst⟩

theorem dropWhile_append {left core : Text} (hleft : ∀ c ∈ left, isBlank c = true)
    (hcore : ∃ first ∈ core.head?, isBlank first = false) :
    (left ++ core).dropWhile isBlank = core := by
  obtain ⟨first, hfirst, hblank⟩ := hcore
  cases core with
  | nil => exact absurd hfirst (by simp)
  | cons c core =>
    obtain rfl : c = first := by simpa using hfirst
    rw [List.dropWhile_append_of_pos hleft, List.dropWhile_cons_of_neg (by simp [hblank])]

theorem isBlankText_eq_false {t : Text} {c : Char} (hc : c ∈ t) (h : isBlank c = false) :
    t.isBlankText = false := by
  rw [isBlankText, List.all_eq_false]
  exact ⟨c, hc, by simp [h]⟩

namespace StripsTo

variable {t core : Text}

theorem trim_eq (h : t.StripsTo core) : t.trim = core := by
  obtain ⟨left, right, rfl, hleft, hright, hfirst, hlast⟩ := h
  have hbegin : (left ++ core ++ right).dropWhile isBlank = core ++ right := by
    rw [List.append_assoc]
    refine dropWhile_append hleft ?_
    obtain ⟨first, hmem, hblank⟩ := hfirst
    exact ⟨first, by simp [Option.mem_def.1 hmem], hblank⟩
  have hend : (core ++ right).reverse.dropWhile isBlank = core.reverse := by
    rw [List.reverse_append]
    refine dropWhile_append ?_ ?_
    · simpa using hright
    · simpa using hlast
  rw [trim, hbegin, trimRight, hend, List.reverse_reverse]

theorem isBlankText_eq (h : t.StripsTo core) : t.isBlankText = false := by
  obtain ⟨left, right, rfl, -, -, ⟨first, hfirst, hblank⟩, -⟩ := h
  refine isBlankText_eq_false ?_ hblank
  simp [List.mem_of_mem_head? hfirst]

/-- What is left of a text is left again when a space is written after it. -/
theorem append_space (h : t.StripsTo core) : (core ++ [' ']).StripsTo core := by
  obtain ⟨-, -, -, -, -, hfirst, hlast⟩ := h
  refine ⟨[], [' '], rfl, ?_, ?_, hfirst, hlast⟩
  · simp
  · intro c hc
    obtain rfl := List.mem_singleton.1 hc
    decide

theorem subset (h : t.StripsTo core) : core ⊆ t := by
  obtain ⟨left, right, rfl, -⟩ := h
  intro c hc
  simp [hc]

end StripsTo

theorem stripsTo_trim {t : Text} (h : t.isBlankText = false) : t.StripsTo t.trim := by
  obtain ⟨left, ht, hleft, first, hfirst, hblank⟩ := exists_dropWhile h
  set rest := t.dropWhile isBlank with hrest
  have hback : Text.isBlankText rest.reverse = false :=
    isBlankText_eq_false (List.mem_reverse.2 (List.mem_of_mem_head? hfirst)) hblank
  obtain ⟨right, hr, hright, last, hlast, hblank'⟩ := exists_dropWhile hback
  have hcut : rest = t.trim ++ right.reverse := by
    rw [trim, ← hrest, trimRight]
    rw [← List.reverse_append, ← hr, List.reverse_reverse]
  have hlast' : t.trim.getLast? = some last := by
    rw [trim, ← hrest, trimRight, List.getLast?_reverse]
    exact hlast
  refine ⟨left, right.reverse, ?_, hleft, ?_, ⟨first, ?_, hblank⟩, last, hlast', hblank'⟩
  · rw [List.append_assoc, ← hcut]
    exact ht
  · simpa using hright
  · have hne : t.trim ≠ [] := by
      intro hnil
      rw [hnil] at hlast'
      simp at hlast'
    rw [hcut, List.head?_append_of_ne_nil _ hne] at hfirst
    exact hfirst

theorem isEmpty_trim (t : Text) : t.trim.isEmpty = t.isBlankText := by
  cases h : t.isBlankText with
  | false =>
    obtain ⟨-, -, -, -, -, ⟨first, hfirst, -⟩, -⟩ := stripsTo_trim h
    cases htrim : t.trim with
    | nil => simp [htrim] at hfirst
    | cons => rfl
  | true =>
    have hnil : t.dropWhile isBlank = [] := List.dropWhile_eq_nil_iff.2 (List.all_eq_true.1 h)
    rw [trim, hnil]
    rfl

end Text

/-! ## Longer texts first -/

/-- The second list holds the texts of the first one, longer ones first and equally long ones in
their order. -/
structure OrdersByLength (texts ordered : List Text) : Prop where
  perm : ordered.Perm texts
  decreasing : ordered.Pairwise fun a b => b.length ≤ a.length
  stable : ∀ n, ordered.filter (·.length = n) = texts.filter (·.length = n)

theorem ordersByLength_longestFirst (texts : List Text) :
    OrdersByLength texts (longestFirst texts) := by
  have htrans : ∀ a b c : Text, decide (b.length ≤ a.length) = true →
      decide (c.length ≤ b.length) = true → decide (c.length ≤ a.length) = true := by
    simp only [decide_eq_true_eq]
    intro a b c hab hbc
    exact hbc.trans hab
  have htotal : ∀ a b : Text,
      (decide (b.length ≤ a.length) || decide (a.length ≤ b.length)) = true := by
    intro a b
    simpa using Nat.le_total b.length a.length
  have hperm : (longestFirst texts).Perm texts := List.mergeSort_perm _ _
  refine ⟨hperm, ?_, ?_⟩
  · exact (List.pairwise_mergeSort htrans htotal texts).imp of_decide_eq_true
  · intro n
    -- texts of one length are ordered as they stand, so they stand in this order in the result
    have hsorted : (texts.filter (·.length = n)).Pairwise
        fun a b => decide (b.length ≤ a.length) = true := by
      refine List.pairwise_of_forall_mem_list ?_
      intro a ha b hb
      simp only [List.mem_filter, decide_eq_true_eq] at ha hb
      simp [ha.2, hb.2]
    have hsub := (List.sublist_mergeSort htrans htotal hsorted List.filter_sublist).filter
      (·.length = n)
    rw [List.filter_filter] at hsub
    simp only [Bool.and_self] at hsub
    exact (hsub.eq_of_length (hperm.filter _).length_eq.symm).symm

theorem longestFirst_eq_self {texts : List Text}
    (h : texts.Pairwise fun a b => b.length ≤ a.length) : longestFirst texts = texts := by
  refine List.mergeSort_of_pairwise ?_
  simpa using h

/-! ## The prefixes -/

/-- The items of a setting that are not blank. -/
def itemsOf (setting : Text) : List Text :=
  (setting.splitOn ',').filter fun item => !item.isBlankText

theorem parsePrefixes_eq (setting : Text) :
    parsePrefixes setting =
      longestFirst ((itemsOf setting).map fun item => item.trim ++ [' ']) := by
  simp only [parsePrefixes, itemsOf, cutAt_nil, Text.isEmpty_trim]

theorem comma_not_mem_of_mem_splitOn {setting item : Text} (h : item ∈ setting.splitOn ',') :
    ',' ∉ item := by
  rw [← cutAt_nil] at h
  exact not_mem_of_mem_cutAt List.not_mem_nil h

theorem stripsTo_of_mem_itemsOf {setting item : Text} (h : item ∈ itemsOf setting) :
    item.StripsTo item.trim := by
  have hblank := (List.mem_filter.1 h).2
  exact Text.stripsTo_trim (by simpa using hblank)

/-- A prefix is a core and one space, and no comma stands in it. -/
theorem exists_of_mem_parsePrefixes {setting p : Text} (h : p ∈ parsePrefixes setting) :
    ∃ core, p = core ++ [' '] ∧ p.StripsTo core ∧ ',' ∉ p := by
  rw [parsePrefixes_eq, (ordersByLength_longestFirst _).perm.mem_iff, List.mem_map] at h
  obtain ⟨item, hitem, rfl⟩ := h
  have hstrips := stripsTo_of_mem_itemsOf hitem
  refine ⟨item.trim, rfl, hstrips.append_space, ?_⟩
  have hcomma := comma_not_mem_of_mem_splitOn (List.mem_filter.1 hitem).1
  intro hmem
  rcases List.mem_append.1 hmem with hcore | hspace
  · exact hcomma (hstrips.subset hcore)
  · exact absurd (List.mem_singleton.1 hspace) (by decide)

theorem pairwise_parsePrefixes (setting : Text) :
    (parsePrefixes setting).Pairwise fun a b => b.length ≤ a.length := by
  rw [parsePrefixes_eq]
  exact (ordersByLength_longestFirst _).decreasing

/-- The prefixes with commas between them are a setting with the same prefixes. -/
theorem parsePrefixes_intercalate (setting : Text) :
    parsePrefixes ([','].intercalate (parsePrefixes setting)) = parsePrefixes setting := by
  by_cases hnil : parsePrefixes setting = []
  · rw [hnil]
    exact List.mergeSort_nil
  · have hsplit : ([','].intercalate (parsePrefixes setting)).splitOn ',' =
        parsePrefixes setting := by
      refine List.splitOn_intercalate ',' ?_ hnil
      intro p hp
      obtain ⟨-, -, -, hcomma⟩ := exists_of_mem_parsePrefixes hp
      exact hcomma
    have hitems : itemsOf ([','].intercalate (parsePrefixes setting)) = parsePrefixes setting := by
      rw [itemsOf, hsplit, List.filter_eq_self]
      intro p hp
      obtain ⟨core, -, hstrips, -⟩ := exists_of_mem_parsePrefixes hp
      simp [hstrips.isBlankText_eq]
    have hmap : (parsePrefixes setting).map (fun item => item.trim ++ [' ']) =
        parsePrefixes setting := by
      refine (List.map_congr_left ?_).trans (List.map_id _)
      intro p hp
      obtain ⟨core, rfl, hstrips, -⟩ := exists_of_mem_parsePrefixes hp
      rw [hstrips.trim_eq, id_eq]
    rw [parsePrefixes_eq ([','].intercalate _), hitems, hmap]
    exact longestFirst_eq_self (pairwise_parsePrefixes setting)

/-- What the prefixes of a setting are, with their order, and that they are a setting themselves. -/
theorem parsePrefixes_spec (setting : Text) :
    (∃ items cores : List Text,
      items ≠ [] ∧ (∀ item ∈ items, ',' ∉ item) ∧ [','].intercalate items = setting ∧
      List.Forall₂ Text.StripsTo (items.filter fun item => !item.isBlankText) cores ∧
      OrdersByLength (cores.map fun core => core ++ [' ']) (parsePrefixes setting)) ∧
    parsePrefixes ([','].intercalate (parsePrefixes setting)) = parsePrefixes setting := by
  refine ⟨⟨setting.splitOn ',', (itemsOf setting).map Text.trim, ?_, ?_, ?_, ?_, ?_⟩,
    parsePrefixes_intercalate setting⟩
  · exact List.splitOn_ne_nil _ _
  · exact fun item => comma_not_mem_of_mem_splitOn
  · exact List.intercalate_splitOn ','
  · rw [List.forall₂_map_right_iff]
    exact List.forall₂_same.2 fun item => stripsTo_of_mem_itemsOf
  · rw [parsePrefixes_eq, List.map_map]
    exact ordersByLength_longestFirst _

end Reckoner

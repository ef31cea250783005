import Mathlib
import Reckoner.Bot.Discovery

/-!
# The extensions of a directory

A directory is listed in no order of its own.  The names of the extensions come in one order all the
same, and no two files have the same name, since a file name is cut where it ends in `.py` only.  So
there is one name for each source file that is not private, and nothing else
(`discoverIn_spec`).
-/

namespace Reckoner

/-! ## Orders -/

/-- An order in which the members of every set of names are walked. -/
structure SetOrder where
  /-- The members of a set, in this order. -/
  walk : Finset String → List String
  /-- No member comes twice. -/
  nodup : ∀ names, (walk names).Nodup
  /-- All members come, and nothing else. -/
  mem_walk : ∀ {names name}, name ∈ walk names ↔ name ∈ names

/-- The order of the code points. -/
def SetOrder.sorted : SetOrder where
  walk names := names.sort (· ≤ ·)
  nodup names := Finset.sort_nodup names _
  mem_walk := Finset.mem_sort _

/-- A sorted list is the sorted walk over its members. -/
theorem SetOrder.walk_sorted {names : List String} {members : Finset String}
    (h : names.Pairwise (· < ·)) (hmem : ∀ x, x ∈ members ↔ x ∈ names) :
    SetOrder.sorted.walk members = names := by
  have hsorted : (SetOrder.sorted.walk members).Pairwise (· < ·) :=
    (Finset.sortedLT_sort members).pairwise
  exact hsorted.eq_of_mem_iff h fun x => SetOrder.sorted.mem_walk.trans (hmem x)

/-- The names of the files in a directory, as they are listed. -/
structure DirectoryListing where
  /-- The names, in some order. -/
  files : List String
  /-- No two files have the same name. -/
  nodup : files.Nodup

/-! ## Stems -/

/-- Only files with the suffix have a stem, and the stem and the suffix are the file name. -/
theorem stem?_eq_some_iff {file : String} {stem : Text} :
    stem? file = some stem ↔
      file.toList = stem ++ sourceSuffix ∧ file.toList.head? ≠ some '_' := by
  have hcut : sourceSuffix <:+ file.toList ↔
      file.toList.take (file.toList.length - sourceSuffix.length) ++ sourceSuffix = file.toList :=
    List.suffix_iff_eq_append
  simp only [stem?, Option.ite_none_right_eq_some, Option.some.injEq, Bool.and_eq_true, bne_iff_ne,
    List.isSuffixOf_iff_suffix]
  constructor
  · rintro ⟨⟨hsuffix, hpublic⟩, rfl⟩
    exact ⟨(hcut.1 hsuffix).symm, hpublic⟩
  · rintro ⟨hfile, hpublic⟩
    refine ⟨⟨⟨stem, hfile.symm⟩, hpublic⟩, ?_⟩
    rw [hfile, List.length_append, Nat.add_sub_cancel, List.take_left]

/-- The stem and the suffix are the name of one file only. -/
theorem eq_of_stem?_eq {file file' : String} {stem : Text} (h : stem? file = some stem)
    (h' : stem? file' = some stem) : file = file' := by
  rw [← String.toList_inj, (stem?_eq_some_iff.1 h).1, (stem?_eq_some_iff.1 h').1]

theorem nodup_stems {files : List String} (h : files.Nodup) : (files.filterMap stem?).Nodup := by
  refine h.filterMap ?_
  intro file file' stem hstem hstem'
  exact eq_of_stem?_eq hstem hstem'

/-- Source files that are not private, by what stands before the suffix. -/
def IsStemAmong (files : Finset String) (stem : String) : Prop :=
  stem ++ ".py" ∈ files ∧ (stem ++ ".py").toList.head? ≠ some '_'

theorem mem_filterMap_stem?_iff {listing : List String} {files : Finset String}
    (h : ∀ file, file ∈ listing ↔ file ∈ files) {stem : String} :
    stem.toList ∈ listing.filterMap stem? ↔ IsStemAmong files stem := by
  have hfile {file : String} :
      file.toList = stem.toList ++ sourceSuffix ↔ file = stem ++ ".py" := by
    rw [← String.toList_inj, String.toList_append]
    rfl
  simp only [List.mem_filterMap, stem?_eq_some_iff, hfile, h, IsStemAmong]
  constructor
  · rintro ⟨file, hmem, rfl, hpublic⟩
    exact ⟨hmem, hpublic⟩
  · rintro ⟨hmem, hpublic⟩
    exact ⟨_, hmem, rfl, hpublic⟩

/-! ## Names -/

theorem sortNames_perm (names : List String) : (sortNames names).Perm names :=
  List.mergeSort_perm _ _

/-- Sorted names increase, if no two of them are equal. -/
theorem pairwise_sortNames {names : List String} (h : names.Nodup) :
    (sortNames names).Pairwise (· < ·) := by
  have htrans : ∀ a b c : String, decide (a ≤ b) = true → decide (b ≤ c) = true →
      decide (a ≤ c) = true := by
    simp only [decide_eq_true_eq]
    exact fun _ _ _ => le_trans
  have htotal : ∀ a b : String, (decide (a ≤ b) || decide (b ≤ a)) = true := by
    simp only [Bool.or_eq_true, decide_eq_true_eq]
    exact le_total
  have hle : (sortNames names).Pairwise (· ≤ ·) :=
    (List.pairwise_mergeSort htrans htotal names).imp of_decide_eq_true
  have hne : (sortNames names).Nodup := (sortNames_perm names).nodup_iff.2 h
  exact (hle.and hne).imp fun h => lt_of_le_of_ne h.1 h.2

/-- The dotted name of an extension. -/
def moduleName (package stem : String) : String := package ++ "." ++ stem

theorem moduleName_injective (package : String) : Function.Injective (moduleName package) := by
  intro stem stem' h
  exact (String.append_right_inj _).1 h

/-- The order of the names is the order of the stems. -/
theorem moduleName_lt {package stem stem' : String} (h : stem < stem') :
    moduleName package stem < moduleName package stem' := by
  rw [String.lt_iff_toList_lt] at h ⊢
  simp only [moduleName, String.toList_append]
  exact List.append_left_lt h

theorem discover_eq (package : String) (files : List String) :
    discover package files =
      sortNames (((files.filterMap stem?).map String.ofList).map (moduleName package)) := by
  rw [discover, List.map_map]
  rfl

/-- The names of the extensions are those of the source files, one for each. -/
theorem discover_perm (package : String) (files : List String) :
    (discover package files).Perm
      (((files.filterMap stem?).map String.ofList).map (moduleName package)) := by
  rw [discover_eq]
  exact sortNames_perm _

/-- The extensions of different files increase. -/
theorem pairwise_discover (package : String) {files : List String} (h : files.Nodup) :
    (discover package files).Pairwise (· < ·) := by
  rw [discover_eq]
  refine pairwise_sortNames (List.Nodup.map (moduleName_injective package) ?_)
  exact (nodup_stems h).map fun _ _ => String.ofList_injective

/-- Extensions are found in order and each once. -/
theorem pairwise_discoverIn (package : String) (listing : Option DirectoryListing) :
    (discoverIn package (listing.map DirectoryListing.files)).Pairwise (· < ·) := by
  cases listing with
  | none => exact List.Pairwise.nil
  | some listing => exact pairwise_discover package listing.nodup

/-- Two listings with the same files have the same extensions. -/
theorem discover_congr (package : String) {files files' : List String} (h : files.Nodup)
    (h' : files'.Nodup) (hmem : ∀ file, file ∈ files ↔ file ∈ files') :
    discover package files = discover package files' := by
  have hfiles : files.Perm files' := (List.perm_ext_iff_of_nodup h h').2 hmem
  have hnames : (discover package files).Perm (discover package files') :=
    (discover_perm package files).trans
      ((((hfiles.filterMap stem?).map _).map _).trans (discover_perm package files').symm)
  -- both are sorted, so the same names stand in the same places
  exact (pairwise_discover package h).eq_of_mem_iff (pairwise_discover package h')
    fun _ => hnames.mem_iff

/-- However the files of a directory are listed, the same extensions are found.  They come in the
order of their names, each once, and there is one for each source file that is not private.  The
files themselves may come in another order: `a-b.py` stands before `a.py`, but `a` before `a-b`.  A
missing directory has no extensions. -/
theorem discoverIn_spec (package : String) (files : Finset String) :
    (∃ names stems : List String,
      (∀ order : SetOrder, discoverIn package (some (order.walk files)) = names) ∧
      names.Pairwise (· < ·) ∧ names.Nodup ∧
      stems.Nodup ∧ (∀ stem, stem ∈ stems ↔ IsStemAmong files stem) ∧
      names.Perm (stems.map (moduleName package))) ∧
    (∃ stem stem', stem ++ ".py" < stem' ++ ".py" ∧
      moduleName package stem' < moduleName package stem) ∧
    discoverIn package none = [] := by
  have hsorted : ∀ file, file ∈ SetOrder.sorted.walk files ↔ file ∈ files :=
    fun _ => SetOrder.mem_walk _
  have hnodup : (SetOrder.sorted.walk files).Nodup := SetOrder.nodup _ files
  have hincreasing := pairwise_discover package hnodup
  refine ⟨⟨discover package (SetOrder.sorted.walk files),
    ((SetOrder.sorted.walk files).filterMap stem?).map String.ofList, ?_, hincreasing,
    hincreasing.imp ne_of_lt, ?_, ?_, discover_perm package _⟩, ?_, rfl⟩
  · intro order
    refine discover_congr package (order.nodup files) hnodup ?_
    intro file
    rw [hsorted, order.mem_walk]
  · exact (nodup_stems hnodup).map fun _ _ => String.ofList_injective
  · intro stem
    rw [← mem_filterMap_stem?_iff hsorted, List.mem_map]
    constructor
    · rintro ⟨letters, hletters, rfl⟩
      rwa [String.toList_ofList]
    · intro hstem
      exact ⟨_, hstem, String.ofList_toList⟩
  · refine ⟨"a-b", "a", by decide, moduleName_lt ?_⟩
    decide

end Reckoner

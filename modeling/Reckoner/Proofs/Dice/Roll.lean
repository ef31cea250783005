import Mathlib
import Reckoner.Proofs.Evaluation.Escape
import Reckoner.Proofs.Evaluation.Rolls
import Reckoner.Proofs.Number.Negation

/-!
# One roll

What a dice operator does with two numbers (`Dice.roll_of_isFinite`): it refuses them, it rolls no
dice at all, or it throws as many dice as it counts and adds them up.  A roll that is refused leaves
the dice and the trace as they were, and a roll of a negative count throws the same dice as the roll
of the positive one.  A limit far below zero allows no roll and cannot be named in a refusal, so
every roll stops under it.
-/

namespace Reckoner

/-! ## Dice that are thrown -/

namespace DiceSource

theorem throwFrom_fst (faces : Int) (count : Nat) (thrown : List Int) (source : DiceSource) :
    (throwFrom faces count thrown source).1 =
      thrown.reverse ++ (List.range count).map fun i => (advance^[i] source).face faces := by
  induction count generalizing thrown source with
  | zero => simp [throwFrom]
  | succ n ih =>
    rw [throwFrom, ih, List.range_succ_eq_map, List.reverse_cons, List.append_assoc]
    simp [Function.comp_def]

/-- Each die shows the face of the source as the dice before left it. -/
theorem throw_fst (source : DiceSource) (count : Nat) (faces : Int) :
    (source.throw count faces).1 =
      (List.range count).map fun i => (advance^[i] source).face faces := throwFrom_fst _ _ _ _

theorem bounds_of_mem_throw {source : DiceSource} {count : Nat} {faces value : Int}
    (hfaces : 1 ≤ faces) (h : value ∈ (source.throw count faces).1) :
    1 ≤ value ∧ value ≤ faces := by
  rw [throw_fst] at h
  obtain ⟨i, -, rfl⟩ := List.mem_map.1 h
  exact ⟨face_pos hfaces, face_le hfaces⟩

end DiceSource

namespace Dice

/-- So many dice, thrown from a source one after the other, and their total with the sign of the
count. -/
structure IsThrow (dice : DiceSource) (count faces : Int) (thrown : List Int) (total : Int) :
    Prop where
  /-- As many dice are thrown as are counted. -/
  length : thrown.length = count.natAbs
  /-- Each die shows the face of the source as the dice before left it. -/
  shows : thrown =
    (List.range count.natAbs).map fun i => (DiceSource.advance^[i] dice).face faces
  /-- Each die shows one of its faces. -/
  mem : ∀ value ∈ thrown, 1 ≤ value ∧ value ≤ faces
  /-- The total is that of the dice, with the sign of the count. -/
  sums : total = count.sign * thrown.sum
  /-- The total has the sign of the count. -/
  sign : total.sign = count.sign
  /-- Each die counts at least one. -/
  low : |count| ≤ |total|
  /-- Each die counts at most its faces. -/
  high : |total| ≤ |count| * faces

theorem isThrow_throw (dice : DiceSource) {count faces : Int} (hcount : count ≠ 0)
    (hfaces : 1 ≤ faces) :
    IsThrow dice count faces (dice.throw count.natAbs faces).1
      (count.sign * (dice.throw count.natAbs faces).1.sum) := by
  have hmem : ∀ value ∈ (dice.throw count.natAbs faces).1, 1 ≤ value ∧ value ≤ faces :=
    fun _ => DiceSource.bounds_of_mem_throw hfaces
  have hlength := dice.length_throw count.natAbs faces
  have hlow := List.card_nsmul_le_sum _ 1 fun value hvalue => (hmem value hvalue).1
  have hhigh := List.sum_le_card_nsmul _ faces fun value hvalue => (hmem value hvalue).2
  rw [hlength, nsmul_eq_mul] at hlow hhigh
  rw [mul_one] at hlow
  have hpos : 0 < (dice.throw count.natAbs faces).1.sum := by omega
  have habs : |count.sign * (dice.throw count.natAbs faces).1.sum| =
      (dice.throw count.natAbs faces).1.sum := by
    rw [abs_mul, Int.abs_sign_of_ne_zero hcount, one_mul, abs_of_pos hpos]
  refine ⟨hlength, dice.throw_fst _ _, hmem, rfl, ?_, ?_, ?_⟩
  · rw [Int.sign_mul, Int.sign_eq_one_of_pos hpos, mul_one, Int.sign_sign]
  · rw [habs, Int.abs_eq_natAbs]
    exact hlow
  · rw [habs, Int.abs_eq_natAbs]
    exact hhigh

/-- A negative count throws the same dice and negates their total. -/
theorem IsThrow.neg {dice : DiceSource} {count faces : Int} {thrown : List Int} {total : Int}
    (h : IsThrow dice count faces thrown total) :
    IsThrow dice (-count) faces thrown (-total) where
  length := by rw [h.length, Int.natAbs_neg]
  shows := by rw [Int.natAbs_neg, ← h.shows]
  mem := h.mem
  sums := by rw [h.sums, Int.sign_neg, Int.neg_mul]
  sign := by rw [Int.sign_neg, Int.sign_neg, h.sign]
  low := by
    rw [abs_neg, abs_neg]
    exact h.low
  high := by
    rw [abs_neg, abs_neg]
    exact h.high

/-- The dice are added up with the sign of the count. -/
theorem rolledTotal_natAbs {count : Int} (hcount : count ≠ 0) (faces : Int) (dice : DiceSource) :
    Evaluation.rolledTotal (count < 0) count.natAbs faces dice =
      count.sign * (dice.throw count.natAbs faces).1.sum := by
  rw [Evaluation.rolledTotal_eq]
  rcases lt_or_gt_of_ne hcount with hneg | hpos
  · rw [if_pos (decide_eq_true hneg), Int.sign_eq_neg_one_of_neg hneg, neg_one_mul]
  · rw [if_neg (by simpa using hpos.le), Int.sign_eq_one_of_pos hpos, one_mul]

end Dice

/-! ## Sessions after a roll -/

namespace Session

end Session

/-! ## The cases of a roll -/

namespace Dice

open Evaluation

variable (limits : Limits) (s : Session) (loud : Bool) (count faces : Float)

section

variable {limits s count faces} (hcount : count.isFinite = true)
  (hfaces : faces.isFinite = true)
include hcount hfaces

/-- Under a limit far below zero, a roll stops and reports nothing. -/
theorem runOn_roll_of_le (hlimit : limits.dice ≤ -10 ^ Text.maxIntegerDigits) :
    (roll loud count faces).runOn limits s = .error .tooManyDigits s := by
  have hcap : limits.dice < |Number.round count| :=
    calc limits.dice ≤ -10 ^ Text.maxIntegerDigits := hlimit
      _ < 0 := neg_neg_of_pos (pow_pos (by norm_num) _)
      _ ≤ _ := abs_nonneg _
  rw [runOn_roll, hcount, hfaces, if_neg (by decide), ← Int.abs_eq_natAbs, if_pos hcap,
    runOn_refuse_of_not_isWritable (not_isWritable_of_le hlimit)]

variable (hcap : |Number.round count| ≤ limits.dice) (hne : Number.round count ≠ 0)
  (hface : 1 ≤ Number.round faces)
include hcap hne hface

/-- A roll that is not refused throws its dice, and gives their total if a double can hold it. -/
theorem throws_roll {thrown : List Int} {total : Int}
    (h : IsThrow s.dice (Number.round count) (Number.round faces) thrown total) :
    ∃ t, s.Throws (Number.round faces) thrown t ∧
      (|(total : Rat)| < Number.roundingBound →
        (roll loud count faces).runOn limits s = .ok (Number.ofRat total) t) ∧
      (Number.roundingBound ≤ |(total : Rat)| →
        (roll loud count faces).runOn limits s = .error .sumTooLarge t) := by
  have hthrown : thrown = (s.dice.throw (Number.round count).natAbs (Number.round faces)).1 :=
    h.shows.trans (s.dice.throw_fst _ _).symm
  have htotal : rolledTotal (Number.round count < 0) (Number.round count).natAbs
      (Number.round faces) s.dice = total := by
    rw [rolledTotal_natAbs hne, h.sums, hthrown]
  rw [runOn_roll, hcount, hfaces, if_neg (by decide), ← Int.abs_eq_natAbs, if_neg hcap.not_gt,
    if_neg hne, if_neg hface.not_gt, runOn_rollSome, htotal, hthrown]
  refine ⟨_, s.throws_afterRoll loud (Number.round count < 0) _ _ (sourceText count faces) limits,
    fun hfits => ?_, fun hlarge => ?_⟩
  · have hfinite : (Number.ofRat (total : Int)).isFinite = true := Number.isFinite_ofRat_iff.2 hfits
    rw [Number.ofInt?, if_pos hfinite]
  · rw [Number.ofInt?_eq_none_iff.2 hlarge]

omit hcap hne hface

end

end Dice

end Reckoner

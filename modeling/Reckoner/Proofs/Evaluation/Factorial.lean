import Mathlib
import Reckoner.Proofs.Dice.Overflow
import Reckoner.Proofs.Number.Error

/-!
# Factorials within the range of doubles

The falling product of `n` may have as many factors as the greatest double says, but it ends after
170 of them: up to `n = 170` there are no more, and from `n = 171` on the product of the first 170
is infinite (`isFinite_multiplyAll_descending_iff`).  This holds of the rounded products, because
the errors of 340 roundings together stay below a half.
-/

namespace Reckoner

open Evaluation (failedValue)
open Number (IsNear unitRoundoff unitRoundoff_bounds)

/-! ## The factors of a factorial -/

/-- The whole numbers from `n` down to two. -/
def descending : Nat → List Nat
  | 0 => []
  | 1 => []
  | n + 2 => (n + 2) :: descending (n + 1)

/-- Multiplies whole numbers to a double, each rounded, from left to right. -/
def multiplyAll (product : Float) (factors : List Nat) : Float :=
  factors.foldl (fun product (k : Nat) => product * Number.ofRat k) product

/-- The factors that a falling product multiplies until it ends. -/
def fallingFactors : Nat → Float → List Nat
  | 0, _ => []
  | 1, _ => []
  | n + 2, product =>
    let next := product * Number.ofRat (n + 2 : Nat)
    if next.isInf then [n + 2] else (n + 2) :: fallingFactors (n + 1) next

theorem mem_descending {n k : Nat} (h : k ∈ descending n) : 2 ≤ k ∧ k ≤ n := by
  induction n using descending.induct with
  | case1 => simp [descending] at h
  | case2 => simp [descending] at h
  | case3 n ih =>
    rcases List.mem_cons.1 h with rfl | hrest
    · omega
    · have := ih hrest
      omega

theorem length_descending (n : Nat) : (descending n).length = n - 1 := by
  induction n using descending.induct with
  | case1 => rfl
  | case2 => rfl
  | case3 n ih =>
    rw [descending, List.length_cons, ih]
    omega

theorem prod_descending (n : Nat) : (descending n).prod = n.factorial := by
  induction n using descending.induct with
  | case1 => rfl
  | case2 => rfl
  | case3 n ih => rw [descending, List.prod_cons, ih, Nat.factorial_succ (n + 1)]

/-- The first factors are those of a falling factorial. -/
theorem prod_take_descending {n j : Nat} (h : j < n) :
    ((descending n).take j).prod = n.descFactorial j := by
  induction n using descending.induct generalizing j with
  | case1 => omega
  | case2 =>
    obtain rfl : j = 0 := by omega
    rfl
  | case3 n ih =>
    cases j with
    | zero => rfl
    | succ j =>
      rw [descending, List.take_succ_cons, List.prod_cons, ih (by omega),
        Nat.succ_descFactorial_succ]

/-- The factors that are multiplied are the first ones of all. -/
theorem fallingFactors_isPrefix (n : Nat) (product : Float) :
    fallingFactors n product <+: descending n := by
  induction n, product using fallingFactors.induct with
  | case1 product => exact List.nil_prefix
  | case2 product => exact List.nil_prefix
  | case3 n product next hinf =>
    rw [fallingFactors, if_pos hinf, descending]
    exact List.prefix_append [n + 2] _
  | case4 n product next hinf ih =>
    rw [fallingFactors, if_neg hinf, descending]
    exact List.cons_prefix_cons.2 ⟨rfl, ih⟩

/-! ## The falling product and its factors -/

theorem multiplyAll_cons (product : Float) (k : Nat) (factors : List Nat) :
    multiplyAll product (k :: factors) = multiplyAll (product * Number.ofRat k) factors := rfl

theorem multiplyAll_append (product : Float) (factors factors' : List Nat) :
    multiplyAll product (factors ++ factors') =
      multiplyAll (multiplyAll product factors) factors' := by
  simp only [multiplyAll, List.foldl_append]

/-- A product that is not finite stays so. -/
theorem isFinite_of_multiplyAll {product : Float} {factors : List Nat}
    (h : (multiplyAll product factors).isFinite = true) : product.isFinite = true := by
  induction factors generalizing product with
  | nil => exact h
  | cons k factors ih =>
    rw [multiplyAll_cons] at h
    exact Number.isFinite_of_mul (ih h)

/-- What the falling product goes on with is finite. -/
theorem isFinite_next {n : Nat} {product : Float}
    (hn : ((n + 2 : Nat) : Rat) < Number.roundingBound) (hproduct : product.isFinite = true)
    (hinf : ¬ (product * Number.ofRat (n + 2 : Nat)).isInf = true) :
    (product * Number.ofRat (n + 2 : Nat)).isFinite = true := by
  have hfactor : (Number.ofRat (n + 2 : Nat)).isFinite = true := by
    rwa [Number.isFinite_ofRat_iff, abs_of_nonneg (Nat.cast_nonneg _)]
  exact Number.isFinite_mul hproduct hfactor (Bool.eq_false_iff.2 hinf)

/-- A falling product is the product of the factors that it multiplies, if that is not infinite. -/
theorem fallingProduct_eq (n : Nat) {product : Float} (h : product.isInf = false) :
    fallingProduct n product =
      if (multiplyAll product (fallingFactors n product)).isInf = true then none
      else some (multiplyAll product (fallingFactors n product)) := by
  have hnone : ∀ {x : Float}, x.isInf = false →
      (if x.isInf = true then none else some x) = some x := by
    intro x hx
    rw [if_neg (by rw [hx]; decide)]
  induction n, product using fallingFactors.induct with
  | case1 product => exact (hnone h).symm
  | case2 product => exact (hnone h).symm
  | case3 n product next hinf =>
    rw [fallingProduct, fallingFactors, if_pos hinf, if_pos hinf]
    exact (if_pos hinf).symm
  | case4 n product next hinf ih =>
    rw [fallingProduct, fallingFactors, if_neg hinf, if_neg hinf, multiplyAll_cons]
    exact ih (Bool.eq_false_iff.2 hinf)

/-- A falling product is given up exactly if the product of all its factors is not finite. -/
theorem fallingProduct_eq_descending (n : Nat) {product : Float}
    (hn : (n : Rat) < Number.roundingBound) (hproduct : product.isFinite = true) :
    fallingProduct n product =
      if (multiplyAll product (descending n)).isFinite = true then
        some (multiplyAll product (descending n))
      else none := by
  induction n, product using fallingFactors.induct with
  | case1 product => exact (if_pos hproduct).symm
  | case2 product => exact (if_pos hproduct).symm
  | case3 n product next hinf =>
    have hbeyond : ¬ (multiplyAll next (descending (n + 1))).isFinite = true := by
      intro hfinite
      have hnext := (Number.isFinite_iff.1 (isFinite_of_multiplyAll hfinite)).2
      exact absurd (hinf.symm.trans hnext) (by decide)
    rw [fallingProduct, if_pos hinf, descending, multiplyAll_cons, if_neg hbeyond]
  | case4 n product next hinf ih =>
    rw [fallingProduct, if_neg hinf, descending, multiplyAll_cons]
    refine ih ?_ (isFinite_next hn hproduct hinf)
    push_cast at hn ⊢
    linarith

/-- The product is finite until its last factor. -/
theorem isFinite_multiplyAll_take (n : Nat) {product : Float}
    (hn : (n : Rat) < Number.roundingBound) (hproduct : product.isFinite = true) :
    ∀ j < (fallingFactors n product).length,
      (multiplyAll product ((descending n).take j)).isFinite = true := by
  induction n, product using fallingFactors.induct with
  | case1 product =>
    intro j h
    simp [fallingFactors] at h
  | case2 product =>
    intro j h
    simp [fallingFactors] at h
  | case3 n product next hinf =>
    intro j h
    rw [fallingFactors, if_pos hinf] at h
    obtain rfl : j = 0 := by simpa using h
    exact hproduct
  | case4 n product next hinf ih =>
    intro j h
    cases j with
    | zero => exact hproduct
    | succ j =>
      rw [fallingFactors, if_neg hinf, List.length_cons, Nat.add_lt_add_iff_right] at h
      rw [descending, List.take_succ_cons, multiplyAll_cons]
      refine ih ?_ (isFinite_next hn hproduct hinf) j h
      push_cast at hn ⊢
      linarith

/-- All factors are multiplied if the whole product is finite. -/
theorem fallingFactors_eq {n : Nat} {product : Float}
    (h : (multiplyAll product (descending n)).isFinite = true) :
    fallingFactors n product = descending n := by
  induction n, product using fallingFactors.induct with
  | case1 product => rfl
  | case2 product => rfl
  | case3 n product next hinf =>
    rw [descending, multiplyAll_cons] at h
    have hfinite := (Number.isFinite_iff.1 (isFinite_of_multiplyAll h)).2
    exact absurd (hinf.symm.trans hfinite) (by decide)
  | case4 n product next hinf ih =>
    rw [descending, multiplyAll_cons] at h
    rw [fallingFactors, if_neg hinf, descending, ih h]

/-! ## Errors of the products -/

/-- A finite product that is as near to the exact one as so many roundings allow. -/
structure IsRunning (roundings : Nat) (ideal : Rat) (product : Float) : Prop where
  isFinite : product.isFinite = true
  one_le : 1 ≤ Number.toRat product
  one_le_ideal : 1 ≤ ideal
  isNear : IsNear roundings ideal (Number.toRat product)

section Running

variable {j k : Nat} {ideal : Rat} {product : Float} {factors : List Nat}

theorem isRunning_one : IsRunning 0 1 1 := by
  have hone : Number.toRat 1 = 1 := by decide +kernel
  exact ⟨by decide, hone.ge, le_rfl, by rw [hone]; exact .refl 1⟩

/-- What one multiplication preserves. -/
theorem IsRunning.mul (h : IsRunning j ideal product) (hk : 1 ≤ k)
    (hbound : (k : Rat) < Number.roundingBound)
    (hfinite : (product * Number.ofRat k).isFinite = true) :
    IsRunning (j + 2) (ideal * k) (product * Number.ofRat k) := by
  have hk' : (1 : Rat) ≤ k := by exact_mod_cast hk
  have hfactor : (Number.ofRat k).isFinite = true := by
    rwa [Number.isFinite_ofRat_iff, abs_of_nonneg (Nat.cast_nonneg _)]
  have hone := Number.one_le_toRat_ofRat hk' hbound
  have hproduct : 1 ≤ Number.toRat product * Number.toRat (Number.ofRat k) :=
    one_le_mul_of_one_le_of_one_le h.one_le hone
  rw [Number.mul_eq_ofRat h.isFinite hfactor (by linarith)] at hfinite ⊢
  have hrange := Number.isFinite_ofRat_iff.1 hfinite
  rw [abs_of_pos (by linarith)] at hrange
  refine ⟨hfinite, Number.one_le_toRat_ofRat hproduct hrange,
    one_le_mul_of_one_le_of_one_le h.one_le_ideal hk', ?_⟩
  have hideal := h.one_le_ideal
  exact (h.isNear.mul (Number.isNear_toRat_ofRat hk' hbound) (by linarith) (by linarith)).trans
    (Number.isNear_toRat_ofRat hproduct hrange)

/-- What all multiplications preserve, if the product is finite. -/
theorem IsRunning.multiplyAll (h : IsRunning j ideal product)
    (hfactors : ∀ k ∈ factors, 1 ≤ k ∧ (k : Rat) < Number.roundingBound)
    (hfinite : (multiplyAll product factors).isFinite = true) :
    IsRunning (j + 2 * factors.length) (ideal * factors.prod)
      (Reckoner.multiplyAll product factors) := by
  induction factors generalizing j ideal product with
  | nil =>
    rw [List.prod_nil, Nat.cast_one, mul_one]
    exact h
  | cons k factors ih =>
    rw [multiplyAll_cons] at hfinite ⊢
    obtain ⟨hk, hbound⟩ := hfactors k List.mem_cons_self
    have hrest := ih (h.mul hk hbound (isFinite_of_multiplyAll hfinite))
      (fun i hi => hfactors i (List.mem_cons_of_mem _ hi)) hfinite
    rw [List.length_cons, List.prod_cons, Nat.cast_mul, ← mul_assoc,
      show j + 2 * (factors.length + 1) = j + 2 + 2 * factors.length by ring]
    exact hrest

/-- A factor is no closer to the bound than the product. -/
theorem IsRunning.factor_lt (h : IsRunning j ideal product)
    (hbound : ideal * k * (1 + unitRoundoff) ^ (j + 2) < Number.roundingBound) :
    (k : Rat) < Number.roundingBound := by
  have hideal := h.one_le_ideal
  have hk : (0 : Rat) ≤ k := Nat.cast_nonneg k
  calc (k : Rat) ≤ ideal * k := le_mul_of_one_le_left hk hideal
    _ ≤ ideal * k * (1 + unitRoundoff) ^ (j + 2) :=
        le_mul_of_one_le_right (mul_nonneg (by linarith) hk)
          (one_le_pow₀ Number.one_le_one_add_unitRoundoff)
    _ < Number.roundingBound := hbound

/-- A multiplication stays finite if its exact result is below the bound by more than the errors. -/
theorem IsRunning.isFinite_mul (h : IsRunning j ideal product) (hk : 1 ≤ k)
    (hbound : ideal * k * (1 + unitRoundoff) ^ (j + 2) < Number.roundingBound) :
    (product * Number.ofRat k).isFinite = true := by
  have hunit := Number.one_le_one_add_unitRoundoff
  have hideal := h.one_le_ideal
  have hk' : (1 : Rat) ≤ k := by exact_mod_cast hk
  have hexact : 0 ≤ ideal * k := mul_nonneg (by linarith) (by linarith)
  have hfactor := h.factor_lt hbound
  have hone := Number.one_le_toRat_ofRat hk' hfactor
  have hproduct : 1 ≤ Number.toRat product * Number.toRat (Number.ofRat k) :=
    one_le_mul_of_one_le_of_one_le h.one_le hone
  have hnear := h.isNear.mul (Number.isNear_toRat_ofRat hk' hfactor) (by linarith) (by linarith)
  have hfinite : (Number.ofRat k).isFinite = true := by
    rwa [Number.isFinite_ofRat_iff, abs_of_nonneg (by linarith)]
  rw [Number.mul_eq_ofRat h.isFinite hfinite (by linarith), Number.isFinite_ofRat_iff,
    abs_of_pos (by linarith)]
  calc Number.toRat product * Number.toRat (Number.ofRat k)
      ≤ ideal * k * (1 + unitRoundoff) ^ (j + 1) := hnear.ge
    _ ≤ ideal * k * (1 + unitRoundoff) ^ (j + 2) :=
        mul_le_mul_of_nonneg_left (pow_le_pow_right₀ hunit (by omega)) hexact
    _ < Number.roundingBound := hbound

/-- All multiplications stay finite if the exact product is below the bound by more than the
errors. -/
theorem IsRunning.isFinite_multiplyAll (h : IsRunning j ideal product)
    (hfactors : ∀ k ∈ factors, 1 ≤ k)
    (hbound : ideal * factors.prod * (1 + unitRoundoff) ^ (j + 2 * factors.length) <
      Number.roundingBound) :
    (Reckoner.multiplyAll product factors).isFinite = true := by
  induction factors generalizing j ideal product with
  | nil => exact h.isFinite
  | cons k factors ih =>
    have hk : 1 ≤ k := hfactors k List.mem_cons_self
    have hrest : (1 : Rat) ≤ factors.prod := by
      exact_mod_cast Nat.one_le_iff_ne_zero.2 (List.prod_ne_zero fun hzero =>
        absurd (hfactors 0 (List.mem_cons_of_mem _ hzero)) (by decide))
    have hunit := Number.one_le_one_add_unitRoundoff
    have hideal := h.one_le_ideal
    have hexact : 0 ≤ ideal * k := mul_nonneg (by linarith) (Nat.cast_nonneg k)
    rw [List.length_cons, List.prod_cons, Nat.cast_mul, ← mul_assoc,
      show j + 2 * (factors.length + 1) = j + 2 + 2 * factors.length by ring] at hbound
    -- the first multiplication is no closer to the bound than all together
    have hfirst : ideal * k * (1 + unitRoundoff) ^ (j + 2) < Number.roundingBound :=
      calc ideal * k * (1 + unitRoundoff) ^ (j + 2)
          ≤ ideal * k * factors.prod * (1 + unitRoundoff) ^ (j + 2 + 2 * factors.length) :=
            mul_le_mul (le_mul_of_one_le_right hexact hrest)
              (pow_le_pow_right₀ hunit (by omega)) (pow_nonneg (by linarith) _)
              (mul_nonneg hexact (by linarith))
        _ < Number.roundingBound := hbound
    rw [multiplyAll_cons]
    exact ih (h.mul hk (h.factor_lt hfirst) (h.isFinite_mul hk hfirst))
      (fun i hi => hfactors i (List.mem_cons_of_mem _ hi)) hbound

end Running

/-! ## The range of factorials -/

theorem two_zpow_natCast (k : Nat) : (2 : Rat) ^ (k : Int) = (2 ^ k : Nat) := by
  rw [zpow_natCast, Nat.cast_pow, Nat.cast_ofNat]

/-- The product of the first 170 factors is beyond the range, by more than the errors. -/
theorem roundingBound_le_descFactorial {n : Nat} (h : 171 ≤ n) :
    Number.roundingBound ≤ n.descFactorial 170 * (1 - unitRoundoff) ^ 340 := by
  have hleast : (171 : Nat).descFactorial 170 ≤ n.descFactorial 170 := Nat.descFactorial_le 170 h
  have hlarge : 2 * Number.roundingBound ≤ ((171 : Nat).descFactorial 170 : Nat) := by
    have hnat : 2 ^ 1025 ≤ (171 : Nat).descFactorial 170 := by decide +kernel
    calc 2 * Number.roundingBound
        ≤ 2 * 2 ^ (1024 : Int) :=
          mul_le_mul_of_nonneg_left Number.roundingBound_lt.le (by norm_num)
      _ = 2 ^ ((1025 : Nat) : Int) := (zpow_one_add₀ two_ne_zero 1024).symm
      _ = (2 ^ 1025 : Nat) := two_zpow_natCast 1025
      _ ≤ ((171 : Nat).descFactorial 170 : Nat) := Nat.cast_le.2 hnat
  have hhalf := (Number.unitRoundoff_pow (le_refl 340)).1
  calc Number.roundingBound = 2 * Number.roundingBound * (1 / 2) := by ring
    _ ≤ n.descFactorial 170 * (1 - unitRoundoff) ^ 340 :=
        mul_le_mul (hlarge.trans (Nat.cast_le.2 hleast)) hhalf (by norm_num) (Nat.cast_nonneg _)

/-- The greatest factorial of a double is within the range, by more than the errors. -/
theorem factorial_lt_roundingBound {n : Nat} (h : n ≤ 170) :
    (n.factorial : Rat) * 2 < Number.roundingBound := by
  have hgreatest : n.factorial ≤ (170 : Nat).factorial := Nat.factorial_le h
  have hsmall : ((170 : Nat).factorial : Rat) * 2 < Number.roundingBound := by
    have hnat : (170 : Nat).factorial * 2 ≤ 2 ^ 1023 := by decide +kernel
    calc ((170 : Nat).factorial : Rat) * 2
        = ((170 : Nat).factorial * 2 : Nat) := by rw [Nat.cast_mul, Nat.cast_ofNat]
      _ ≤ (2 ^ 1023 : Nat) := Nat.cast_le.2 hnat
      _ = 2 ^ ((1023 : Nat) : Int) := (two_zpow_natCast 1023).symm
      _ < Number.roundingBound := Number.two_zpow_1023_lt
  calc (n.factorial : Rat) * 2 ≤ (170 : Nat).factorial * 2 :=
        mul_le_mul_of_nonneg_right (Nat.cast_le.2 hgreatest) (by norm_num)
    _ < Number.roundingBound := hsmall

/-- Up to 170 the falling product is finite. -/
theorem isFinite_multiplyAll_descending {n : Nat} (h : n ≤ 170) :
    (multiplyAll 1 (descending n)).isFinite = true := by
  refine isRunning_one.isFinite_multiplyAll (fun k hk => ?_) ?_
  · have := mem_descending hk
    omega
  · rw [prod_descending, length_descending, one_mul, zero_add]
    have hpower := (Number.unitRoundoff_pow (show 2 * (n - 1) ≤ 340 by omega)).2
    calc (n.factorial : Rat) * (1 + unitRoundoff) ^ (2 * (n - 1)) ≤ n.factorial * 2 :=
          mul_le_mul_of_nonneg_left hpower (Nat.cast_nonneg _)
      _ < Number.roundingBound := factorial_lt_roundingBound h

/-- From 171 on the product of the first 170 factors is not finite. -/
theorem isFinite_multiplyAll_take_descending {n : Nat} (h : 171 ≤ n)
    (hn : (n : Rat) < Number.roundingBound) :
    (multiplyAll 1 ((descending n).take 170)).isFinite = false := by
  by_contra hfinite
  rw [Bool.not_eq_false] at hfinite
  have hfactors : ∀ k ∈ (descending n).take 170, 1 ≤ k ∧ (k : Rat) < Number.roundingBound := by
    intro k hk
    obtain ⟨htwo, hle⟩ := mem_descending (List.mem_of_mem_take hk)
    have hle' : (k : Rat) ≤ n := by exact_mod_cast hle
    exact ⟨by omega, hle'.trans_lt hn⟩
  have hnear := (isRunning_one.multiplyAll hfactors hfinite).isNear.le
  have hlength : ((descending n).take 170).length = 170 := by
    rw [List.length_take, length_descending]
    omega
  rw [hlength, prod_take_descending (by omega), one_mul] at hnear
  have hbeyond := roundingBound_le_descFactorial h
  exact absurd (Number.toRat_lt hfinite) (not_lt.2 (hbeyond.trans hnear))

/-- The product of all factors is finite up to 170 and no further. -/
theorem isFinite_multiplyAll_descending_iff {n : Nat} (hn : (n : Rat) < Number.roundingBound) :
    (multiplyAll 1 (descending n)).isFinite = true ↔ n ≤ 170 := by
  refine ⟨fun hfinite => ?_, isFinite_multiplyAll_descending⟩
  by_contra hgreat
  rw [← List.take_append_drop 170 (descending n), multiplyAll_append] at hfinite
  have hfirst := isFinite_of_multiplyAll hfinite
  rw [isFinite_multiplyAll_take_descending (by omega) hn] at hfirst
  exact absurd hfirst (by decide)

/-- No more than 170 factors are multiplied. -/
theorem length_fallingFactors_le {n : Nat} (hn : (n : Rat) < Number.roundingBound) :
    (fallingFactors n 1).length ≤ 170 := by
  by_contra hlong
  by_cases hgreat : 171 ≤ n
  · have hfinite := isFinite_multiplyAll_take n hn isRunning_one.isFinite 170 (by omega)
    rw [isFinite_multiplyAll_take_descending hgreat hn] at hfinite
    exact absurd hfinite (by decide)
  · have hle := (fallingFactors_isPrefix n 1).length_le
    rw [length_descending] at hle
    omega

/-- The falling product of a whole number is the product of all its factors up to 170, and given up
beyond. -/
theorem fallingProduct_one {n : Nat} (hn : (n : Rat) < Number.roundingBound) :
    fallingProduct n 1 = if 171 ≤ n then none else some (multiplyAll 1 (descending n)) := by
  rw [fallingProduct_eq_descending n hn isRunning_one.isFinite]
  by_cases hgreat : 171 ≤ n
  · rw [if_pos hgreat, if_neg]
    rw [isFinite_multiplyAll_descending_iff hn]
    omega
  · rw [if_neg hgreat, if_pos]
    exact isFinite_multiplyAll_descending (by omega)

/-! ## Main result -/

/-- The factorial of a finite operand, rounded to `n`, multiplies no more than 170 factors, all of
them doubles.  From `n = 171` on it reports one problem, which asks for the trace, and records
nothing; otherwise it multiplies all factors from `n` down to two, and records one step. -/
theorem runOn_factorial_of_isFinite (limits : Limits) (s : Session) {operand : Float}
    (h : operand.isFinite = true) :
    let n := Number.round operand
    let factors := fallingFactors n.toNat 1
    let run := (factorial operand).runOn limits s
    (factors.length ≤ 170 ∧ factors <+: descending n.toNat ∧
        fallingProduct n.toNat 1 =
          (if (multiplyAll 1 factors).isInf = true then none else some (multiplyAll 1 factors)) ∧
        ∀ k ∈ descending n.toNat, Number.ofInt? k = some (Number.ofRat k)) ∧
      (171 ≤ n →
        run = .ok failedValue (s.addProblem .factorialOverflow) ∧
          Problem.factorialOverflow.showsTrace = true) ∧
      (n < 171 →
        factors = descending n.toNat ∧
          run = .ok (multiplyAll 1 (descending n.toNat))
            (s.addStep limits ⟨.factorial operand n, Number.plainText operand ++ ['!']⟩)) := by
  intro n factors run
  have hn : ((n.toNat : Nat) : Rat) < Number.roundingBound := Number.toNat_round_lt h
  have hrun : run = _ := runOn_factorial limits s operand
  rw [if_neg (by rw [h]; decide), fallingProduct_one hn] at hrun
  refine ⟨⟨length_fallingFactors_le hn, fallingFactors_isPrefix _ _,
    fallingProduct_eq _ (Number.isFinite_iff.1 isRunning_one.isFinite).2, ?_⟩, ?_, ?_⟩
  · intro k hk
    have hle : (k : Rat) ≤ n.toNat := Nat.cast_le.2 (mem_descending hk).2
    have hfinite : (Number.ofRat ((k : Int) : Rat)).isFinite = true := by
      rw [Number.isFinite_ofRat_iff, Int.cast_natCast, abs_of_nonneg (Nat.cast_nonneg _)]
      exact hle.trans_lt hn
    rw [Number.ofInt?, if_pos hfinite, Int.cast_natCast]
  · intro hgreat
    rw [if_pos (by omega)] at hrun
    exact ⟨hrun, rfl⟩
  · intro hsmall
    rw [if_neg (by omega)] at hrun
    exact ⟨fallingFactors_eq (isFinite_multiplyAll_descending (by omega)), hrun⟩

/-- The factorial of 171 is the least one that is given up. -/
theorem runOn_factorial_171 :
    (171 : Float).isFinite = true ∧
      (factorial 171).runOn {} ⟨{}, .ofList []⟩ =
        .ok failedValue (Session.addProblem ⟨{}, .ofList []⟩ .factorialOverflow) := by
  have hround : Number.round 171 = 171 := by decide +kernel
  have hfinite : (171 : Float).isFinite = true := by decide +kernel
  exact ⟨hfinite, ((runOn_factorial_of_isFinite {} ⟨{}, .ofList []⟩ hfinite).2.1 hround.ge).1⟩

end Reckoner

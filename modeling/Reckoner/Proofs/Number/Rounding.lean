import Mathlib
import Reckoner.Number.Decimal
import Reckoner.Proofs.Number.Packing

/-!
# Rounding to doubles

Rounding a fraction to a double changes nothing where the fraction is the number of a double
(`ofRat_magnitude`), and gives a finite double below `roundingBound` only (`isFinite_ofRat_iff`).
A decimal number is rounded the same way however large its exponent is (`Decimal.toFloat_eq`).
-/

namespace Reckoner.Number

open Float.Model (UnpackedFloat)

/-! ## The nearest whole number -/

theorem floor_le (r : Rat) : (r.floor : Rat) ≤ r := Int.floor_le r

theorem lt_floor_add_one (r : Rat) : r < r.floor + 1 := Int.lt_floor_add_one r

theorem floor_eq_iff {r : Rat} {n : Int} : r.floor = n ↔ (n : Rat) ≤ r ∧ r < n + 1 := by
  show ⌊r⌋ = n ↔ _
  exact Int.floor_eq_iff

/-- The nearest whole number lies within a half. -/
theorem abs_roundHalfEven_sub_le (r : Rat) : |(roundHalfEven r : Rat) - r| ≤ 1 / 2 := by
  have hle := floor_le r
  have hlt := lt_floor_add_one r
  rw [abs_le]
  simp only [roundHalfEven]
  split_ifs <;> push_cast <;> constructor <;> linarith

theorem roundHalfEven_intCast (n : Int) : roundHalfEven n = n := by
  have hfloor : (n : Rat).floor = n := floor_eq_iff.2 ⟨le_refl _, by linarith⟩
  simp [roundHalfEven, hfloor]

theorem roundHalfEven_le {r : Rat} {n : Int} (h : r < n + 1 / 2) : roundHalfEven r ≤ n := by
  have hnear := (abs_le.1 (abs_roundHalfEven_sub_le r)).2
  have hlt : (roundHalfEven r : Rat) < n + 1 := by linarith
  exact Int.lt_add_one_iff.1 (by exact_mod_cast hlt)

theorem le_roundHalfEven {r : Rat} {n : Int} (h : n - 1 / 2 < r) : n ≤ roundHalfEven r := by
  have hnear := (abs_le.1 (abs_roundHalfEven_sub_le r)).1
  have hlt : (n : Rat) - 1 < roundHalfEven r := by linarith
  have hlt : n - 1 < roundHalfEven r := by exact_mod_cast hlt
  omega

/-- Half a unit below an even number is rounded up to it. -/
theorem le_roundHalfEven_of_even {r : Rat} {n : Int} (hn : n % 2 = 0) (h : n - 1 / 2 ≤ r) :
    n ≤ roundHalfEven r := by
  rcases lt_or_eq_of_le h with h | h
  · exact le_roundHalfEven h
  · have hfloor : r.floor = n - 1 := by
      refine floor_eq_iff.2 ⟨?_, ?_⟩ <;> push_cast <;> linarith
    have hpast : r - r.floor = 1 / 2 := by
      rw [hfloor]
      push_cast
      linarith
    simp only [roundHalfEven, hpast]
    rw [if_neg (lt_irrefl _), if_neg (lt_irrefl _), if_neg (by omega)]
    omega

/-! ## The last place of a fraction -/

theorem two_zpow_pos (e : Int) : (0 : Rat) < 2 ^ e := zpow_pos (by norm_num) e

/-- A number lies between the powers of two around it. -/
theorem log2_bounds {n : Nat} (h : n ≠ 0) :
    (2 : Rat) ^ (n.log2 : Int) ≤ n ∧ (n : Rat) < 2 ^ (n.log2 + 1 : Int) := by
  refine ⟨?_, ?_⟩
  · exact_mod_cast Nat.log2_self_le h
  · exact_mod_cast @Nat.lt_log2_self n

/-- The powers around the numerator and the denominator of a fraction leave two steps for the
fraction. -/
theorem zpow_bounds {base r : Rat} (hbase : 0 < base) (h : 0 < r) {p q : Int}
    (hnum : base ^ p ≤ r.num.natAbs ∧ (r.num.natAbs : Rat) < base ^ (p + 1))
    (hden : base ^ q ≤ r.den ∧ (r.den : Rat) < base ^ (q + 1)) :
    base ^ (p - q - 1) ≤ r ∧ r < base ^ (p - q + 1) := by
  have hpower (e : Int) : 0 < base ^ e := zpow_pos hbase e
  have hcast : (r.num.natAbs : Rat) = r * r.den := by
    rw [Rat.mul_den_eq_num, Nat.cast_natAbs, abs_of_pos (Rat.num_pos.2 h)]
  rw [hcast] at hnum
  constructor
  · rw [show p - q - 1 = p - (q + 1) by ring, zpow_sub₀ hbase.ne', div_le_iff₀ (hpower _)]
    calc base ^ p ≤ r * r.den := hnum.1
      _ ≤ r * base ^ (q + 1) := mul_le_mul_of_nonneg_left hden.2.le h.le
  · rw [show p - q + 1 = (p + 1) - q by ring, zpow_sub₀ hbase.ne', lt_div_iff₀ (hpower q)]
    calc r * base ^ q ≤ r * r.den := mul_le_mul_of_nonneg_left hden.1 h.le
      _ < base ^ (p + 1) := hnum.2

/-- A positive fraction lies between the powers of two around it. -/
theorem binaryExponent_spec {r : Rat} (h : 0 < r) :
    (2 : Rat) ^ binaryExponent r ≤ r ∧ r < 2 ^ (binaryExponent r + 1) := by
  have hnum : 0 < r.num := Rat.num_pos.2 h
  obtain ⟨hbelow, habove⟩ := zpow_bounds (by norm_num) h
    (log2_bounds (show r.num.natAbs ≠ 0 by omega)) (log2_bounds r.den_nz)
  simp only [binaryExponent]
  split
  · rename_i hle
    exact ⟨hle, habove⟩
  · rename_i hlt
    exact ⟨hbelow, by rw [sub_add_cancel]; exact not_le.1 hlt⟩

theorem leastExponent_le_lastPlace (r : Rat) : leastExponent ≤ lastPlace r := le_max_right _ _

/-- A fraction in units of its last place has no more bits than a double keeps. -/
theorem div_lastPlace_lt {r : Rat} (h : 0 < r) :
    r / 2 ^ lastPlace r < 2 * leastFullMantissa := by
  rw [div_lt_iff₀ (two_zpow_pos _)]
  calc r < 2 ^ (binaryExponent r + 1) := (binaryExponent_spec h).2
    _ ≤ 2 ^ (53 + lastPlace r) := by
        refine zpow_le_zpow_right₀ (by norm_num) ?_
        have := le_max_left (binaryExponent r - 52) leastExponent
        simp only [lastPlace]
        omega
    _ = 2 * leastFullMantissa * 2 ^ lastPlace r := by
        rw [zpow_add₀ (by norm_num), leastFullMantissa]
        norm_num

/-- A fraction in units of its last place has as many bits as a double keeps, unless the last place
is the least one. -/
theorem le_div_lastPlace {r : Rat} (h : 0 < r) (hplace : lastPlace r ≠ leastExponent) :
    (leastFullMantissa : Rat) ≤ r / 2 ^ lastPlace r := by
  have hlast : lastPlace r = binaryExponent r - 52 := by
    simp only [lastPlace] at hplace ⊢
    omega
  rw [le_div_iff₀ (two_zpow_pos _)]
  calc (leastFullMantissa : Rat) * 2 ^ lastPlace r = 2 ^ (52 + lastPlace r) := by
        rw [zpow_add₀ (by norm_num), leastFullMantissa]
        norm_num
    _ = 2 ^ binaryExponent r := by rw [hlast]; congr 1; ring
    _ ≤ r := (binaryExponent_spec h).1

/-! ## The nearest magnitude of a double -/

namespace Scaled

/-- The units of the last place that a fraction is rounded to. -/
def roundedUnits (r : Rat) : Int := roundHalfEven (r / 2 ^ lastPlace r)

theorem roundedUnits_nonneg {r : Rat} (h : 0 < r) : 0 ≤ roundedUnits r := by
  refine le_roundHalfEven ?_
  have := div_pos h (two_zpow_pos (lastPlace r))
  push_cast
  linarith

theorem roundedUnits_le {r : Rat} (h : 0 < r) : roundedUnits r ≤ 2 * leastFullMantissa := by
  refine roundHalfEven_le ?_
  have := div_lastPlace_lt h
  push_cast
  linarith

theorem le_roundedUnits {r : Rat} (h : 0 < r) (hplace : lastPlace r ≠ leastExponent) :
    (leastFullMantissa : Int) ≤ roundedUnits r := by
  refine le_roundHalfEven ?_
  have := le_div_lastPlace h hplace
  push_cast
  linarith

theorem nearest_of_carry {r : Rat} (h : roundedUnits r = 2 * leastFullMantissa) :
    nearest r = ⟨leastFullMantissa, lastPlace r + 1⟩ := by
  simp only [nearest]
  rw [if_pos]
  simp only [roundedUnits] at h
  omega

theorem nearest_of_lt {r : Rat} (h : 0 < r) (hlt : roundedUnits r < 2 * leastFullMantissa) :
    nearest r = ⟨(roundedUnits r).toNat, lastPlace r⟩ := by
  have h0 := roundedUnits_nonneg h
  simp only [nearest]
  rw [if_neg]
  · rfl
  · simp only [roundedUnits] at hlt h0
    omega

/-- What a fraction is rounded to is the magnitude of a double, if its exponent is not too great. -/
theorem isDouble_nearest {r : Rat} (h : 0 < r)
    (hgreatest : (nearest r).exponent ≤ greatestExponent) : (nearest r).IsDouble := by
  have hleast := leastExponent_le_lastPlace r
  rcases lt_or_eq_of_le (roundedUnits_le h) with hlt | hcarry
  · rw [nearest_of_lt h hlt] at hgreatest ⊢
    have hpos : 0 < leastFullMantissa := by decide
    refine ⟨?_, ?_, hleast, hgreatest⟩
    · simp only
      omega
    · by_cases hplace : lastPlace r = leastExponent
      · exact .inr hplace
      · have := le_roundedUnits h hplace
        left
        simp only
        omega
  · rw [nearest_of_carry hcarry] at hgreatest ⊢
    refine ⟨by simp [leastFullMantissa], .inl le_rfl, ?_, hgreatest⟩
    simp only
    omega

end Scaled

/-! ## The range of doubles -/

/-- The least number that is rounded to an infinity: half a unit above the greatest double. -/
def roundingBound : Rat := (2 ^ 54 - 1) * 2 ^ (970 : Int)

theorem roundingBound_pos : 0 < roundingBound := mul_pos (by norm_num) (two_zpow_pos 970)

theorem two_zpow_1023_lt : (2 : Rat) ^ (1023 : Int) < roundingBound := by
  rw [roundingBound, show (1023 : Int) = 53 + 970 by rfl, zpow_add₀ (by norm_num)]
  exact mul_lt_mul_of_pos_right (by norm_num) (two_zpow_pos 970)

theorem roundingBound_lt : roundingBound < 2 ^ (1024 : Int) := by
  rw [roundingBound, show (1024 : Int) = 54 + 970 by rfl, zpow_add₀ (by norm_num)]
  exact mul_lt_mul_of_pos_right (by norm_num) (two_zpow_pos 970)

theorem roundingBound_div : roundingBound / 2 ^ (971 : Int) = 2 * leastFullMantissa - 1 / 2 := by
  rw [roundingBound, show (971 : Int) = 1 + 970 by rfl, zpow_add₀ (by norm_num),
    mul_div_mul_right _ _ (two_zpow_pos 970).ne', leastFullMantissa]
  norm_num

namespace Scaled

/-- Below the bound, a fraction is rounded to a finite double. -/
theorem exponent_nearest_le {r : Rat} (h : 0 < r) (hr : r < roundingBound) :
    (nearest r).exponent ≤ greatestExponent := by
  have hexp : binaryExponent r < 1024 := (zpow_lt_zpow_iff_right₀ (by norm_num)).1
    (lt_trans (lt_of_le_of_lt (binaryExponent_spec h).1 hr) roundingBound_lt)
  have hplace : lastPlace r ≤ 971 := by
    simp only [lastPlace, leastExponent]
    omega
  rcases lt_or_eq_of_le (roundedUnits_le h) with hlt | hcarry
  · rw [nearest_of_lt h hlt]
    exact hplace
  · rw [nearest_of_carry hcarry]
    rcases lt_or_eq_of_le hplace with hlt | heq
    · exact Int.add_one_le_iff.2 hlt
    · -- at the last place of all, the bound leaves no room for a carry
      exfalso
      have hle : roundedUnits r ≤ (2 * leastFullMantissa - 1 : Int) := by
        refine roundHalfEven_le ?_
        rw [heq]
        calc r / 2 ^ (971 : Int) < roundingBound / 2 ^ (971 : Int) :=
              div_lt_div_of_pos_right hr (two_zpow_pos 971)
          _ = _ := by
              rw [roundingBound_div]
              push_cast
              ring
      omega

/-- From the bound on, a fraction is rounded beyond the doubles. -/
theorem lt_exponent_nearest {r : Rat} (hr : roundingBound ≤ r) :
    greatestExponent < (nearest r).exponent ∧ leastFullMantissa ≤ (nearest r).mantissa := by
  have h : 0 < r := lt_of_lt_of_le roundingBound_pos hr
  have hexp : 1023 ≤ binaryExponent r := by
    have hlt := lt_trans (lt_of_lt_of_le two_zpow_1023_lt hr) (binaryExponent_spec h).2
    have := (zpow_lt_zpow_iff_right₀ (by norm_num : (1 : Rat) < 2)).1 hlt
    omega
  have hlast : lastPlace r = binaryExponent r - 52 := by
    simp only [lastPlace, leastExponent]
    omega
  have hne : lastPlace r ≠ leastExponent := by
    rw [hlast, leastExponent]
    omega
  have hunits := le_roundedUnits h hne
  rcases lt_or_eq_of_le (roundedUnits_le h) with hlt | hcarry
  · rw [nearest_of_lt h hlt]
    refine ⟨?_, by simp only; omega⟩
    simp only [hlast, greatestExponent]
    rcases lt_or_eq_of_le hexp with hgt | heq
    · omega
    · -- at the last place of all, the bound is rounded up
      exfalso
      have hle : (2 * leastFullMantissa : Int) ≤ roundedUnits r := by
        refine le_roundHalfEven_of_even (by omega) ?_
        rw [hlast, ← heq]
        calc ((2 * leastFullMantissa : Int) : Rat) - 1 / 2 = roundingBound / 2 ^ (971 : Int) := by
              rw [roundingBound_div]
              push_cast
              ring
          _ ≤ r / 2 ^ (971 : Int) := div_le_div_of_nonneg_right hr (two_zpow_pos 971).le
      omega
  · rw [nearest_of_carry hcarry]
    refine ⟨?_, le_rfl⟩
    simp only [hlast, greatestExponent]
    omega

end Scaled

/-! ## Rounding a fraction to a double -/

theorem leastFullMantissa_pos : 0 < leastFullMantissa := by decide

theorem Scaled.isDouble_unpacked {s : Scaled} (h : s.IsDouble) (sign : UnpackedFloat.Sign) :
    Number.IsDouble (s.unpacked sign) := by
  unfold Scaled.unpacked
  split
  · exact h
  · trivial

/-- Beyond the greatest exponent there are only infinities. -/
theorem Scaled.pack_unpacked_of_lt {s : Scaled} (hlt : greatestExponent < s.exponent)
    (hfull : leastFullMantissa ≤ s.mantissa) (sign : UnpackedFloat.Sign) :
    Float.Model.pack (s.unpacked sign) = .pack (.infinity sign) := by
  have hpos : 0 < s.mantissa := leastFullMantissa_pos.trans_le hfull
  simp only [Scaled.unpacked, dif_pos hpos, Float.Model.pack, pack_beyond hlt]

/-- The sign of a fraction; zero counts as positive. -/
def signOf (r : Rat) : UnpackedFloat.Sign := if r < 0 then .negative else .positive

theorem ofRat_eq (r : Rat) :
    ofRat r = .ofModel (.pack ((Scaled.nearest |r|).unpacked (signOf r))) := by
  have habs : (if r < 0 then -r else r) = |r| := by
    split_ifs with h
    · exact (abs_of_neg h).symm
    · exact (abs_of_nonneg (not_lt.1 h)).symm
  simp only [ofRat, habs, signOf]

theorem nearest_zero : Scaled.nearest 0 = ⟨0, -53⟩ := by
  cbv

theorem ofRat_zero : ofRat 0 = .ofModel (.pack (.zero .positive)) := by
  cbv

theorem zero_eq : (0 : Float) = .ofModel (.pack (.zero .positive)) := by
  rfl

/-- Within the range, a rounded fraction is unpacked to what it was rounded to. -/
theorem unpack_ofRat {r : Rat} (h : |r| < roundingBound) :
    (ofRat r).toModel.unpack = (Scaled.nearest |r|).unpacked (signOf r) := by
  rw [ofRat_eq]
  refine unpack_pack ?_
  rcases (abs_nonneg r).eq_or_lt with h0 | hpos
  · rw [← h0, nearest_zero]
    trivial
  · exact Scaled.isDouble_unpacked
      (Scaled.isDouble_nearest hpos (Scaled.exponent_nearest_le hpos h)) _

/-- Beyond the range, a fraction is rounded to an infinity. -/
theorem ofRat_of_le {r : Rat} (h : roundingBound ≤ |r|) :
    ofRat r = .ofModel (.pack (.infinity (signOf r))) := by
  obtain ⟨hlt, hfull⟩ := Scaled.lt_exponent_nearest h
  rw [ofRat_eq, Scaled.pack_unpacked_of_lt hlt hfull]

theorem Scaled.isFinite_unpacked (s : Scaled) (sign : UnpackedFloat.Sign) :
    (s.unpacked sign).isFinite = true := by
  unfold Scaled.unpacked
  split <;> rfl

/-- A fraction is rounded to a finite double exactly if it is below the bound. -/
theorem isFinite_ofRat_iff {r : Rat} : (ofRat r).isFinite = true ↔ |r| < roundingBound := by
  constructor
  · intro h
    by_contra hge
    rw [ofRat_of_le (not_lt.1 hge)] at h
    revert h
    cases signOf r <;> decide
  · intro h
    show (ofRat r).toModel.unpack.isFinite = true
    rw [unpack_ofRat h]
    exact Scaled.isFinite_unpacked _ _

theorem ofInt?_eq_none_iff {n : Int} : ofInt? n = none ↔ roundingBound ≤ |(n : Rat)| := by
  have h : (ofRat n).isFinite = true ↔ |(n : Rat)| < roundingBound := isFinite_ofRat_iff
  simp only [ofInt?, ite_eq_right_iff, reduceCtorEq, imp_false, h, not_lt]

theorem isFinite_of_ofInt? {n : Int} {x : Float} (h : ofInt? n = some x) : x.isFinite = true := by
  simp only [ofInt?] at h
  split at h
  · rename_i hfinite
    rwa [Option.some.inj h] at hfinite
  · exact absurd h (by simp)

/-! ## Rounding the number of a double -/

/-- The number of a double is rounded to itself. -/
theorem Scaled.nearest_toRat {s : Scaled} (h : s.IsDouble) (hpos : 0 < s.mantissa) :
    nearest s.toRat = s := by
  have hm : (0 : Rat) < s.mantissa := by exact_mod_cast hpos
  have hr : 0 < s.toRat := mul_pos hm (two_zpow_pos _)
  have hplace : lastPlace s.toRat = s.exponent := by
    have hlt : s.toRat < 2 ^ (s.exponent + 53) := by
      rw [Scaled.toRat, add_comm, zpow_add₀ (by norm_num)]
      refine mul_lt_mul_of_pos_right ?_ (two_zpow_pos _)
      exact_mod_cast h.lt
    have hexp := (zpow_lt_zpow_iff_right₀ (by norm_num : (1 : Rat) < 2)).1
      ((binaryExponent_spec hr).1.trans_lt hlt)
    have hleast := h.least_le
    rcases h.full with hfull | hexponent
    · have hle : (2 : Rat) ^ (s.exponent + 52) ≤ s.toRat := by
        rw [Scaled.toRat, add_comm, zpow_add₀ (by norm_num)]
        refine mul_le_mul_of_nonneg_right ?_ (two_zpow_pos _).le
        exact_mod_cast hfull
      have hexp' := (zpow_lt_zpow_iff_right₀ (by norm_num : (1 : Rat) < 2)).1
        (hle.trans_lt (binaryExponent_spec hr).2)
      simp only [lastPlace]
      omega
    · simp only [lastPlace]
      omega
  have hunits : roundedUnits s.toRat = s.mantissa := by
    rw [roundedUnits, hplace, Scaled.toRat, mul_div_cancel_right₀ _ (two_zpow_pos _).ne']
    exact roundHalfEven_intCast s.mantissa
  have hlt := h.lt
  rw [nearest_of_lt hr (by omega), hunits, hplace]
  rfl

/-- The magnitude of a finite double is rounded to that magnitude. -/
theorem ofRat_magnitude {x : Float} (h : x.isFinite = true) : ofRat (magnitude x) = x.abs := by
  have hdouble := isDouble_unpack x.toModel
  have hfinite : x.toModel.unpack.isFinite = true := h
  show ofRat (scaled x).toRat = .ofModel (.pack x.toModel.unpack.abs)
  unfold scaled
  cases hx : x.toModel.unpack with
  | notANumber => simp [hx, UnpackedFloat.isFinite] at hfinite
  | infinity s => simp [hx, UnpackedFloat.isFinite] at hfinite
  | zero s => simpa [Scaled.toRat, UnpackedFloat.abs] using ofRat_zero
  | finite s m e hm =>
    rw [hx] at hdouble
    have hr : (0 : Rat) < (⟨m, e⟩ : Scaled).toRat :=
      mul_pos (by exact_mod_cast hm) (two_zpow_pos _)
    have hnearest : Scaled.nearest (⟨m, e⟩ : Scaled).toRat = ⟨m, e⟩ :=
      Scaled.nearest_toRat hdouble hm
    simp only [UnpackedFloat.abs, ofRat_eq, abs_of_pos hr, hnearest, signOf, not_lt.2 hr.le,
      if_false, Scaled.unpacked, dif_pos hm]

/-! ## Decimal numbers -/

/-- Below half the smallest double, a fraction is rounded to zero. -/
theorem ofRat_of_small {r : Rat} (h0 : 0 < r) (h : r < 2 ^ (-1075 : Int)) : ofRat r = 0 := by
  have hexp := (zpow_lt_zpow_iff_right₀ (by norm_num : (1 : Rat) < 2)).1
    ((binaryExponent_spec h0).1.trans_lt h)
  have hplace : lastPlace r = -1074 := by
    simp only [lastPlace, leastExponent]
    omega
  have hunits : Scaled.roundedUnits r ≤ 0 := by
    refine roundHalfEven_le ?_
    rw [hplace, div_lt_iff₀ (two_zpow_pos _)]
    calc r < 2 ^ (-1075 : Int) := h
      _ = ((0 : Int) + 1 / 2) * 2 ^ (-1074 : Int) := by
          rw [show (-1074 : Int) = 1 + -1075 by rfl, zpow_add₀ (by norm_num), ← mul_assoc]
          norm_num
  have hnearest := Scaled.nearest_of_lt h0 (hunits.trans_lt (by simp [leastFullMantissa]))
  rw [Int.toNat_of_nonpos hunits] at hnearest
  rw [ofRat_eq, abs_of_pos h0, hnearest, signOf, if_neg (not_lt.2 h0.le), zero_eq]
  rfl

namespace Decimal

theorem toRat_pos {d : Decimal} (h : d.digits ≠ 0) : 0 < d.toRat :=
  mul_pos (by exact_mod_cast Nat.pos_of_ne_zero h) (zpow_pos (by norm_num) _)

theorem two_zpow_le_ten_zpow : (2 : Rat) ^ (1075 : Int) ≤ 10 ^ (farExponent : Int) := by
  calc (2 : Rat) ^ (1075 : Int) ≤ 2 ^ (1200 : Int) :=
        zpow_le_zpow_right₀ (by norm_num) (by norm_num)
    _ = (2 ^ (3 : Int)) ^ (400 : Int) := by
        rw [← zpow_mul]
        norm_num
    _ ≤ 10 ^ (400 : Int) := zpow_le_zpow_left₀ (by norm_num) (by norm_num) (by norm_num)

/-- A decimal number with a large exponent is beyond the range. -/
theorem roundingBound_le_toRat {d : Decimal} (h : d.digits ≠ 0) (he : farExponent < d.exponent) :
    roundingBound ≤ d.toRat := by
  have hdigits : (1 : Rat) ≤ d.digits := by exact_mod_cast Nat.one_le_iff_ne_zero.2 h
  calc roundingBound ≤ 2 ^ (1024 : Int) := roundingBound_lt.le
    _ ≤ 2 ^ (1075 : Int) := zpow_le_zpow_right₀ (by norm_num) (by norm_num)
    _ ≤ 10 ^ (farExponent : Int) := two_zpow_le_ten_zpow
    _ ≤ 10 ^ d.exponent := zpow_le_zpow_right₀ (by norm_num) he.le
    _ ≤ d.toRat := le_mul_of_one_le_left (zpow_pos (by norm_num) _).le hdigits

/-- A decimal number with a small exponent is less than half the smallest double. -/
theorem toRat_lt_of_far {d : Decimal} (h : d.digits ≠ 0)
    (he : d.exponent + d.digits.log2 < -farExponent) : d.toRat < 2 ^ (-1075 : Int) := by
  have hten : ∀ e : Int, (0 : Rat) < 10 ^ e := by
    intro e
    exact zpow_pos (by norm_num) e
  calc d.toRat < 2 ^ (d.digits.log2 + 1 : Int) * 10 ^ d.exponent :=
        mul_lt_mul_of_pos_right (log2_bounds h).2 (hten _)
    _ ≤ 10 ^ (d.digits.log2 + 1 : Int) * 10 ^ d.exponent := by
        refine mul_le_mul_of_nonneg_right ?_ (hten _).le
        exact zpow_le_zpow_left₀ (by omega) (by norm_num) (by norm_num)
    _ = 10 ^ (d.digits.log2 + 1 + d.exponent : Int) := (zpow_add₀ (by norm_num) _ _).symm
    _ ≤ 10 ^ (-(farExponent : Int)) := zpow_le_zpow_right₀ (by norm_num) (by omega)
    _ ≤ 2 ^ (-1075 : Int) := by
        rw [zpow_neg, zpow_neg]
        exact inv_anti₀ (two_zpow_pos _) two_zpow_le_ten_zpow

/-- A decimal number is rounded as a fraction, however large its exponent is. -/
theorem toFloat_eq (d : Decimal) : d.toFloat = ofRat d.toRat := by
  unfold toFloat
  split_ifs with hzero hlarge hsmall
  · rw [toRat, hzero, zero_eq, ← ofRat_zero]
    simp
  · have hle := roundingBound_le_toRat hzero hlarge
    have hpos := toRat_pos hzero
    rw [ofRat_of_le (by rwa [abs_of_pos hpos]), signOf, if_neg (not_lt.2 hpos.le)]
    rfl
  · exact (ofRat_of_small (toRat_pos hzero) (toRat_lt_of_far hzero hsmall)).symm
  · rfl

end Decimal

end Reckoner.Number

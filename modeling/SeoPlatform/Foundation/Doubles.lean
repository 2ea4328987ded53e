import Mathlib.Data.Int.Log
import Mathlib.Tactic.FieldSimp
import Mathlib.Tactic.Ring
import SeoPlatform.Foundation.Rounding

namespace SeoPlatform.Foundation.Doubles

open SeoPlatform.Foundation.Rounding

variable {K : Type} [Field K] [LinearOrder K] [FloorRing K] [IsStrictOrderedRing K]

section Halves

/-- An odd number is rounded to from above the middle below it. -/
theorem le_roundEven_iff_of_odd {n : Int} (hn : Odd n) (x : K) :
    n ≤ roundEven x ↔ (n : K) - 1 / 2 < x := by
  have hx := Int.floor_add_fract x
  have hlow := Int.fract_nonneg x
  have hhigh := Int.fract_lt_one x
  rcases lt_trichotomy ⌊x⌋ (n - 1) with hbelow | heq | habove
  · have hround := roundEven_le_floor x
    have hcast : (⌊x⌋ : K) + 1 ≤ (n : K) - 1 := by exact_mod_cast Int.add_one_le_iff.mpr hbelow
    refine iff_of_false (by omega) ?_
    linarith
  · have heven : Even ⌊x⌋ := by
      rw [heq]
      exact hn.sub_odd odd_one
    have hcast : (⌊x⌋ : K) = n - 1 := by
      rw [heq]
      push_cast
      ring
    unfold roundEven
    split_ifs with hunder hover
    · refine iff_of_false (by omega) ?_
      linarith
    · refine iff_of_true (by omega) ?_
      linarith
    · refine iff_of_false (by omega) ?_
      linarith
  · have hround := floor_le_roundEven x
    have hcast : (n : K) ≤ ⌊x⌋ := by exact_mod_cast (by omega : n ≤ ⌊x⌋)
    refine iff_of_true (by omega) ?_
    linarith

end Halves

section Floats

/-- The distance between the numbers of so many binary digits where a number lies. -/
def unitAt (digits : Nat) (x : K) : K := 2 ^ (Int.log 2 |x| + 1 - digits)

/-- The number of so many binary digits that is nearest to a number, and between two of
them the one whose last digit is even. Exponents have no bounds. -/
def nearest (digits : Nat) (x : K) : K :=
  roundEven (x / unitAt digits x) * unitAt digits x

/-- The nearest double. -/
def double (x : Rat) : Rat := nearest 53 x

variable {digits : Nat} {x : K}

/-- Between two powers of two the numbers are as far apart everywhere. -/
theorem nearest_of_between {e : Int} (hlow : (2 : K) ^ e ≤ x) (hhigh : x < 2 ^ (e + 1)) :
    nearest digits x =
      roundEven (x / 2 ^ (e + 1 - digits)) * 2 ^ (e + 1 - digits) := by
  have hpos : 0 < x := lt_of_lt_of_le (zpow_pos (by norm_num) e) hlow
  have hlog : Int.log 2 x = e := by
    apply le_antisymm
    · have hlt := (Int.lt_zpow_iff_log_lt (b := 2) (by norm_num) hpos).mp
        (show x < ((2 : Nat) : K) ^ (e + 1) by exact_mod_cast hhigh)
      omega
    · exact (Int.zpow_le_iff_le_log (by norm_num) hpos).mp (by exact_mod_cast hlow)
  unfold nearest unitAt
  rw [abs_of_pos hpos, hlog]

theorem exists_between (hpos : 0 < x) :
    ∃ e : Int, (2 : K) ^ e ≤ x ∧ x < 2 ^ (e + 1) := by
  refine ⟨Int.log 2 x, ?_, ?_⟩
  · exact_mod_cast Int.zpow_log_le_self (b := 2) (by norm_num) hpos
  · exact_mod_cast Int.lt_zpow_succ_log_self (b := 2) (by norm_num) x

omit [FloorRing K] in
/-- A higher power of two is so many times a lower one. -/
theorem zpow_eq_mul (n : Nat) (e : Int) :
    (2 : K) ^ (e + n) = ((2 ^ n : Int) : K) * 2 ^ e := by
  push_cast
  rw [zpow_add₀ two_ne_zero, zpow_natCast, mul_comm]

/-- Powers of two bound what is nearest to a number as they bound the number. -/
theorem zpow_le_nearest (hdigits : 1 ≤ digits) {e : Int} (h : (2 : K) ^ e ≤ x) :
    2 ^ e ≤ nearest digits x := by
  obtain ⟨f, hlow, hhigh⟩ := exists_between (lt_of_lt_of_le (zpow_pos two_pos e) h)
  have hle : e ≤ f := by
    have hlt : (2 : K) ^ e < 2 ^ (f + 1) := lt_of_le_of_lt h hhigh
    rw [zpow_lt_zpow_iff_right₀ one_lt_two] at hlt
    omega
  have hunit : (0 : K) < 2 ^ (f + 1 - digits) := zpow_pos two_pos _
  have hpower : (2 : K) ^ f = ((2 ^ (digits - 1) : Int) : K) * 2 ^ (f + 1 - digits) := by
    rw [← zpow_eq_mul]
    congr 1
    omega
  have hround : (2 ^ (digits - 1) : Int) ≤ roundEven (x / 2 ^ (f + 1 - digits)) := by
    apply le_roundEven
    rwa [le_div_iff₀ hunit, ← hpower]
  rw [nearest_of_between hlow hhigh]
  calc (2 : K) ^ e ≤ 2 ^ f := zpow_le_zpow_right₀ one_lt_two.le hle
    _ = ((2 ^ (digits - 1) : Int) : K) * 2 ^ (f + 1 - digits) := hpower
    _ ≤ _ := mul_le_mul_of_nonneg_right (Int.cast_le.mpr hround) hunit.le

theorem nearest_le_zpow (hpos : 0 < x) {e : Int} (h : x < 2 ^ e) :
    nearest digits x ≤ 2 ^ e := by
  obtain ⟨f, hlow, hhigh⟩ := exists_between hpos
  have hle : f + 1 ≤ e := by
    have hlt : (2 : K) ^ f < 2 ^ e := lt_of_le_of_lt hlow h
    rw [zpow_lt_zpow_iff_right₀ one_lt_two] at hlt
    omega
  have hunit : (0 : K) < 2 ^ (f + 1 - digits) := zpow_pos two_pos _
  have hpower : (2 : K) ^ (f + 1) = ((2 ^ digits : Int) : K) * 2 ^ (f + 1 - digits) := by
    rw [← zpow_eq_mul]
    congr 1
    omega
  have hround : roundEven (x / 2 ^ (f + 1 - digits)) ≤ (2 ^ digits : Int) := by
    apply roundEven_le
    rw [div_le_iff₀ hunit, ← hpower]
    exact hhigh.le
  rw [nearest_of_between hlow hhigh]
  calc _ ≤ ((2 ^ digits : Int) : K) * 2 ^ (f + 1 - digits) :=
        mul_le_mul_of_nonneg_right (Int.cast_le.mpr hround) hunit.le
    _ = 2 ^ (f + 1) := hpower.symm
    _ ≤ 2 ^ e := zpow_le_zpow_right₀ one_lt_two.le hle

theorem nearest_neg (x : K) : nearest digits (-x) = -nearest digits x := by
  unfold nearest unitAt
  rw [abs_neg, neg_div, roundEven_neg, Int.cast_neg, neg_mul]

@[simp] theorem nearest_zero : nearest digits (0 : K) = 0 := by
  have hround : roundEven (0 : K) = 0 := by simpa using roundEven_intCast 0
  unfold nearest
  rw [zero_div, hround, Int.cast_zero, zero_mul]

theorem nearest_nonneg (h : 0 ≤ x) : 0 ≤ nearest digits x := by
  have hunit : 0 ≤ unitAt digits x := (zpow_pos two_pos _).le
  have hround : 0 ≤ roundEven (x / unitAt digits x) :=
    le_roundEven (by rw [Int.cast_zero]; exact div_nonneg h hunit)
  exact mul_nonneg (by exact_mod_cast hround) hunit

theorem nearest_mono_of_pos {y : K} (hdigits : 1 ≤ digits) (hpos : 0 < x) (h : x ≤ y) :
    nearest digits x ≤ nearest digits y := by
  obtain ⟨e, hlow, hhigh⟩ := exists_between hpos
  obtain ⟨f, hlow', hhigh'⟩ := exists_between (lt_of_lt_of_le hpos h)
  have hle : e ≤ f := by
    have hlt : (2 : K) ^ e < 2 ^ (f + 1) := lt_of_le_of_lt hlow (lt_of_le_of_lt h hhigh')
    rw [zpow_lt_zpow_iff_right₀ one_lt_two] at hlt
    omega
  rcases hle.eq_or_lt with rfl | hlt
  · have hunit : (0 : K) < 2 ^ (e + 1 - digits) := zpow_pos two_pos _
    rw [nearest_of_between hlow hhigh, nearest_of_between hlow' hhigh']
    apply mul_le_mul_of_nonneg_right _ hunit.le
    rw [Int.cast_le]
    exact roundEven_mono (div_le_div_of_nonneg_right h hunit.le)
  · calc nearest digits x ≤ 2 ^ (e + 1) := nearest_le_zpow hpos hhigh
      _ ≤ 2 ^ f := zpow_le_zpow_right₀ one_lt_two.le (by omega)
      _ ≤ nearest digits y := zpow_le_nearest hdigits hlow'

theorem nearest_mono {y : K} (hdigits : 1 ≤ digits) (h : x ≤ y) :
    nearest digits x ≤ nearest digits y := by
  rcases lt_or_ge 0 x with hpos | hx
  · exact nearest_mono_of_pos hdigits hpos h
  · have hneg : nearest digits x ≤ 0 := by
      have hmirror := (nearest_nonneg (neg_nonneg.mpr hx) : 0 ≤ nearest digits (-x))
      rw [nearest_neg] at hmirror
      linarith
    rcases lt_or_ge y 0 with hy | hy
    · have hmirror := nearest_mono_of_pos hdigits (neg_pos.mpr hy) (neg_le_neg h)
      rw [nearest_neg, nearest_neg] at hmirror
      linarith
    · exact hneg.trans (nearest_nonneg hy)

theorem double_mono {x y : Rat} (h : x ≤ y) : double x ≤ double y :=
  nearest_mono (by decide) h

/-- What is nearest to a number reaches a number of so many digits, the last of them odd,
where the number is beyond the middle below it. -/
theorem le_nearest_iff_of_odd {n e : Int} (hodd : Odd n) (hlow : 2 ^ (digits - 1) < n)
    (hhigh : n < 2 ^ digits) (hpos : 0 < x) :
    n * 2 ^ e ≤ nearest digits x ↔ (n - 1 / 2) * 2 ^ e < x := by
  have hdigits : 1 ≤ digits := by
    rcases Nat.eq_zero_or_pos digits with hzero | hpos
    · rw [hzero] at hlow hhigh
      simp at hlow hhigh
      omega
    · exact hpos
  have hunit : (0 : K) < 2 ^ e := zpow_pos two_pos e
  have hfirst : ((2 ^ (digits - 1) : Int) : K) + 1 ≤ n := by
    exact_mod_cast Int.add_one_le_iff.mpr hlow
  have hlast : (n : K) < ((2 ^ digits : Int) : K) := Int.cast_lt.mpr hhigh
  have hbelow : (2 : K) ^ (e + (digits - 1 : Nat)) < (n - 1 / 2) * 2 ^ e := by
    rw [zpow_eq_mul]
    apply mul_lt_mul_of_pos_right _ hunit
    linarith
  have habove : (n : K) * 2 ^ e < 2 ^ (e + digits) := by
    rw [zpow_eq_mul]
    exact mul_lt_mul_of_pos_right hlast hunit
  have hmiddle : ((n : K) - 1 / 2) * 2 ^ e < n * 2 ^ e := by
    apply mul_lt_mul_of_pos_right _ hunit
    linarith
  rcases lt_or_ge x (2 ^ (e + (digits - 1 : Nat))) with hsmall | hlarge
  · have hnearest : nearest digits x ≤ 2 ^ (e + (digits - 1 : Nat)) := nearest_le_zpow hpos hsmall
    refine iff_of_false ?_ ?_ <;> linarith
  · rcases lt_or_ge x (2 ^ (e + digits)) with hinside | hbeyond
    · have hend : e + (digits - 1 : Nat) + 1 = e + digits := by omega
      have hstep : e + (digits - 1 : Nat) + 1 - digits = e := by omega
      rw [nearest_of_between hlarge (by rwa [hend]), hstep, mul_le_mul_iff_left₀ hunit,
        Int.cast_le, le_roundEven_iff_of_odd hodd, lt_div_iff₀ hunit]
    · have hnearest := zpow_le_nearest hdigits hbeyond
      refine iff_of_true ?_ ?_ <;> linarith

example : double (1 / 10) = 3602879701896397 / 36028797018963968 := by decide +kernel

end Floats

end SeoPlatform.Foundation.Doubles

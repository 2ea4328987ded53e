import Mathlib.Algebra.Order.Floor.Ring
import Mathlib.Algebra.Ring.Int.Parity
import Mathlib.Data.Rat.Floor
import Mathlib.Tactic.Linarith

namespace SeoPlatform.Foundation.Rounding

-- The numerals of the definitions in this module and above it.
instance atLeastTwo_two : Nat.AtLeastTwo 2 := ⟨le_refl 2⟩

instance atLeastTwo_hundred : Nat.AtLeastTwo 100 := ⟨by decide⟩

variable {K : Type} [Field K] [LinearOrder K] [FloorRing K]

/-- The nearest whole number, and between two of them the even one. -/
def roundEven (x : K) : Int :=
  if Int.fract x * 2 < 1 then ⌊x⌋
  else if 1 < Int.fract x * 2 then ⌊x⌋ + 1
  else if Even ⌊x⌋ then ⌊x⌋
  else ⌊x⌋ + 1

/-- To one digit after the point. -/
def roundTenth (x : K) : K := roundEven (x * 10) / 10

/-- To two digits. -/
def roundHundredth (x : K) : K := roundEven (x * 100) / 100

theorem floor_le_roundEven (x : K) : ⌊x⌋ ≤ roundEven x := by
  unfold roundEven
  split_ifs <;> omega

theorem roundEven_le_floor (x : K) : roundEven x ≤ ⌊x⌋ + 1 := by
  unfold roundEven
  split_ifs <;> omega

theorem le_roundEven {n : Int} {x : K} (h : (n : K) ≤ x) : n ≤ roundEven x :=
  (Int.le_floor.mpr h).trans (floor_le_roundEven x)

variable [IsStrictOrderedRing K]

@[simp] theorem roundEven_intCast (n : Int) : roundEven (n : K) = n := by
  simp [roundEven]

theorem roundEven_mono {x y : K} (h : x ≤ y) : roundEven x ≤ roundEven y := by
  rcases (Int.floor_le_floor h).lt_or_eq with hlt | heq
  · have hx := roundEven_le_floor x
    have hy := floor_le_roundEven y
    omega
  · have hfract : Int.fract x ≤ Int.fract y := by
      have hx := Int.floor_add_fract x
      have hy := Int.floor_add_fract y
      rw [heq] at hx
      linarith
    unfold roundEven
    rw [heq]
    split_ifs <;> first | omega | (exfalso; linarith)

theorem roundEven_le {n : Int} {x : K} (h : x ≤ (n : K)) : roundEven x ≤ n := by
  simpa using roundEven_mono h

theorem roundEven_neg (x : K) : roundEven (-x) = -roundEven x := by
  by_cases hwhole : Int.fract x = 0
  · obtain ⟨n, rfl⟩ : ∃ n : Int, (n : K) = x := ⟨⌊x⌋, by
      have hx := Int.floor_add_fract x
      rwa [hwhole, add_zero] at hx⟩
    rw [← Int.cast_neg, roundEven_intCast, roundEven_intCast]
  · have hfract : Int.fract (-x) = 1 - Int.fract x := Int.fract_neg hwhole
    have hfloor : ⌊-x⌋ = -⌊x⌋ - 1 := by
      have hpos : 0 < Int.fract x := lt_of_le_of_ne (Int.fract_nonneg x) (Ne.symm hwhole)
      have hx := Int.floor_add_fract x
      have hlt := Int.fract_lt_one x
      rw [Int.floor_eq_iff]
      push_cast
      constructor <;> linarith
    have heven : Even (-⌊x⌋ - 1) ↔ ¬ Even ⌊x⌋ := by
      rw [Int.even_sub_one, even_neg]
    unfold roundEven
    rw [hfract, hfloor]
    split_ifs <;> first | omega | (exfalso; linarith) | tauto

theorem roundHundredth_neg (x : K) : roundHundredth (-x) = -roundHundredth x := by
  unfold roundHundredth
  rw [neg_mul, roundEven_neg, Int.cast_neg, neg_div]

theorem roundTenth_neg (x : K) : roundTenth (-x) = -roundTenth x := by
  unfold roundTenth
  rw [neg_mul, roundEven_neg, Int.cast_neg, neg_div]

theorem roundTenth_roundTenth (x : K) : roundTenth (roundTenth x) = roundTenth x := by
  have hwhole : (roundEven (x * 10) : K) / 10 * 10 = roundEven (x * 10) :=
    div_mul_cancel₀ _ (by norm_num)
  unfold roundTenth
  rw [hwhole, roundEven_intCast]

theorem roundTenth_nonneg {x : K} (h : 0 ≤ x) : 0 ≤ roundTenth x := by
  have hround : (0 : Int) ≤ roundEven (x * 10) := le_roundEven (by simpa using h)
  have hcast : (0 : K) ≤ (roundEven (x * 10) : K) := by exact_mod_cast hround
  unfold roundTenth
  linarith

theorem roundTenth_le {n : Int} {x : K} (h : x ≤ (n : K)) : roundTenth x ≤ (n : K) := by
  have hround : roundEven (x * 10) ≤ n * 10 := by
    apply roundEven_le
    push_cast
    linarith
  have hcast : (roundEven (x * 10) : K) ≤ (n : K) * 10 := by exact_mod_cast hround
  unfold roundTenth
  linarith

example : [2.5, 3.5, 3.2, -0.5].map (roundEven : Rat → Int) = [2, 4, 3, 0] := by decide +kernel

end SeoPlatform.Foundation.Rounding

import Mathlib.Algebra.Order.Field.Power
import Mathlib.Data.Rat.Cast.Order
import Mathlib.Tactic.FieldSimp
import Mathlib.Tactic.Linarith
import Mathlib.Tactic.NormNum
import Mathlib.Tactic.Positivity
import LoxLexer.Proofs.Weight

/-!
# Rounding to the nearest number

A code stands for a rational number by its exponent field and its fraction field. `Rounds` says what
it is to round a rational that is not negative to the nearest number, ties to the even code, and
nothing else fits (`Rounds.unique`). The nearest number that is computed from a quotient is that one
(`rounds_nearest`).
-/

namespace LoxLexer.Binary64

/-- What the two fields of a code stand for. -/
def magnitude (code : Nat) : ℚ :=
  if code / 2 ^ 52 = 0 then (code % 2 ^ 52 : Nat) / 2 ^ 52 * 2 ^ (-1022 : ℤ)
  else (1 + (code % 2 ^ 52 : Nat) / 2 ^ 52) * 2 ^ ((code / 2 ^ 52 : Nat) - 1023 : ℤ)

/-- The value of a number; those above all finite ones have none. -/
def toRat (x : Binary64) : ℚ := if x.negative then -magnitude x.code else magnitude x.code

def IsFinite (x : Binary64) : Prop := x.code < infinityCode

/-- The number is nearest to a rational that is not negative, and of two nearest ones it is the
even one. Infinity is nearest from the middle between the greatest finite number and `2 ^ 1024`. -/
structure Rounds (q : ℚ) (x : Binary64) : Prop where
  nonnegative : x.negative = false
  number : x.isNaN = false
  infinite_iff : x.isInfinite ↔ 2 ^ 1024 - 2 ^ 970 ≤ q
  nearest : x.IsFinite → ∀ y : Binary64, y.IsFinite → |x.toRat - q| ≤ |y.toRat - q|
  even : x.IsFinite → ∀ y : Binary64, y.IsFinite → y.toRat ≠ x.toRat →
    |y.toRat - q| = |x.toRat - q| → x.code % 2 = 0

theorem cast_unitsPerOne : (unitsPerOne : ℚ) = 2 ^ (1074 : ℤ) := by
  rw [unitsPerOne_eq, Nat.cast_pow, Nat.cast_ofNat, zpow_ofNat]

theorem cast_unitsPerOne_pos : (0 : ℚ) < unitsPerOne := by
  rw [cast_unitsPerOne]
  positivity

theorem magnitude_eq (code : Nat) : magnitude code = weight code / unitsPerOne := by
  have two : (2 : ℚ) ≠ 0 := two_ne_zero
  rw [magnitude, weight_eq, cast_unitsPerOne, eq_div_iff (zpow_ne_zero _ two)]
  split
  · rw [mul_assoc, ← zpow_add₀ two]
    norm_num
  · rename_i normal
    obtain ⟨e, exponent⟩ := Nat.exists_eq_succ_of_ne_zero normal
    have shift : (((e + 1 : Nat) : ℤ) - 1023) + 1074 = 52 + e := by push_cast; ring
    rw [exponent, mul_assoc, ← zpow_add₀ two, shift, zpow_add₀ two, zpow_natCast]
    push_cast
    norm_num
    ring

theorem magnitude_strictMono : StrictMono magnitude := by
  intro k l below
  rw [magnitude_eq, magnitude_eq, div_lt_div_iff_of_pos_right cast_unitsPerOne_pos]
  exact_mod_cast weight_strictMono below

/-- The middle between a code and the next one. -/
def middle (code : Nat) : ℚ := (magnitude code + magnitude (code + 1)) / 2

theorem middle_eq (code : Nat) : middle code = twiceMiddle code / (2 * unitsPerOne) := by
  rw [middle, magnitude_eq, magnitude_eq, twiceMiddle, Nat.cast_add, ← add_div, div_div, mul_comm]

theorem lt_nearestCode_iff_middle {n d k : Nat} (hd : 0 < d) (finite : k < infinityCode) :
    k < nearestCode n d ↔ middle k < n / d ∨ middle k = n / d ∧ k % 2 = 1 := by
  have hd' : (0 : ℚ) < d := by exact_mod_cast hd
  have units : (0 : ℚ) < 2 * unitsPerOne := mul_pos two_pos cast_unitsPerOne_pos
  have swap : (n : ℚ) * (2 * unitsPerOne) = 2 * (n * unitsPerOne) := by ring
  rw [lt_nearestCode_iff hd finite, middle_eq, div_lt_div_iff₀ units hd',
    div_eq_div_iff units.ne' hd'.ne', swap]
  norm_cast

theorem middle_inside (code : Nat) :
    magnitude code < middle code ∧ middle code < magnitude (code + 1) := by
  have grows := magnitude_strictMono (Nat.lt_succ_self code)
  rw [middle]
  constructor <;> linarith

section Nearest
variable {n d : Nat} (hd : 0 < d)
include hd

/-- The quotient is not below the middles that are passed. -/
theorem middle_le {k : Nat} (passed : k < nearestCode n d) :
    middle k < n / d ∨ middle k = n / d ∧ k % 2 = 1 :=
  (lt_nearestCode_iff_middle hd (passed.trans_le (nearestCode_le n d))).mp passed

/-- Nor is it above the next one. -/
theorem le_middle (finite : nearestCode n d < infinityCode) :
    n / d < middle (nearestCode n d) ∨
      n / d = middle (nearestCode n d) ∧ nearestCode n d % 2 = 0 := by
  have notPassed := mt (lt_nearestCode_iff_middle hd finite).mpr (Nat.lt_irrefl _)
  rw [not_or, not_lt, not_and] at notPassed
  obtain ⟨le, ends⟩ := notPassed
  rcases le.lt_or_eq with lt | eq
  · exact Or.inl lt
  · have notOdd := ends eq.symm
    exact Or.inr ⟨eq, by omega⟩

/-- What a code stands for is rounded to that code. -/
theorem nearestCode_of_magnitude {code : Nat} (le : code ≤ infinityCode)
    (exact : (n : ℚ) / d = magnitude code) : nearestCode n d = code := by
  rcases Nat.lt_trichotomy (nearestCode n d) code with below | same | above
  · have finite := below.trans_le le
    have next := magnitude_strictMono.monotone (Nat.succ_le_of_lt below)
    have inside := (middle_inside (nearestCode n d)).2
    rcases le_middle hd finite with lt | ⟨eq, _⟩ <;> linarith
  · exact same
  · have inside := (middle_inside code).1
    rcases middle_le hd above with lt | ⟨eq, _⟩ <;> linarith

/-- No code stands for anything nearer. -/
theorem magnitude_nearest (finite : nearestCode n d < infinityCode) (k : Nat) :
    |magnitude (nearestCode n d) - n / d| ≤ |magnitude k - n / d| := by
  have upper := le_abs_self (magnitude k - n / d)
  have lower := neg_abs_le (magnitude k - n / d)
  rcases Nat.lt_trichotomy k (nearestCode n d) with below | rfl | above
  · obtain ⟨c, same⟩ := Nat.exists_eq_add_one_of_ne_zero (Nat.ne_zero_of_lt below)
    have passed : c < nearestCode n d := by omega
    have grows := magnitude_strictMono below
    have last := magnitude_strictMono.monotone (show k ≤ c by omega)
    have middles : middle c ≤ n / d := (middle_le hd passed).elim le_of_lt fun tie => tie.1.le
    rw [middle, ← same] at middles
    rw [abs_le]
    constructor <;> linarith
  · exact le_rfl
  · have grows := magnitude_strictMono above
    have next := magnitude_strictMono.monotone (Nat.succ_le_of_lt above)
    have middles : n / d ≤ middle (nearestCode n d) :=
      (le_middle hd finite).elim le_of_lt fun tie => tie.1.le
    rw [middle] at middles
    rw [abs_le]
    constructor <;> linarith

/-- Of two codes that are equally near the even one is taken. -/
theorem nearestCode_even (finite : nearestCode n d < infinityCode) {k : Nat}
    (other : magnitude k ≠ magnitude (nearestCode n d))
    (tie : |magnitude k - n / d| = |magnitude (nearestCode n d) - n / d|) :
    nearestCode n d % 2 = 0 := by
  have between : magnitude k + magnitude (nearestCode n d) = 2 * (n / d) := by
    rcases abs_eq_abs.mp tie with same | opposite
    · exact absurd (sub_left_injective same) other
    · linarith
  rcases Nat.lt_trichotomy k (nearestCode n d) with below | rfl | above
  · obtain ⟨c, same⟩ := Nat.exists_eq_add_one_of_ne_zero (Nat.ne_zero_of_lt below)
    have passed : c < nearestCode n d := by omega
    have last := magnitude_strictMono.monotone (show k ≤ c by omega)
    rcases middle_le hd passed with lt | ⟨_, odd⟩
    · rw [middle, ← same] at lt
      linarith
    · omega
  · exact absurd rfl other
  · have next := magnitude_strictMono.monotone (Nat.succ_le_of_lt above)
    rcases le_middle hd finite with lt | ⟨_, even⟩
    · rw [middle] at lt
      linarith
    · exact even

end Nearest

/-! The two ends: what is too great for a number, and what is too small. -/

theorem middle_before_infinity : middle (infinityCode - 1) = 2 ^ 1024 - 2 ^ 970 := by
  have last : infinityCode - 1 = (2 ^ 53 - 1) + 2045 * 2 ^ 52 := by decide
  have next : infinityCode - 1 + 1 = 2 ^ 53 + 2045 * 2 ^ 52 := by decide
  have bits : 2 ^ 53 - 1 + 2 ^ 53 = 2 ^ 54 - 1 := by decide
  have twice : twiceMiddle (infinityCode - 1) = (2 ^ 54 - 1) * 2 ^ 2045 := by
    rw [twiceMiddle, next, last, weight_shifted (by decide) (Or.inr (by decide)),
      weight_shifted (by decide) (Or.inr (by decide)), ← Nat.add_mul, bits]
  have ones : ((2 ^ 54 - 1 : Nat) : ℚ) = 2 ^ 54 - 1 := by norm_num
  have units : 2 * (unitsPerOne : ℚ) = 2 ^ 1075 := by
    rw [unitsPerOne_eq, Nat.cast_pow, Nat.cast_ofNat, ← pow_succ']
  have places : (2 : ℚ) ^ 2045 = 2 ^ 970 * 2 ^ 1075 := by rw [← pow_add]
  have more : (2 : ℚ) ^ 1024 = 2 ^ 54 * 2 ^ 970 := by rw [← pow_add]
  rw [middle_eq, twice, units, Nat.cast_mul, Nat.cast_pow, Nat.cast_ofNat, ones, places,
    ← mul_assoc, mul_div_cancel_right₀ _ (pow_ne_zero _ two_ne_zero), more, sub_mul, one_mul]

theorem middle_zero : middle 0 = 2 ^ (-1075 : ℤ) := by
  have twice : twiceMiddle 0 = 1 := by decide
  have two : (2 : ℚ) ≠ 0 := two_ne_zero
  have units : 2 * (unitsPerOne : ℚ) = 2 ^ (1075 : ℤ) := by
    rw [cast_unitsPerOne, ← zpow_one_add₀ two]
    norm_num
  rw [middle_eq, twice, units, Nat.cast_one, one_div, zpow_neg]

section Ends
variable {n d : Nat} (hd : 0 < d)
include hd

theorem nearestCode_eq_infinityCode_iff :
    nearestCode n d = infinityCode ↔ 2 ^ 1024 - 2 ^ 970 ≤ (n : ℚ) / d := by
  have last : infinityCode - 1 < infinityCode := by decide
  have odd : (infinityCode - 1) % 2 = 1 := by decide
  have bound := nearestCode_le n d
  have passed := lt_nearestCode_iff_middle (n := n) hd last
  rw [middle_before_infinity] at passed
  constructor
  · intro infinite
    rcases passed.mp (by omega) with lt | ⟨eq, _⟩
    · exact lt.le
    · exact eq.le
  · intro great
    have beyond : infinityCode - 1 < nearestCode n d :=
      passed.mpr (great.lt_or_eq.imp id fun eq => ⟨eq, odd⟩)
    omega

theorem nearestCode_eq_zero_iff : nearestCode n d = 0 ↔ (n : ℚ) / d ≤ 2 ^ (-1075 : ℤ) := by
  have passed := lt_nearestCode_iff_middle (n := n) hd (k := 0) (by decide)
  rw [middle_zero] at passed
  constructor
  · intro zero
    refine not_lt.mp fun great => ?_
    have beyond := passed.mpr (Or.inl great)
    omega
  · intro small
    by_contra nonzero
    rcases passed.mp (Nat.pos_of_ne_zero nonzero) with lt | ⟨_, odd⟩
    · exact absurd small (not_le.mpr lt)
    · omega

end Ends

theorem magnitude_zero : magnitude 0 = 0 := by
  rw [magnitude_eq, weight_eq]
  norm_num

theorem magnitude_nonneg (code : Nat) : 0 ≤ magnitude code := by
  rw [← magnitude_zero]
  exact magnitude_strictMono.monotone (Nat.zero_le code)

theorem toRat_of_nonnegative {x : Binary64} (h : x.negative = false) :
    x.toRat = magnitude x.code := by
  rw [toRat, h]
  rfl

/-- A negative number is not nearer than its opposite. -/
theorem abs_magnitude_sub_le {q : ℚ} (hq : 0 ≤ q) (y : Binary64) :
    |magnitude y.code - q| ≤ |y.toRat - q| := by
  have nonneg := magnitude_nonneg y.code
  rw [toRat]
  split
  · rw [abs_le, abs_of_nonpos (by linarith)]
    constructor <;> linarith
  · exact le_rfl

/-- The nearest number to a quotient is what it is rounded to. -/
theorem rounds_nearest (n : Nat) {d : Nat} (hd : 0 < d) : Rounds (n / d) (nearest n d) := by
  have nonneg : (0 : ℚ) ≤ n / d := by positivity
  have value : (nearest n d).toRat = magnitude (nearestCode n d) := toRat_of_nonnegative rfl
  refine ⟨rfl, isNaN_nearest n d, ?_, ?_, ?_⟩
  · rw [← nearestCode_eq_infinityCode_iff hd]
    exact decide_eq_true_iff
  · intro finite y _
    rw [value]
    exact (magnitude_nearest hd finite y.code).trans (abs_magnitude_sub_le nonneg y)
  · intro finite y _ other tie
    rw [value] at other tie
    -- A negative number is farther from the quotient than zero is.
    have nearZero := magnitude_nearest hd finite 0
    have same : y.toRat = magnitude y.code := by
      have magnitude_nonneg := magnitude_nonneg y.code
      by_cases negative : y.negative
      · rw [toRat, if_pos negative] at tie ⊢
        rw [← tie, magnitude_zero, zero_sub, abs_neg, abs_of_nonneg nonneg,
          abs_of_nonpos (by linarith)] at nearZero
        linarith
      · rw [toRat, if_neg negative]
    rw [same] at other tie
    exact nearestCode_even hd finite other tie

namespace Rounds
variable {q : ℚ} {x y : Binary64}

theorem isFinite_iff (hx : Rounds q x) : x.IsFinite ↔ q < 2 ^ 1024 - 2 ^ 970 := by
  have number : ¬ infinityCode < x.code := of_decide_eq_false hx.number
  have infinite : x.code = infinityCode ↔ 2 ^ 1024 - 2 ^ 970 ≤ q :=
    decide_eq_true_iff.symm.trans hx.infinite_iff
  rw [← not_le, ← infinite, IsFinite]
  omega

/-- Two numbers that are equally near are not both even, unless one between them is nearer. -/
theorem not_code_lt (hx : Rounds q x) (hy : Rounds q y) (finite : y.IsFinite) :
    ¬ x.code < y.code := by
  intro below
  have finite' : x.IsFinite := below.trans finite
  have tie : |y.toRat - q| = |x.toRat - q| :=
    le_antisymm (hy.nearest finite x finite') (hx.nearest finite' y finite)
  have evenX := hx.even finite' y finite
  have evenY := hy.even finite x finite'
  have nearest := hx.nearest finite'
  rw [toRat_of_nonnegative hx.nonnegative] at tie evenX evenY nearest
  rw [toRat_of_nonnegative hy.nonnegative] at tie evenX evenY
  have grows := magnitude_strictMono below
  have between : magnitude y.code + magnitude x.code = 2 * q := by
    rcases abs_eq_abs.mp tie with same | opposite
    · exact absurd (sub_left_injective same) grows.ne'
    · linarith
  by_cases adjacent : x.code + 1 = y.code
  · have even := evenX grows.ne' tie
    have even' := evenY grows.ne tie.symm
    omega
  · have inside : x.code + 1 < y.code := by omega
    let z : Binary64 := ⟨false, x.code + 1, inside.trans y.code_lt⟩
    have nearer := nearest z (inside.trans finite)
    have first := magnitude_strictMono (Nat.lt_succ_self x.code)
    have last := magnitude_strictMono inside
    have value : z.toRat = magnitude (x.code + 1) := toRat_of_nonnegative rfl
    rw [value, abs_of_neg (by linarith), le_abs] at nearer
    rcases nearer with above | below <;> linarith

/-- A rational is rounded to one number only. -/
theorem unique (hx : Rounds q x) (hy : Rounds q y) : x = y := by
  refine Binary64.ext (hx.nonnegative.trans hy.nonnegative.symm) ?_
  by_cases finite : q < 2 ^ 1024 - 2 ^ 970
  · have notAbove := hx.not_code_lt hy (hy.isFinite_iff.mpr finite)
    have notBelow := hy.not_code_lt hx (hx.isFinite_iff.mpr finite)
    omega
  · have great := not_lt.mp finite
    have infinite : x.code = infinityCode := of_decide_eq_true (hx.infinite_iff.mpr great)
    have infinite' : y.code = infinityCode := of_decide_eq_true (hy.infinite_iff.mpr great)
    rw [infinite, infinite']

end Rounds

end LoxLexer.Binary64

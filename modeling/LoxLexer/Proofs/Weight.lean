import Mathlib.Order.Monotone.Basic
import Mathlib.Tactic.Ring
import LoxLexer.Number.Binary64

/-!
# Codes and their weights

The weight of a code is a whole number of at most 53 bits times a power of two, and weights grow
with their codes. A quotient lies between the weights of two codes that follow each other, and the
middle between them tells which of the two is nearest (`lt_nearestCode_iff`). Whatever else is said
about rounding is read off this comparison; how the code was found plays no part.
-/

namespace LoxLexer.Binary64

theorem unitsPerOne_eq : unitsPerOne = 2 ^ 1074 := by decide +kernel

theorem weight_eq (code : Nat) :
    weight code = if code / 2 ^ 52 = 0 then code % 2 ^ 52
      else (2 ^ 52 + code % 2 ^ 52) * 2 ^ (code / 2 ^ 52 - 1) :=
  rfl

/-- The weight of a number of at most 53 bits that is moved up by some places. Where it is moved
up, it has all of its bits. -/
theorem weight_shifted {m shift : Nat} (fits : m ≤ 2 ^ 53) (full : shift = 0 ∨ 2 ^ 52 ≤ m) :
    weight (m + shift * 2 ^ 52) = m * 2 ^ shift := by
  rw [weight_eq]
  by_cases small : m < 2 ^ 52
  · obtain rfl : shift = 0 := by omega
    have exponent : (m + 0 * 2 ^ 52) / 2 ^ 52 = 0 := by omega
    rw [if_pos exponent]
    omega
  · by_cases carry : m = 2 ^ 53
    · have exponent : (m + shift * 2 ^ 52) / 2 ^ 52 = shift + 1 + 1 := by omega
      have fraction : (m + shift * 2 ^ 52) % 2 ^ 52 = 0 := by omega
      rw [exponent, fraction, if_neg (Nat.succ_ne_zero _), carry, Nat.add_sub_cancel, Nat.pow_succ]
      omega
    · have exponent : (m + shift * 2 ^ 52) / 2 ^ 52 = shift + 1 := by omega
      have mantissa : 2 ^ 52 + (m + shift * 2 ^ 52) % 2 ^ 52 = m := by omega
      rw [exponent, mantissa, if_neg (Nat.succ_ne_zero _), Nat.add_sub_cancel]

/-- Every code is such a number, with room for one more. -/
theorem exists_shifted (code : Nat) :
    ∃ m shift, code = m + shift * 2 ^ 52 ∧ m < 2 ^ 53 ∧ (shift = 0 ∨ 2 ^ 52 ≤ m) := by
  by_cases small : code / 2 ^ 52 = 0
  · exact ⟨code, 0, by omega, by omega, Or.inl rfl⟩
  · exact ⟨2 ^ 52 + code % 2 ^ 52, code / 2 ^ 52 - 1, by omega, by omega, by omega⟩

theorem weight_strictMono : StrictMono weight := by
  refine strictMono_nat_of_lt_succ fun code => ?_
  obtain ⟨m, shift, rfl, fits, full⟩ := exists_shifted code
  have next : m + shift * 2 ^ 52 + 1 = (m + 1) + shift * 2 ^ 52 := by omega
  rw [next, weight_shifted fits.le full, weight_shifted (by omega) (by omega)]
  exact Nat.mul_lt_mul_of_pos_right (Nat.lt_succ_self m) (Nat.two_pow_pos shift)

/-- Twice the middle between the weights of a code and of the next one. -/
def twiceMiddle (code : Nat) : Nat := weight code + weight (code + 1)

/-! The quotient `units / d`, cut off after 53 bits. -/

/-- How many of the lower bits are cut off. -/
def shiftOf (units d : Nat) : Nat := (units / d).log2 - 52

/-- The bits that are left. -/
def mantissaOf (units d : Nat) : Nat := units / (d * 2 ^ shiftOf units d)

/-- The last code whose weight is not above the quotient. -/
def codeBelow (units d : Nat) : Nat := mantissaOf units d + shiftOf units d * 2 ^ 52

section Quotient
variable (units : Nat) {d : Nat}

theorem mantissaOf_lt : mantissaOf units d < 2 ^ 53 := by
  rw [mantissaOf, ← Nat.div_div_eq_div_mul, Nat.div_lt_iff_lt_mul (Nat.two_pow_pos _),
    ← Nat.pow_add]
  have bound : units / d < 2 ^ ((units / d).log2 + 1) := Nat.lt_log2_self
  have places : (units / d).log2 + 1 ≤ 53 + shiftOf units d := by
    rw [shiftOf]
    omega
  exact bound.trans_le (Nat.pow_le_pow_right (by decide) places)

theorem mantissaOf_full : shiftOf units d = 0 ∨ 2 ^ 52 ≤ mantissaOf units d := by
  by_cases short : shiftOf units d = 0
  · exact Or.inl short
  · right
    have places : 52 + shiftOf units d = (units / d).log2 := by
      rw [shiftOf] at short ⊢
      omega
    have nonzero : units / d ≠ 0 := by
      intro none
      rw [none, Nat.log2_zero] at places
      omega
    rw [mantissaOf, ← Nat.div_div_eq_div_mul, Nat.le_div_iff_mul_le (Nat.two_pow_pos _),
      ← Nat.pow_add, places]
    exact Nat.log2_self_le nonzero

theorem weight_codeBelow :
    weight (codeBelow units d) = mantissaOf units d * 2 ^ shiftOf units d :=
  weight_shifted (mantissaOf_lt units).le (mantissaOf_full units)

theorem weight_codeBelow_succ :
    weight (codeBelow units d + 1) = (mantissaOf units d + 1) * 2 ^ shiftOf units d := by
  have fits := mantissaOf_lt units (d := d)
  have full := mantissaOf_full units (d := d)
  have next : codeBelow units d + 1 = (mantissaOf units d + 1) + shiftOf units d * 2 ^ 52 := by
    rw [codeBelow]
    omega
  rw [next, weight_shifted (by omega) (by omega)]

/-- The quotient is at least the weight of the one code, and less than that of the next. -/
theorem units_between (hd : 0 < d) : weight (codeBelow units d) * d ≤ units ∧
    units < weight (codeBelow units d + 1) * d := by
  have pos : 0 < d * 2 ^ shiftOf units d := Nat.mul_pos hd (Nat.two_pow_pos _)
  have lower : mantissaOf units d * (d * 2 ^ shiftOf units d) ≤ units := Nat.div_mul_le_self _ _
  have upper : units < (mantissaOf units d + 1) * (d * 2 ^ shiftOf units d) :=
    (Nat.div_lt_iff_lt_mul pos).mp (Nat.lt_succ_self _)
  rw [weight_codeBelow, weight_codeBelow_succ, Nat.mul_assoc, Nat.mul_assoc, Nat.mul_comm _ d]
  exact ⟨lower, upper⟩

/-- Rounding chooses between these two codes by the middle of their weights. -/
theorem roundHalfEven_eq :
    roundHalfEven units (d * 2 ^ shiftOf units d) + shiftOf units d * 2 ^ 52 =
      if 2 * units < twiceMiddle (codeBelow units d) * d ∨
          2 * units = twiceMiddle (codeBelow units d) * d ∧ codeBelow units d % 2 = 0
      then codeBelow units d else codeBelow units d + 1 := by
  have cut : d * 2 ^ shiftOf units d * mantissaOf units d +
      units % (d * 2 ^ shiftOf units d) = units := Nat.div_add_mod _ _
  have middle : twiceMiddle (codeBelow units d) * d =
      2 * (d * 2 ^ shiftOf units d * mantissaOf units d) + d * 2 ^ shiftOf units d := by
    rw [twiceMiddle, weight_codeBelow, weight_codeBelow_succ]
    ring
  have parity : codeBelow units d % 2 = mantissaOf units d % 2 := by
    rw [codeBelow]
    omega
  have quotient : units / (d * 2 ^ shiftOf units d) = mantissaOf units d := rfl
  rw [middle, parity, roundHalfEven, quotient, codeBelow]
  split <;> split <;> omega

/-- The quotient is rounded to a code above `k` exactly if it is beyond the middle between `k` and
the next code, or is the middle and the next code is the even one. -/
theorem lt_rounded_iff (hd : 0 < d) {k : Nat} :
    k < roundHalfEven units (d * 2 ^ shiftOf units d) + shiftOf units d * 2 ^ 52 ↔
      twiceMiddle k * d < 2 * units ∨ twiceMiddle k * d = 2 * units ∧ k % 2 = 1 := by
  obtain ⟨lower, upper⟩ := units_between units hd
  have split : twiceMiddle k * d = weight k * d + weight (k + 1) * d := Nat.add_mul _ _ _
  rw [roundHalfEven_eq]
  rcases Nat.lt_trichotomy k (codeBelow units d) with below | rfl | above
  · have here : weight k * d < weight (codeBelow units d) * d :=
      Nat.mul_lt_mul_of_pos_right (weight_strictMono below) hd
    have next : weight (k + 1) * d ≤ weight (codeBelow units d) * d :=
      Nat.mul_le_mul_right d (weight_strictMono.monotone below)
    constructor
    · omega
    · intro _
      split_ifs <;> omega
  · split_ifs <;> omega
  · have here : weight (codeBelow units d + 1) * d ≤ weight k * d :=
      Nat.mul_le_mul_right d (weight_strictMono.monotone above)
    have next : weight k * d ≤ weight (k + 1) * d :=
      Nat.mul_le_mul_right d (weight_strictMono.monotone (Nat.le_succ k))
    constructor
    · split_ifs <;> omega
    · omega

end Quotient

theorem lt_nearestCode_iff {n d k : Nat} (hd : 0 < d) (finite : k < infinityCode) :
    k < nearestCode n d ↔
      twiceMiddle k * d < 2 * (n * unitsPerOne) ∨
        twiceMiddle k * d = 2 * (n * unitsPerOne) ∧ k % 2 = 1 := by
  rw [← lt_rounded_iff _ hd]
  exact lt_min_iff.trans (and_iff_left finite)

end LoxLexer.Binary64

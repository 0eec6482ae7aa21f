/-!
# Binary64 numbers

A binary64 number is a sign and a 63-bit code. Below the code of infinity, codes are in the order
of the magnitudes they stand for, so rounding a magnitude is choosing a code. Magnitudes are
counted in units of 2^-1074, the least positive one, which makes every finite magnitude a natural
number.
-/

namespace LoxLexer

@[ext] structure Binary64 where
  negative : Bool
  code : Nat
  code_lt : code < Nat.pow 2 63
  deriving DecidableEq

namespace Binary64

/-- The code of infinity; those above it are not numbers. -/
def infinityCode : Nat := 2047 * Nat.pow 2 52

/-- How many times the least positive magnitude goes into one. -/
@[irreducible] def unitsPerOne : Nat := Nat.pow 2 1074

/-- The magnitude of a code in units of 2^-1074; infinity counts as 2^1024. -/
def weight (code : Nat) : Nat :=
  let exponent := code / Nat.pow 2 52
  let fraction := code % Nat.pow 2 52
  if exponent = 0 then fraction else (Nat.pow 2 52 + fraction) * Nat.pow 2 (exponent - 1)

/-- A quotient rounded to the nearest natural number, a half to the even one. -/
def roundHalfEven (n d : Nat) : Nat :=
  if 2 * (n % d) < d ∨ (2 * (n % d) = d ∧ n / d % 2 = 0) then n / d else n / d + 1

/-- The code nearest to `n / d`, a half to the even one. -/
def nearestCode (n d : Nat) : Nat :=
  let units := n * unitsPerOne
  let shift := (units / d).log2 - 52
  min (roundHalfEven units (d * Nat.pow 2 shift) + shift * Nat.pow 2 52) infinityCode

theorem nearestCode_le (n d : Nat) : nearestCode n d ≤ infinityCode := Nat.min_le_right _ _

theorem infinityCode_lt : infinityCode < Nat.pow 2 63 := by decide

/-- The number nearest to `n / d`. -/
def nearest (n d : Nat) : Binary64 :=
  ⟨false, nearestCode n d, Nat.lt_of_le_of_lt (nearestCode_le n d) infinityCode_lt⟩

/-- The 64 bits as one natural number, the sign first. -/
def toBits (x : Binary64) : Nat := (if x.negative then Nat.pow 2 63 else 0) + x.code

def ofBits (bits : Nat) : Binary64 :=
  ⟨bits / Nat.pow 2 63 % 2 = 1, bits % Nat.pow 2 63, Nat.mod_lt _ (by decide)⟩

def isNaN (x : Binary64) : Bool := infinityCode < x.code

def isInfinite (x : Binary64) : Bool := x.code = infinityCode

def isZero (x : Binary64) : Bool := x.code = 0

/-- Equality of numbers: both zeros are equal, and what is not a number equals nothing. -/
def equal (x y : Binary64) : Bool :=
  !x.isNaN && !y.isNaN && (x == y || (x.isZero && y.isZero))

theorem ofBits_toBits (x : Binary64) : ofBits x.toBits = x := by
  obtain ⟨negative, code, code_lt⟩ := x
  have bound : code < 2 ^ 63 := code_lt
  apply Binary64.ext
  · cases negative with
    | false => exact decide_eq_false (by change ¬ (0 + code) / 2 ^ 63 % 2 = 1; omega)
    | true => exact decide_eq_true (by change (2 ^ 63 + code) / 2 ^ 63 % 2 = 1; omega)
  · cases negative with
    | false => change (0 + code) % 2 ^ 63 = code; omega
    | true => change (2 ^ 63 + code) % 2 ^ 63 = code; omega

theorem equal_self_iff {x : Binary64} : x.equal x ↔ x.isNaN = false := by
  simp [equal]

theorem isNaN_nearest (n d : Nat) : (nearest n d).isNaN = false := by
  exact decide_eq_false (Nat.not_lt.mpr (nearestCode_le n d))

end Binary64

end LoxLexer

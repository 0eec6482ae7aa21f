import LoxLexer.Number.Decimal

/-!
# The fewest digits that read back

Among the decimals whose nearest binary64 number is the given one, the shortest is on the coarsest
power-of-ten grid that holds any. Grids are tried from coarse to fine. On each grid only the two
neighbours of the value matter; of two that read back the nearer wins, and a half goes up. The
value itself is on the grid of 10^-1074, so the search needs no more than that.
-/

namespace LoxLexer.Binary64

/-- A power of ten above the magnitude `w · 2^-1074`. -/
def coarsestExponent (w : Nat) : Int :=
  let bits := w.log2 + 1
  if 1074 ≤ bits then (bits - 1074) / 3 + 1 else -((1074 - bits) * 3 / 10 : Nat)

/-- Of two neighbours the one that is accepted; of two accepted ones the nearer. -/
def neighbour? (accepts : Nat → Bool) (below : Nat) (belowIsNearer : Bool) : Option Nat :=
  if accepts (below + 1) && !(accepts below && belowIsNearer) then some (below + 1)
  else if accepts below then some below
  else none

def readsBack (code : Nat) (exponent : Int) (coefficient : Nat) : Bool :=
  (Decimal.mk coefficient exponent).nearestCode == code

/-- The coefficient on the grid of 10^exponent that reads back as the code, if there is one. -/
def gridCoefficient? (code : Nat) (exponent : Int) : Option Nat :=
  let n := weight code * Nat.pow 10 (-exponent).toNat
  let d := unitsPerOne * Nat.pow 10 exponent.toNat
  neighbour? (readsBack code exponent) (n / d) (2 * (n % d) < d)

/-- The exact value, on the finest grid. -/
def exactDecimal (code : Nat) : Decimal := ⟨weight code * Nat.pow 5 1074, -1074⟩

/-- What is on the first grid that has a coefficient, from this one to the finest. -/
def onFirstGrid (coefficient? : Int → Option Nat) (finest : Decimal) : Nat → Int → Decimal
  | 0, _ => finest
  | grids + 1, exponent =>
      match coefficient? exponent with
      | some coefficient => ⟨coefficient, exponent⟩
      | none => onFirstGrid coefficient? finest grids (exponent - 1)

/-- The shortest decimal that reads back as a finite code. -/
def shortest (code : Nat) : Decimal :=
  let exponent := coarsestExponent (weight code)
  onFirstGrid (gridCoefficient? code) (exactDecimal code) (exponent + 1074).toNat exponent

theorem accepts_of_neighbour? {accepts : Nat → Bool} {below chosen : Nat} {nearer : Bool}
    (h : neighbour? accepts below nearer = some chosen) : accepts chosen = true := by
  unfold neighbour? at h
  split at h
  · simp_all
  · split at h <;> simp_all

theorem nearestCode_of_gridCoefficient? {code coefficient : Nat} {exponent : Int}
    (h : gridCoefficient? code exponent = some coefficient) :
    (Decimal.mk coefficient exponent).nearestCode = code := by
  unfold gridCoefficient? at h
  have accepted := accepts_of_neighbour? h
  rwa [readsBack, beq_iff_eq] at accepted

end LoxLexer.Binary64

import LoxLexer.Number.Shortest

/-!
# The text of a number

Magnitudes from 10^-4 up to but not including 10^16, and zero, are written positionally with at
least one digit after the point. The others have one digit before the point and a power of ten,
and no point when a single digit is enough.
-/

namespace LoxLexer

/-- The digits without a power of ten, with at least one after the point. -/
def positionalText (d : Decimal) : Text :=
  let digits := digitsOfNat d.coefficient
  let places := (-d.exponent).toNat
  if 0 ≤ d.exponent then
    digits ++ List.replicate d.exponent.toNat '0' ++ ['.', '0']
  else if places < digits.length then
    digits.take (digits.length - places) ++ '.' :: digits.drop (digits.length - places)
  else
    ['0', '.'] ++ List.replicate (places - digits.length) '0' ++ digits

def integerText (i : Int) : Text :=
  (if i < 0 then ['-'] else []) ++ digitsOfNat i.natAbs

/-- One digit, the others after a point, and the power of ten of the first digit. -/
def scientificText (d : Decimal) : Text :=
  let digits := digitsOfNat d.coefficient
  let power : Int := d.exponent + digits.length - 1
  let fraction := if digits.length ≤ 1 then [] else '.' :: digits.drop 1
  digits.take 1 ++ fraction ++ 'e' :: integerText power

namespace Binary64

/-- Codes of the magnitudes that are written positionally. -/
def isPositional (code : Nat) : Bool :=
  code = 0 || (nearestCode 1 (Nat.pow 10 4) ≤ code && code < nearestCode (Nat.pow 10 16) 1)

def magnitudeText (code : Nat) : Text :=
  if code = 0 then "0.0".toList
  else if isPositional code then positionalText (shortest code)
  else scientificText (shortest code)

/-- The shortest text that reads back; what is not a number has no sign. -/
def text (x : Binary64) : Text :=
  if x.isNaN then "NaN".toList
  else
    (if x.negative then ['-'] else []) ++
      (if x.isInfinite then "inf".toList else magnitudeText x.code)

end Binary64

end LoxLexer

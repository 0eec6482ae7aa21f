import LoxLexer.Proofs.Numerals

/-!
# Numbers are read back

Zero and the numbers from 10^-4 up to 10^16 are written as a numeral with a point in it, and a scan
of this text finds the same number and nothing else (`scan_text_of_plain`). The digits that are
chosen are read back as the number by how they are chosen, and where the point is put among them
does not change what they stand for. The others are written with an exponent, a sign or a word,
which no numeral has (`isPlain_of_number`).
-/

namespace LoxLexer

/-! Digits and where the point is put among them. -/

theorem natOfDigits_zeros (n : Nat) : natOfDigits (List.replicate n '0') = 0 :=
  Nat.ofDigitChars_replicate_zero

theorem isDigits_digitsOfNat (n : Nat) : IsDigits (digitsOfNat n) :=
  ⟨Nat.toDigits_ne_nil, fun _ h => isDigit_of_mem_digitsOfNat h⟩

theorem isDigits_zero : IsDigits ['0'] :=
  ⟨List.cons_ne_nil _ _, List.forall_mem_singleton.mpr rfl⟩

theorem isDigit_of_mem_zeros {n : Nat} {c : Char} (h : c ∈ List.replicate n '0') : c.isDigit := by
  rw [List.eq_of_mem_replicate h]
  rfl

/-- The numeral whose text is the positional one. -/
def positionalNumeral (d : Decimal) : Numeral :=
  let digits := digitsOfNat d.coefficient
  let places := (-d.exponent).toNat
  if 0 ≤ d.exponent then ⟨digits ++ List.replicate d.exponent.toNat '0', some ['0']⟩
  else if places < digits.length then
    ⟨digits.take (digits.length - places), some (digits.drop (digits.length - places))⟩
  else ⟨['0'], some (List.replicate (places - digits.length) '0' ++ digits)⟩

theorem text_positionalNumeral (d : Decimal) : (positionalNumeral d).text = positionalText d := by
  rw [positionalNumeral, positionalText]
  split
  · rw [Numeral.text]
  · split <;> simp [Numeral.text]

theorem isDecimal_positionalNumeral (d : Decimal) : (positionalNumeral d).IsDecimal := by
  obtain ⟨nonempty, digits⟩ := isDigits_digitsOfNat d.coefficient
  rw [positionalNumeral]
  split
  · refine ⟨⟨List.append_ne_nil_of_left_ne_nil nonempty _, ?_⟩, ?_⟩
    · intro c hc
      exact (List.mem_append.mp hc).elim (digits c) isDigit_of_mem_zeros
    · rintro _ ⟨⟩
      exact isDigits_zero
  · split
    · rename_i inside
      have whole : 0 < (digitsOfNat d.coefficient).length - (-d.exponent).toNat := by omega
      have fraction : (digitsOfNat d.coefficient).length - (-d.exponent).toNat <
          (digitsOfNat d.coefficient).length := by omega
      refine ⟨⟨?_, fun c hc => digits c (List.mem_of_mem_take hc)⟩, ?_⟩
      · simpa using ⟨whole.ne', nonempty⟩
      · rintro _ ⟨⟩
        refine ⟨?_, fun c hc => digits c (List.mem_of_mem_drop hc)⟩
        simpa using fraction
    · refine ⟨isDigits_zero, ?_⟩
      rintro _ ⟨⟩
      refine ⟨List.append_ne_nil_of_right_ne_nil _ nonempty, ?_⟩
      intro c hc
      exact (List.mem_append.mp hc).elim isDigit_of_mem_zeros (digits c)

/-- The point does not change what the digits stand for. -/
theorem toRat_positionalNumeral (d : Decimal) :
    (positionalNumeral d).decimal.toRat = d.toRat := by
  obtain ⟨coefficient, exponent⟩ := d
  have digits := natOfDigits_digitsOfNat coefficient
  have zero : natOfDigits ['0'] = 0 := rfl
  simp only [positionalNumeral]
  split
  · rename_i whole
    obtain ⟨zeros, rfl⟩ := Int.eq_ofNat_of_zero_le whole
    simp only [Numeral.decimal, Decimal.toRat]
    rw [natOfDigits_append, natOfDigits_append, natOfDigits_zeros, zero, digits, zpow_natCast]
    simp
  · rename_i negative
    have places : -((-exponent).toNat : ℤ) = exponent := by omega
    split
    · rename_i inside
      have moved : (digitsOfNat coefficient).length -
          ((digitsOfNat coefficient).length - (-exponent).toNat) = (-exponent).toNat := by
        omega
      simp only [Numeral.decimal, Decimal.toRat]
      rw [List.take_append_drop, List.length_drop, digits, moved, places]
    · rename_i outside
      have moved : (-exponent).toNat - (digitsOfNat coefficient).length +
          (digitsOfNat coefficient).length = (-exponent).toNat := by omega
      simp only [Numeral.decimal, Decimal.toRat]
      rw [natOfDigits_append, natOfDigits_append, natOfDigits_zeros, zero, digits,
        List.length_append, List.length_replicate, moved, places]
      simp

/-! The digits that are chosen. -/

/-- Only what it stands for says to which number a decimal is nearest. -/
theorem Decimal.nearest_congr {d e : Decimal} (same : d.toRat = e.toRat) :
    d.nearest = e.nearest := by
  have rounds := e.rounds_nearest
  rw [← same] at rounds
  exact d.rounds_nearest.unique rounds

theorem Decimal.nearestCode_of_toRat {d : Decimal} {code : Nat}
    (le : code ≤ Binary64.infinityCode) (exact : d.toRat = Binary64.magnitude code) :
    d.nearestCode = code :=
  Binary64.nearestCode_of_magnitude (Nat.pow_pos (by decide)) le (d.toRat_eq.symm.trans exact)

namespace Binary64

/-- Powers of five and ten leave powers of two. -/
theorem toRat_fives (w places : Nat) :
    (Decimal.mk (w * Nat.pow 5 places) (-places)).toRat = w / 2 ^ places := by
  have ten : (10 : ℚ) = 2 * 5 := by norm_num
  simp only [Decimal.toRat]
  rw [zpow_neg, zpow_natCast, ten, mul_pow, Nat.cast_mul, Nat.pow_eq, Nat.cast_pow]
  push_cast
  field_simp

theorem toRat_exactDecimal (code : Nat) : (exactDecimal code).toRat = magnitude code := by
  have finest : (-1074 : ℤ) = -(1074 : Nat) := rfl
  rw [magnitude_eq, cast_unitsPerOne, zpow_ofNat, exactDecimal, finest]
  -- No one computes the power if its exponent is not known.
  generalize 1074 = places
  exact toRat_fives (weight code) places

theorem nearestCode_exactDecimal {code : Nat} (finite : code < infinityCode) :
    (exactDecimal code).nearestCode = code :=
  Decimal.nearestCode_of_toRat finite.le (toRat_exactDecimal code)

/-- On each grid only what reads back is chosen, and in the end the value itself. -/
theorem nearestCode_shortest {code : Nat} (finite : code < infinityCode) :
    (shortest code).nearestCode = code := by
  simp only [shortest]
  generalize (coarsestExponent (weight code) + 1074).toNat = grids
  generalize coarsestExponent (weight code) = exponent
  fun_induction onFirstGrid (gridCoefficient? code) (exactDecimal code) grids exponent with
  | case1 exponent => exact nearestCode_exactDecimal finite
  | case2 grids exponent coefficient chosen => exact nearestCode_of_gridCoefficient? chosen
  | case3 grids exponent none ih => exact ih

/-! Which numbers are written without a power of ten. -/

/-- Zero without a sign, and what is at least `10 ^ -4` and less than `10 ^ 16`. -/
def IsPlain (x : Binary64) : Prop :=
  x.negative = false ∧ x.code = 0 ∨ x.IsFinite ∧ 1 / 10 ^ 4 ≤ x.toRat ∧ x.toRat < 10 ^ 16

/-- A quotient between a code and the next one is not above those from the next one on. -/
theorem le_magnitude_iff (n d before code : Nat) (hd : 0 < d)
    (less : weight before * d < n * unitsPerOne)
    (enough : n * unitsPerOne ≤ weight (before + 1) * d) :
    (n : ℚ) / d ≤ magnitude code ↔ before < code := by
  have hd' : (0 : ℚ) < d := by exact_mod_cast hd
  have inUnits : (n : ℚ) / d ≤ magnitude code ↔ n * unitsPerOne ≤ weight code * d := by
    rw [magnitude_eq, div_le_div_iff₀ hd' cast_unitsPerOne_pos]
    exact_mod_cast Iff.rfl
  rw [inUnits]
  constructor
  · intro le
    by_contra notAbove
    have monotone := weight_strictMono.monotone (not_lt.mp notAbove)
    have scaled := Nat.mul_le_mul_right d monotone
    omega
  · intro above
    have monotone := weight_strictMono.monotone (Nat.succ_le_of_lt above)
    exact enough.trans (Nat.mul_le_mul_right d monotone)

theorem isPositional_iff {code : Nat} :
    isPositional code ↔ code = 0 ∨ 1 / 10 ^ 4 ≤ magnitude code ∧ magnitude code < 10 ^ 16 := by
  have least : nearestCode 1 (Nat.pow 10 4) = 0x3F1A36E2EB1C432C + 1 := by decide +kernel
  have bound : nearestCode (Nat.pow 10 16) 1 = 0x4341C37937E07FFF + 1 := by decide +kernel
  have fromLeast := le_magnitude_iff 1 (10 ^ 4) 0x3F1A36E2EB1C432C code (by decide)
    (by decide +kernel) (by decide +kernel)
  have fromBound := le_magnitude_iff (10 ^ 16) 1 0x4341C37937E07FFF code (by decide)
    (by decide +kernel) (by decide +kernel)
  rw [Nat.cast_one, Nat.cast_pow, Nat.cast_ofNat] at fromLeast
  rw [Nat.cast_one, Nat.cast_pow, Nat.cast_ofNat, div_one] at fromBound
  rw [← not_le, fromBound, fromLeast, isPositional, least, bound]
  simp only [Bool.or_eq_true, Bool.and_eq_true, decide_eq_true_eq]
  omega

namespace IsPlain
variable {x : Binary64}

theorem nonnegative (plain : x.IsPlain) : x.negative = false := by
  rcases plain with ⟨nonnegative, _⟩ | ⟨_, least, _⟩
  · exact nonnegative
  · by_contra negative
    have nonneg := magnitude_nonneg x.code
    rw [toRat, if_pos (Bool.of_not_eq_false negative)] at least
    norm_num at least
    linarith

theorem isFinite (plain : x.IsPlain) : x.IsFinite := by
  rcases plain with ⟨_, zero⟩ | ⟨finite, _⟩
  · rw [IsFinite, zero]
    decide
  · exact finite

theorem isPositional (plain : x.IsPlain) : isPositional x.code := by
  have value := toRat_of_nonnegative plain.nonnegative
  rw [isPositional_iff, ← value]
  exact plain.imp And.right And.right

end IsPlain

/-- The plain numbers are the finite ones without a sign that are written positionally. -/
theorem isPlain_iff {x : Binary64} :
    x.IsPlain ↔ x.negative = false ∧ x.IsFinite ∧ isPositional x.code := by
  constructor
  · exact fun plain => ⟨plain.nonnegative, plain.isFinite, plain.isPositional⟩
  · rintro ⟨nonnegative, finite, positional⟩
    rw [isPositional_iff, ← toRat_of_nonnegative nonnegative] at positional
    exact positional.imp (And.intro nonnegative) (And.intro finite)

theorem value_zero : (Numeral.mk ['0'] (some ['0'])).value = ⟨false, 0, by decide⟩ := by
  decide +kernel

theorem text_of_plain {x : Binary64} (plain : x.IsPlain) : x.text = magnitudeText x.code := by
  have finite : x.code < infinityCode := plain.isFinite
  have number : x.isNaN = false := decide_eq_false (by omega)
  have bounded : x.isInfinite = false := decide_eq_false (by omega)
  simp [text, number, bounded, plain.nonnegative]

/-- The text of a plain number is that of a numeral, whose value is the number. -/
theorem exists_numeral_text {x : Binary64} (plain : x.IsPlain) :
    ∃ n : Numeral, n.IsDecimal ∧ n.text = x.text ∧ n.value = x := by
  rw [text_of_plain plain, magnitudeText]
  by_cases zero : x.code = 0
  · refine ⟨⟨['0'], some ['0']⟩, ⟨isDigits_zero, ?_⟩, ?_, ?_⟩
    · rintro _ ⟨⟩
      exact isDigits_zero
    · rw [if_pos zero]
      rfl
    · rw [value_zero]
      exact Binary64.ext plain.nonnegative.symm zero.symm
  · refine ⟨positionalNumeral (shortest x.code), isDecimal_positionalNumeral _, ?_, ?_⟩
    · rw [if_neg zero, if_pos plain.isPositional]
      exact text_positionalNumeral _
    · have chosen : (shortest x.code).nearest = x :=
        Binary64.ext plain.nonnegative.symm (nearestCode_shortest plain.isFinite)
      exact (Decimal.nearest_congr (toRat_positionalNumeral _)).trans chosen

/-- A number that is not plain has a sign, a letter or an exponent in its text. -/
theorem exists_mark_of_not_plain {x : Binary64} (notPlain : ¬ x.IsPlain) :
    ∃ c ∈ x.text, ¬ (c.isDigit ∨ c = '.') := by
  rw [isPlain_iff] at notPlain
  rw [text]
  by_cases number : x.isNaN
  · rw [if_pos number]
    exact ⟨'N', by decide, by decide⟩
  rw [if_neg number]
  by_cases negative : x.negative
  · refine ⟨'-', ?_, by decide⟩
    simp [negative]
  by_cases infinite : x.isInfinite
  · refine ⟨'i', ?_, by decide⟩
    simp [infinite]
  have notAbove : ¬ infinityCode < x.code := fun above => number (decide_eq_true above)
  have notThere : x.code ≠ infinityCode := fun there => infinite (decide_eq_true there)
  have finite : x.code < infinityCode := by omega
  have notPositional : ¬ isPositional x.code := by
    intro positional
    exact notPlain ⟨Bool.of_not_eq_true negative, finite, positional⟩
  have nonzero : x.code ≠ 0 := fun zero => notPositional (isPositional_iff.mpr (Or.inl zero))
  refine ⟨'e', ?_, by decide⟩
  simp [infinite, magnitudeText, nonzero, notPositional, scientificText]

end Binary64

/-! Scanning a numeral. -/

namespace Numeral.IsDecimal
variable {n : Numeral}

theorem fits (decimal : n.IsDecimal) : (Piece.number n).Fits [] := by
  obtain ⟨whole, fraction⟩ := n
  obtain ⟨digits, more⟩ := decimal
  cases fraction with
  | none => exact ⟨digits, rfl, rfl⟩
  | some fraction => exact ⟨digits, more fraction rfl, rfl⟩

theorem digit_or_point (decimal : n.IsDecimal) : ∀ c ∈ n.text, c.isDigit ∨ c = '.' := by
  obtain ⟨whole, fraction⟩ := n
  obtain ⟨digits, more⟩ := decimal
  intro c hc
  cases fraction with
  | none => exact Or.inl (digits.2 c hc)
  | some fraction =>
      rcases List.mem_append.mp hc with before | behind
      · exact Or.inl (digits.2 c before)
      · rcases List.mem_cons.mp behind with point | behind
        · exact Or.inr point
        · exact Or.inl ((more fraction rfl).2 c behind)

/-- In the text of a numeral there is one number and nothing else. -/
theorem scan_text (decimal : n.IsDecimal) :
    scan n.text = ⟨[⟨.number, n.text, some (.number n.value), 1, ⟨0, Text.byteLength n.text⟩⟩,
      Token.eof 1 (Text.byteLength n.text)], []⟩ := by
  have pieces : cut n.text = [.number n] :=
    cut_eq_iff.mpr ⟨List.append_nil _, decimal.fits, trivial⟩
  have oneLine := Cursor.newlines_number decimal.fits
  have line : (endOf n.text).line = 1 := by rw [endOf_line, oneLine]
  have offset := endOf_offset n.text
  rw [scan_eq, tokensOf, diagnosticsOf, pieces, line, offset, tokensFrom_cons]
  simp [diagnosticsFrom_cons, Piece.token?, Piece.diagnostic?, Piece.fault?, Piece.reading,
    Piece.text, Position.start, oneLine]

end Numeral.IsDecimal

/-- A plain number is written as a numeral that is scanned as this number. -/
theorem scan_text_of_plain {x : Binary64} (plain : x.IsPlain) :
    let text := (Literal.number x).text
    scan text = ⟨[⟨.number, text, some (.number x), 1, ⟨0, Text.byteLength text⟩⟩,
      Token.eof 1 (Text.byteLength text)], []⟩ := by
  obtain ⟨n, decimal, written, value⟩ := Binary64.exists_numeral_text plain
  have found := decimal.scan_text
  rw [written, value] at found
  exact found

/-- Seventeen digits are needed to tell the sum of a tenth and two tenths from three tenths. -/
theorem scan_text_of_tenths :
    let x : Binary64 := ⟨false, 0x3FD3333333333334, by decide⟩
    let text := "0.30000000000000004".toList
    x.IsPlain ∧ (Literal.number x).text = text ∧
      scan text = ⟨[⟨.number, text, some (.number x), 1, ⟨0, 19⟩⟩, Token.eof 1 19], []⟩ := by
  intro x text
  have finite : x.code < Binary64.infinityCode := by decide
  have positional : Binary64.isPositional x.code := by decide +kernel
  have plain : x.IsPlain := Binary64.isPlain_iff.mpr ⟨rfl, finite, positional⟩
  have written : (Literal.number x).text = text := by decide +kernel
  have found := scan_text_of_plain plain
  rw [written] at found
  exact ⟨plain, written, found⟩

/-- The text of any other number is not a number token. -/
theorem isPlain_of_number {x : Binary64} {t : Token} (member : t ∈ (scan x.text).tokens)
    (number : t.kind = .number) (whole : t.lexeme = x.text) : x.IsPlain := by
  obtain ⟨n, fits, lexeme, _⟩ := exists_numeral member number
  by_contra notPlain
  obtain ⟨c, inText, mark⟩ := Binary64.exists_mark_of_not_plain notPlain
  rw [← whole, lexeme] at inText
  exact mark ((Numeral.isDecimal_of_fits fits).digit_or_point c inText)

end LoxLexer

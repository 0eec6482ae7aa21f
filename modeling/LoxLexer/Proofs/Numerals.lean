import LoxLexer.Proofs.Adjacency
import LoxLexer.Proofs.Lines
import LoxLexer.Proofs.Rounding

/-!
# The values of numbers

A numeral stands for an exact rational number, digit by digit (`decimalValue`). Every number in a
source has the nearest binary64 number to it, however long the numeral is
(`numbers_are_nearest`): the text of the number is always one that can be converted, so that no
number is reported.
-/

namespace LoxLexer

/-! What digits stand for. -/

def digitValue (c : Char) : Nat := c.toNat - '0'.toNat

/-- Each digit counts for a power of ten by its place from the end. -/
def wholeValue : Text → ℚ
  | [] => 0
  | c :: t => digitValue c * 10 ^ t.length + wholeValue t

/-- The first digit counts tenths, and each other a tenth of what it would one place before. -/
def fractionValue : Text → ℚ
  | [] => 0
  | c :: t => (digitValue c + fractionValue t) / 10

/-- The exact value of digits, and of more digits after a point if there is one. -/
def decimalValue (t : Text) : ℚ :=
  wholeValue (t.takeWhile (· != '.')) + fractionValue (t.dropWhile (· != '.')).tail

theorem natOfDigits_append (s t : Text) :
    natOfDigits (s ++ t) = natOfDigits s * 10 ^ t.length + natOfDigits t := by
  have split : natOfDigits (s ++ t) = Nat.ofDigitChars 10 t (natOfDigits s) :=
    Nat.ofDigitChars_append 0
  rw [split, Nat.ofDigitChars_eq_ofDigitChars_zero, Nat.mul_comm]
  rfl

theorem natOfDigits_cons (c : Char) (t : Text) :
    natOfDigits (c :: t) = digitValue c * 10 ^ t.length + natOfDigits t := by
  have one : natOfDigits [c] = digitValue c := Nat.zero_add _
  rw [← List.singleton_append, natOfDigits_append, one]

theorem wholeValue_eq (t : Text) : wholeValue t = natOfDigits t := by
  induction t with
  | nil => exact Nat.cast_zero.symm
  | cons c t ih =>
      rw [wholeValue, ih, natOfDigits_cons]
      push_cast
      rfl

theorem fractionValue_eq (t : Text) : fractionValue t = natOfDigits t / 10 ^ t.length := by
  induction t with
  | nil => norm_num [fractionValue, natOfDigits]
  | cons c t ih =>
      rw [fractionValue, ih, natOfDigits_cons, List.length_cons]
      push_cast
      field_simp
      ring

/-- The rational number that a decimal stands for. -/
def Decimal.toRat (d : Decimal) : ℚ := d.coefficient * 10 ^ d.exponent

theorem Decimal.toRat_eq (d : Decimal) :
    d.toRat = (d.coefficient * 10 ^ d.exponent.toNat : Nat) /
      (10 ^ (-d.exponent).toNat : Nat) := by
  have ten : (10 : ℚ) ≠ 0 := by norm_num
  have exponent : d.exponent = (d.exponent.toNat : ℤ) - ((-d.exponent).toNat : ℤ) := by omega
  rw [toRat]
  nth_rewrite 1 [exponent]
  rw [zpow_sub₀ ten, zpow_natCast, zpow_natCast]
  push_cast
  ring

/-- The nearest number to a decimal is what its value is rounded to. -/
theorem Decimal.rounds_nearest (d : Decimal) : Binary64.Rounds d.toRat d.nearest := by
  rw [toRat_eq]
  exact Binary64.rounds_nearest _ (Nat.pow_pos (by decide))

namespace Numeral

/-- Digits, and digits after the point where there is one. -/
def IsDecimal (n : Numeral) : Prop := IsDigits n.whole ∧ ∀ fraction ∈ n.fraction, IsDigits fraction

theorem isDecimal_of_fits {n : Numeral} {after : Text} (fits : (Piece.number n).Fits after) :
    n.IsDecimal := by
  obtain ⟨whole, fraction⟩ := n
  cases fraction with
  | none => exact ⟨fits.1, fun _ h => nomatch h⟩
  | some fraction =>
      refine ⟨fits.1, ?_⟩
      rintro _ ⟨⟩
      exact fits.2.1

/-- The text of a numeral stands for the decimal that is read from it. -/
theorem decimalValue_text {n : Numeral} (h : n.IsDecimal) :
    decimalValue n.text = n.decimal.toRat := by
  obtain ⟨whole, fraction⟩ := n
  obtain ⟨digits, more⟩ := h
  have noPoint := digits.ne_point
  cases fraction with
  | none =>
      have all : whole.takeWhile (· != '.') = whole := List.takeWhile_eq_self_iff.mpr noPoint
      have rest : whole.dropWhile (· != '.') = [] := List.dropWhile_eq_nil_iff.mpr noPoint
      rw [decimalValue, text, all, rest, wholeValue_eq, Decimal.toRat]
      simp [fractionValue, decimal]
  | some fraction =>
      have stop : beginsWith (· != '.') ('.' :: fraction) = false := rfl
      rw [decimalValue, text, takeWhile_run noPoint stop, dropWhile_run noPoint stop,
        List.tail_cons, wholeValue_eq, fractionValue_eq, Decimal.toRat]
      simp only [decimal]
      rw [natOfDigits_append, zpow_neg, zpow_natCast]
      push_cast
      field_simp

end Numeral

/-! Numbers in a source. -/

/-- A number is a piece of its own, with the value of the numeral that it is. -/
theorem exists_numeral {source : Text} {t : Token} (member : t ∈ (scan source).tokens)
    (number : t.kind = .number) :
    ∃ n : Numeral, (Piece.number n).Fits [] ∧ t.lexeme = n.text ∧
      t.literal = some (.number n.value) := by
  have proper : t ∈ tokensFrom Position.start (cut source) := by
    rw [← properTokens_scan]
    exact List.mem_filter.mpr ⟨member, by rw [number]; rfl⟩
  obtain ⟨earlier, piece, later, pieces, found⟩ := exists_of_mem_tokensFrom _ _ proper
  have literal : t.kind.isLiteral := number ▸ rfl
  rcases string_or_number found literal with ⟨string, _⟩ | ⟨_, n, rfl⟩
  · cases number.symm.trans string
  · have inCut : .number n ∈ cut source := by
      rw [pieces]
      exact List.mem_append_right _ List.mem_cons_self
    obtain ⟨kind, value, reading, rfl⟩ := Piece.token?_eq_some_iff.mp found
    cases reading
    exact ⟨n, (fitting_cut source).alone _ inCut, rfl, rfl⟩

/-- No fault is an invalid number. -/
theorem not_invalid_number (f : Fault) : ¬ "Invalid number".toList <+: f.message := by
  rintro ⟨rest, same⟩
  have first := congrArg List.head? same
  cases f <;> exact absurd (Option.some.inj first) (by decide)

/-- The number token `t` has the one value to which the exact value of its text is rounded. It is
zero, without a sign, exactly if the exact value is at most half of the least positive number. -/
structure Token.HasNearest (t : Token) (x : Binary64) : Prop where
  literal : t.literal = some (.number x)
  rounds : Binary64.Rounds (decimalValue t.lexeme) x
  unique : ∀ y, Binary64.Rounds (decimalValue t.lexeme) y → y = x
  zero_iff : x.code = 0 ↔ decimalValue t.lexeme ≤ 2 ^ (-1075 : ℤ)

/-- Every number in a source has the nearest number to the exact value of its text, which can always
be converted. The scanner with the byte cursor, which reports a number that cannot be converted,
finds the same tokens and never reports one. -/
theorem numbers_are_nearest (source : Text) :
    (∀ t ∈ (scan source).tokens, t.kind = .number →
      ∃ n : Numeral, Numeral.ofText? t.lexeme = some n ∧ t.HasNearest n.value) ∧
    ∃ found, Cursor.scan? Observer.gather source #[] = some found ∧
      found.1 = (scan source).tokens ∧ found.2.toList = (scan source).diagnostics ∧
      ∀ d ∈ (scan source).diagnostics, ¬ "Invalid number".toList <+: d.message := by
  constructor
  · intro t member number
    obtain ⟨n, fits, lexeme, literal⟩ := exists_numeral member number
    have value := Numeral.decimalValue_text (Numeral.isDecimal_of_fits fits)
    have rounds : Binary64.Rounds (decimalValue t.lexeme) n.value := by
      rw [lexeme, value]
      exact n.decimal.rounds_nearest
    refine ⟨n, ?_, literal, rounds, fun y other => other.unique rounds, ?_⟩
    · rw [lexeme]
      exact n.ofText?_text fits
    · rw [lexeme, value, Decimal.toRat_eq]
      exact Binary64.nearestCode_eq_zero_iff (Nat.pow_pos (by decide))
  · refine ⟨_, Cursor.scan?_eq Observer.gather source #[], rfl, rfl, ?_⟩
    intro d reported
    obtain ⟨_, _, f, _, message⟩ := exists_fault reported
    rw [message]
    exact not_invalid_number f

/-- Halfway between two numbers, but for a digit far behind the point: the number above is nearest,
though it is the odd one. -/
theorem far_digit_is_nearest :
    let source := "x=9007199254740993.00000000000000000000000000000001;".toList
    let above : Binary64 := ⟨false, 0x4340000000000001, by decide⟩
    let t : Token := ⟨.number, "9007199254740993.00000000000000000000000000000001".toList,
      some (.number above), 1, ⟨2, 51⟩⟩
    (t ∈ (scan source).tokens ∧ t.kind = .number) ∧
      ∃ n : Numeral, Numeral.ofText? t.lexeme = some n ∧ t.HasNearest n.value := by
  intro source above t
  have member : t ∈ (scan source).tokens := by decide +kernel
  exact ⟨⟨member, rfl⟩, (numbers_are_nearest source).1 t member rfl⟩

end LoxLexer

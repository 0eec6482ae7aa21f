import LoxLexer.Text.Basic
import LoxLexer.Number.Binary64

/-!
# Decimal numbers

A decimal number is a natural coefficient times a power of ten. A numeral is the text of one:
digits, and after a point more digits.
-/

namespace LoxLexer

structure Decimal where
  coefficient : Nat
  exponent : Int
  deriving DecidableEq

namespace Decimal

/-- The nearest binary64 code, a half to the even one. -/
def nearestCode (d : Decimal) : Nat :=
  Binary64.nearestCode (d.coefficient * Nat.pow 10 d.exponent.toNat)
    (Nat.pow 10 (-d.exponent).toNat)

def nearest (d : Decimal) : Binary64 :=
  Binary64.nearest (d.coefficient * Nat.pow 10 d.exponent.toNat) (Nat.pow 10 (-d.exponent).toNat)

end Decimal

/-- The natural number with these decimal digits. -/
def natOfDigits (digits : Text) : Nat :=
  digits.foldl (fun n c => 10 * n + (c.toNat - '0'.toNat)) 0

/-- Decimal digits, at least one. -/
def digitsOfNat (n : Nat) : Text := Nat.toDigits 10 n

theorem natOfDigits_digitsOfNat (n : Nat) : natOfDigits (digitsOfNat n) = n :=
  Nat.ofDigitChars_toDigits (by decide) (by decide)

theorem isDigit_of_mem_digitsOfNat {n : Nat} {c : Char} (h : c ∈ digitsOfNat n) : c.isDigit :=
  Nat.isDigit_of_mem_toDigits (by decide) (by decide) h

/-- Digits, at least one. -/
def IsDigits (t : Text) : Prop := t ≠ [] ∧ ∀ c ∈ t, c.isDigit

instance (t : Text) : Decidable (IsDigits t) := inferInstanceAs (Decidable (_ ∧ _))

structure Numeral where
  whole : Text
  fraction : Option Text
  deriving DecidableEq

namespace Numeral

def text (n : Numeral) : Text :=
  match n.fraction with
  | none => n.whole
  | some fraction => n.whole ++ '.' :: fraction

def decimal (n : Numeral) : Decimal :=
  match n.fraction with
  | none => ⟨natOfDigits n.whole, 0⟩
  | some fraction => ⟨natOfDigits (n.whole ++ fraction), -fraction.length⟩

/-- Reads digits, after which a point and more digits may stand. -/
def ofText? (t : Text) : Option Numeral :=
  match t.dropWhile (· != '.') with
  | [] => if IsDigits t then some ⟨t, none⟩ else none
  | _ :: fraction =>
      let whole := t.takeWhile (· != '.')
      if IsDigits whole ∧ IsDigits fraction then some ⟨whole, some fraction⟩ else none

/-- The binary64 number nearest to the exact decimal value. -/
def value (n : Numeral) : Binary64 := n.decimal.nearest

end Numeral

end LoxLexer

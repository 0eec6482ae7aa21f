import LoxLexer.Number.Decimal

/-!
# Diagnostics

A fault is what can be wrong with a source text; a diagnostic says on which line. Scanning goes on
after every fault.
-/

namespace LoxLexer

inductive Fault where
  | unexpectedCharacter (c : Char)
  | unterminatedString
  deriving DecidableEq

def Fault.message : Fault → Text
  | unexpectedCharacter c => "Unexpected character: ".toList ++ [c]
  | unterminatedString => "Unterminated string".toList

structure Diagnostic where
  line : Nat
  message : Text
  deriving DecidableEq

/-- The line in brackets, as diagnostics show it. -/
def lineTag (line : Nat) : Text := "[line ".toList ++ digitsOfNat line ++ [']']

theorem not_mem_lineTag {c : Char} (word : c ∉ "[line ".toList) (notDigit : c.isDigit = false)
    (bracket : c ∉ [']']) (line : Nat) : c ∉ lineTag line := by
  intro inside
  rcases List.mem_append.mp inside with inFront | last
  · rcases List.mem_append.mp inFront with first | digit
    · exact word first
    · exact Bool.false_ne_true (notDigit.symm.trans (isDigit_of_mem_digitsOfNat digit))
  · exact bracket last

def Diagnostic.display (d : Diagnostic) : Text :=
  lineTag d.line ++ " Error: ".toList ++ d.message

end LoxLexer

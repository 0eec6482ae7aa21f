import LoxLexer.Text.Printable

/-!
# Quoted text

Text between double quotes on one line: quotes, backslashes, tabs and line ends get a backslash,
and what would not show is written by its code point.
-/

namespace LoxLexer

/-- Lower-case hexadecimal digits, without leading zeros. -/
def hexadecimal (n : Nat) : Text := Nat.toDigits 16 n

namespace Text

def quoteChar (c : Char) : Text :=
  match c with
  | '\x00' => ['\\', '0']
  | '\t' => ['\\', 't']
  | '\n' => ['\\', 'n']
  | '\r' => ['\\', 'r']
  | '"' => ['\\', '"']
  | '\\' => ['\\', '\\']
  | c => if isPrintable c then [c] else ['\\', 'u', '{'] ++ hexadecimal c.toNat ++ ['}']

def quote (t : Text) : Text := '"' :: t.flatMap quoteChar ++ ['"']

end Text

end LoxLexer

import LoxLexer.Token.Kind
import LoxLexer.Number.Notation

/-!
# Tokens

A token has a kind, its text, the value of a number or a string, the line on which it ends and the
byte span that it takes up. Its display is its kind, its text and its value on one line.
-/

namespace LoxLexer

/-- Byte positions, the end not included. -/
structure Span where
  start : Nat
  stop : Nat
  deriving DecidableEq

namespace Span

def isEmpty (s : Span) : Bool := s.start = s.stop

/-- A span that stops before it starts has no length. -/
def length? (s : Span) : Option Nat :=
  if s.start ≤ s.stop then some (s.stop - s.start) else none

end Span

inductive Literal where
  | number (value : Binary64)
  | string (value : Text)
  deriving DecidableEq

namespace Literal

def text : Literal → Text
  | number value => value.text
  | string value => value

/-- Numbers are compared as numbers, not by their bits. -/
def equal : Literal → Literal → Bool
  | number x, number y => x.equal y
  | string s, string t => s == t
  | _, _ => false

/-- Both absent, or both there and equal. -/
def equalOption : Option Literal → Option Literal → Bool
  | none, none => true
  | some x, some y => x.equal y
  | _, _ => false

end Literal

structure Token where
  kind : Kind
  lexeme : Text
  literal : Option Literal
  line : Nat
  span : Span
  deriving DecidableEq

namespace Token

/-- The end of a text of `offset` bytes. -/
def eof (line offset : Nat) : Token := ⟨.eof, [], none, line, ⟨offset, offset⟩⟩

def display (t : Token) : Text :=
  t.kind.name ++ ' ' :: t.lexeme ++
    match t.literal with
    | none => []
    | some literal => ' ' :: literal.text

def equal (s t : Token) : Bool :=
  s.kind == t.kind && s.lexeme == t.lexeme && Literal.equalOption s.literal t.literal &&
    s.line == t.line && s.span == t.span

end Token

end LoxLexer

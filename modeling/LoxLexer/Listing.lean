import LoxLexer.Scan
import LoxLexer.Style

/-!
# Listings of tokens and diagnostics

Tokens and diagnostics are listed one on a line: plainly, by their displays, or in colours.
-/

namespace LoxLexer

/-- How the text of a token looks. -/
def Kind.style : Kind → Style
  | keyword .trueWord | keyword .falseWord | keyword .nilWord | keyword .thisWord => .colored .blue
  | keyword _ => .bold .magenta
  | number => .colored .yellow
  | string => .colored .green
  | operator .leftParen | operator .rightParen | operator .leftBrace | operator .rightBrace =>
      .colored .yellow
  | identifier | operator .comma | operator .dot | operator .semicolon | eof => .plain
  | operator _ => .colored .cyan

/-- Kind, text and value, as in the display, each in its style. -/
def Token.styled (t : Token) : Styled :=
  [(.colored .cyan, t.kind.name), (.plain, [' ']), (t.kind.style, t.lexeme)] ++
    match t.literal with
    | none => []
    | some literal => [(.plain, [' ']), (.dimmed, literal.text)]

/-- The word that opens every error message. -/
def errorWord : Style × Text := (.bold .red, "Error".toList)

def Diagnostic.styled (d : Diagnostic) : Styled :=
  [(.dimmed, lineTag d.line), (.plain, [' ']), errorWord, (.plain, ": ".toList ++ d.message)]

/-- An error message on a line of its own. -/
def errorLine (message : Text) : Text := Styled.line [errorWord, (.plain, ": ".toList ++ message)]

def plainListing (tokens : List Token) : Text := tokens.flatMap fun t => t.display ++ ['\n']

def styledListing (tokens : List Token) : Text := tokens.flatMap fun t => t.styled.line

def diagnosticListing (diagnostics : List Diagnostic) : Text :=
  diagnostics.flatMap fun d => d.styled.line

end LoxLexer

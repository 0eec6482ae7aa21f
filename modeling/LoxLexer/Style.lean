import LoxLexer.Number.Decimal

/-!
# Styled text

Text in colours for a terminal that obeys ANSI colour sequences. A foreground colour is ended by
the default foreground, bold and dimmed text by a reset; bold stands outside the colour.
-/

namespace LoxLexer

inductive Color where
  | red | green | yellow | blue | magenta | cyan | white
  | brightGreen | brightYellow | brightCyan
  deriving DecidableEq

/-- The foreground number of a colour. -/
def Color.code : Color → Nat
  | red => 31 | green => 32 | yellow => 33 | blue => 34 | magenta => 35 | cyan => 36 | white => 37
  | brightGreen => 92 | brightYellow => 93 | brightCyan => 96

inductive Style where
  | plain
  | colored (c : Color)
  | bold (c : Color)
  | dimmed
  deriving DecidableEq

/-- The control sequence that sets one rendition. -/
def rendition (code : Nat) : Text := '\x1b' :: '[' :: digitsOfNat code ++ ['m']

namespace Style

def opening : Style → Text
  | plain => []
  | colored c => rendition c.code
  | bold c => rendition 1 ++ rendition c.code
  | dimmed => rendition 2

def closing : Style → Text
  | plain => []
  | colored _ => rendition 39
  | bold _ => rendition 39 ++ rendition 0
  | dimmed => rendition 0

def paint (s : Style) (t : Text) : Text := s.opening ++ t ++ s.closing

end Style

/-- Runs of text, each in one style. -/
abbrev Styled := List (Style × Text)

namespace Styled

def paint (runs : Styled) : Text := runs.flatMap fun run => run.1.paint run.2

theorem paint_cons (run : Style × Text) (runs : Styled) :
    paint (run :: runs) = run.1.paint run.2 ++ paint runs :=
  rfl

/-- The text without its styles. -/
def text (runs : Styled) : Text := runs.flatMap Prod.snd

/-- The painted runs on a line of their own. -/
def line (runs : Styled) : Text := paint runs ++ ['\n']

end Styled

/-- Text filled up with spaces to a number of characters. -/
def padded (width : Nat) (t : Text) : Text := t ++ List.replicate (width - t.length) ' '

end LoxLexer

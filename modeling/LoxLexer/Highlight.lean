import LoxLexer.Command
import LoxLexer.Listing

/-!
# Highlighting

A line of source is shown in the styles of its tokens; comments, layout and faults stay plain. A
line that is a command is shown in one colour.
-/

namespace LoxLexer

def Piece.style (piece : Piece) : Style :=
  match piece.reading with
  | .token kind _ => kind.style
  | .skipped | .fault _ => .plain

def highlightTokens (line : Text) : Text :=
  Styled.paint ((cut line).map fun piece => (piece.style, piece.text))

def highlight (line : Text) : Text :=
  if (Command.parse? line).isSome then (Style.colored .magenta).paint line
  else highlightTokens line

end LoxLexer

import LoxLexer.Completion
import LoxLexer.Highlight
import LoxLexer.Session

/-!
# Sessions at a terminal

While a line is edited, the terminal shows it highlighted with a hint behind it, and offers
completions on demand. A script says what is done at the terminal, edit by edit and line by line.
A cursor that is outside the line or inside a character has no answer, and then neither has the
script.
-/

namespace LoxLexer.Terminal

/-- What is done before the line is entered; without a position the cursor is at the end. -/
inductive Edit where
  | shown (line : Text) (pos : Option Nat)
  | typed (line : Text)
  | completed (line : Text) (pos : Option Nat)

inductive Step where
  | edit (e : Edit)
  | done (o : Outcome)

/-- A line as it is shown, and the hint behind it. -/
structure View where
  highlighted : Text
  hint : Option Text
  deriving DecidableEq

/-- Whether the line is drawn anew after an edit: always, since any edit may change its colours. -/
def refreshes (_line : Text) (_pos : Nat) : Bool := true

def dimmedHint (suggestion : Text) : Text := Style.dimmed.paint suggestion

def view? (line : Text) (pos : Nat) : Option View := do
  let suggestion ← suggest? line pos
  pure ⟨highlight line, suggestion.map dimmedHint⟩

inductive Event where
  | view (v : View)
  | views (vs : List View)
  | offers (pos : Nat) (offers : List Offer)

def cursor (line : Text) (pos : Option Nat) : Nat := pos.getD (Text.byteLength line)

/-- The beginnings of a line, from its first character to the whole. -/
def beginnings (line : Text) : List Text :=
  (List.range line.length).map fun n => line.take (n + 1)

def event? : Edit → Option Event
  | .shown line pos => (view? line (cursor line pos)).map .view
  | .typed line =>
      ((beginnings line).mapM fun typed => view? typed (Text.byteLength typed)).map .views
  | .completed line pos => (complete? line (cursor line pos)).map (.offers (cursor line pos))

/-- The edits before each outcome; what is edited after the last one is given up by end of input. -/
def turns : List Step → List (List Edit × Outcome)
  | [] => [([], .endOfInput)]
  | .done o :: steps => ([], o) :: turns steps
  | .edit e :: steps =>
      match turns steps with
      | (edits, o) :: rest => (e :: edits, o) :: rest
      | [] => []

structure Turn where
  events : List Event
  answer : Transcript

structure Record where
  course : Session.Course
  turns : List Turn

/-- Plays a script. Turns after the end of the session do not take place. -/
def play? (read : Reader) (historyPath : Text) (place : HistoryPlace) (script : List Step) :
    Option Record := do
  let turns := turns script
  let course := Session.run read true historyPath place (turns.map Prod.snd)
  let played ← (turns.zip course.answers).mapM fun (turn, answer) => do
    pure (Turn.mk (← turn.1.mapM event?) answer)
  pure ⟨course, played⟩

end LoxLexer.Terminal

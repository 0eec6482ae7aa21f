import LoxLexer.Command
import LoxLexer.Console
import LoxLexer.History.File

/-!
# The interactive session

A session asks for a line again and again. Each answer is dealt with by itself: a command is
carried out, any other line is scanned and its tokens are listed. The end of the input, a failure
to read it and the command to exit end the session, which then saves its history.
-/

namespace LoxLexer

def programVersion : Text := "0.1.0".toList

/-- Why no line could be read. -/
inductive InputFailure where
  | notUtf8
  | other (message : Text)
  deriving DecidableEq

def InputFailure.description : InputFailure → Text
  | notUtf8 =>
      "Io(Error \x7b kind: InvalidData, message: ".toList ++
        Text.quote FileError.notUtf8.message ++ " \x7d)".toList
  | other message =>
      "Io(Custom \x7b kind: Other, error: ".toList ++ Text.quote message ++ " \x7d)".toList

/-- What comes back when a line is asked for. -/
inductive Outcome where
  | line (text : Text)
  | interrupt
  | endOfInput
  | failure (f : InputFailure)
  deriving DecidableEq

namespace Session

def prompt : Text := Styled.paint [(.bold .brightGreen, "lox>".toList), (.plain, [' '])]

def blankLine : Text := ['\n']

def banner : Text :=
  blankLine ++
  Styled.line
    [(.plain, "  ".toList), (.bold .white, "Lox Scanner".toList), (.plain, [' ']),
      (.dimmed, ['v']), (.plain, [' ']), (.colored .brightYellow, programVersion)] ++
  Styled.line
    [(.plain, "  ".toList), (.dimmed, "Each entry is scanned and its tokens listed".toList)] ++
  blankLine ++
  Styled.line
    [(.plain, "  ".toList), (.dimmed, "Type".toList), (.plain, [' ']),
      (.colored .cyan, ".help".toList), (.plain, [' ']),
      (.dimmed, "for available commands".toList)] ++
  blankLine

def goodbye : Text :=
  blankLine ++ Styled.line [(.colored .brightCyan, "Goodbye!".toList)] ++ blankLine

/-- One line of a table: a name of at least sixteen characters and what it stands for. -/
def helpLine (color : Color) (name description : Text) : Text :=
  Styled.line
    [(.plain, "  ".toList), (.colored color, padded 16 name), (.plain, [' ']),
      (.dimmed, description)]

def shortcuts : List (Text × Text) :=
  [("Ctrl+C".toList, "Cancel current input".toList), ("Ctrl+D".toList, "Exit REPL".toList),
    ("Ctrl+L".toList, "Clear screen".toList), ("Tab".toList, "Autocomplete".toList),
    ("↑/↓".toList, "Navigate history".toList)]

def help : Text :=
  blankLine ++ Styled.line [(.bold .white, "REPL Commands:".toList)] ++ blankLine ++
  CommandName.all.flatMap (fun n => helpLine .cyan n.usage n.description) ++
  blankLine ++ Styled.line [(.bold .white, "Keyboard Shortcuts:".toList)] ++ blankLine ++
  shortcuts.flatMap (fun shortcut => helpLine .yellow shortcut.1 shortcut.2) ++
  blankLine

def version : Text :=
  blankLine ++
  Styled.line
    [(.bold .brightCyan, "Lox".toList), (.plain, ": ".toList),
      (.colored .yellow, programVersion)] ++
  blankLine

/-- Clears the screen and puts the cursor into its corner. -/
def clearScreen : Text := "\x1b[2J\x1b[H".toList

def missingPath : Text :=
  Styled.line
    [errorWord, (.plain, ": ".toList), (.colored .cyan, ".load".toList), (.plain, [' ']),
      (.dimmed, "requires a file path".toList)]

/-- What a command has to say. -/
def perform (read : Reader) (c : Command) : Transcript :=
  match c.name, c.argument with
  | .help, _ => .output help
  | .exit, _ => .empty
  | .clear, _ => .output clearScreen
  | .version, _ => .output version
  | .load, some path => showFile read path
  | .load, none => .errors missingPath

/-- What the session has to say to an outcome. -/
def respond (read : Reader) : Outcome → Transcript
  | .line text =>
      if Text.allBlank text then .empty
      else
        match Command.parse? text with
        | some c => perform read c
        | none => listEntry text
  | .interrupt => .output (Styled.line [(.dimmed, "^C".toList)])
  | .endOfInput => .output (Styled.line [(.dimmed, "^D".toList)])
  | .failure f => .errors (errorLine f.description)

/-- The session ends with this outcome. -/
def endsWith : Outcome → Bool
  | .line text => (Command.parse? text).any fun c => c.name = .exit
  | .interrupt => false
  | .endOfInput | .failure _ => true

/-- The history after an outcome. -/
def note (h : History) : Outcome → History
  | .line text => h.add text
  | _ => h

/-- Asks for lines until an outcome ends the session; after the last outcome there is no more input.
Only lines that are entered at a terminal go into the history. -/
def converse (read : Reader) (atTerminal : Bool) (h : History) :
    List Outcome → History × List Transcript
  | [] => (h, [respond read .endOfInput])
  | o :: outcomes =>
      let h := if atTerminal then note h o else h
      if endsWith o then (h, [respond read o])
      else
        let (h, answers) := converse read atTerminal h outcomes
        (h, respond read o :: answers)

/-- What is said before the first line, with what was found where the history belongs. -/
def opening (historyPath : Text) (place : HistoryPlace) : Transcript :=
  let unreachable := if place = .unreachable then
    [Log.Event.historyDirectoryMissing historyPath .notADirectory] else []
  let problem := (History.load place).2.toList.map .historyNotLoaded
  .logged (unreachable ++ problem) ++ .output banner

/-- What is said after the last line, with what became of the history. -/
def closing (h : History) (place : HistoryPlace) : Transcript :=
  .logged ((h.save place).2.toList.map .historyNotSaved) ++ .output goodbye

/-- A session from its start to its end. -/
structure Course where
  opening : Transcript
  answers : List Transcript
  closing : Transcript
  history : History
  place : HistoryPlace

/-- Opens the history, asks for lines, saves the history and takes leave. -/
def run (read : Reader) (atTerminal : Bool) (historyPath : Text) (place : HistoryPlace)
    (outcomes : List Outcome) : Course :=
  let (history, answers) := converse read atTerminal (History.load place).1 outcomes
  { opening := opening historyPath place
    answers := answers
    closing := closing history place
    history := history
    place := (history.save place).1 }

/-- All that a session says, in order. -/
def Course.transcript (c : Course) : Transcript := c.opening ++ .join c.answers ++ c.closing

/-- The outcomes up to and with the one that ends the session. -/
def heard : List Outcome → List Outcome
  | [] => [.endOfInput]
  | o :: outcomes => if endsWith o then [o] else o :: heard outcomes

/-- Every outcome that is heard is answered as if it were the only one. -/
theorem answers_converse (read : Reader) (atTerminal : Bool) (h : History)
    (outcomes : List Outcome) :
    (converse read atTerminal h outcomes).2 = (heard outcomes).map (respond read) := by
  induction outcomes generalizing h with
  | nil => rfl
  | cons o outcomes ih =>
      rw [converse, heard]
      split
      · rfl
      · simp [ih]

end Session

end LoxLexer

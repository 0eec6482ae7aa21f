import LoxLexer.History.Basic
import LoxLexer.FileError
import LoxLexer.Text.Utf8

/-!
# The history file

The file begins with a line that names its version, and then has one entry on a line, with
backslashes and line feeds inside an entry escaped. A file without that first line has an entry on
every line, as it stands. Entries come in by the same rule by which lines are entered.

Reading ends at a line that is not UTF-8. What was read before it stays, and stays counted as
unsaved; only a file read to its end leaves nothing unsaved.
-/

namespace LoxLexer

/-- What there is where the history file belongs. -/
inductive HistoryPlace where
  | missing
  | file (content : ByteArray)
  | directory
  /-- The directories above it cannot be made. -/
  | unreachable
  deriving DecidableEq

namespace History

/-- The first line of the file. -/
def versionLine : Text := "#V2".toList

def escape (entry : Text) : Text :=
  entry.flatMap fun c =>
    if c = '\\' then ['\\', '\\'] else if c = '\n' then ['\\', 'n'] else [c]

/-- Undoes `escape`; a backslash before anything else cannot be undone. -/
def unescape? : Text → Option Text
  | [] => some []
  | '\\' :: '\\' :: t => (unescape? t).map ('\\' :: ·)
  | '\\' :: 'n' :: t => (unescape? t).map ('\n' :: ·)
  | '\\' :: _ => none
  | c :: t => (unescape? t).map (c :: ·)

/-- The entry on a line; a line that cannot be undone is taken as it stands. -/
def readEntry (versioned : Bool) (line : Text) : Text :=
  if versioned then (unescape? line).getD line else line

def readLines (versioned : Bool) (h : History) : List (Option Text) → History × Option FileError
  | [] => ({ h with unsaved := 0 }, none)
  | none :: _ => (h, some .notUtf8)
  | some line :: lines =>
      readLines versioned (if line = [] then h else h.add (readEntry versioned line)) lines

/-- The first line is the version line or an entry. -/
def readFile (content : ByteArray) : History × Option FileError :=
  match Text.lines content with
  | some line :: lines =>
      if line = versionLine then readLines true empty lines
      else readLines false (empty.add line) lines
  | lines => readLines false empty lines

/-- The history found at a place, and what was wrong with it. -/
def load : HistoryPlace → History × Option FileError
  | .missing => (empty, some .notFound)
  | .directory => (empty, some .isADirectory)
  | .unreachable => (empty, some .notADirectory)
  | .file content => readFile content

def fileText (entries : List Text) : Text :=
  versionLine ++ '\n' :: entries.flatMap fun entry => escape entry ++ ['\n']

/-- The place after saving, and what went wrong. With nothing unsaved, nothing is written. -/
def save (h : History) (place : HistoryPlace) : HistoryPlace × Option FileError :=
  if h.entries = [] ∨ h.unsaved = 0 then (place, none)
  else
    match place with
    | .missing | .file _ => (.file (Text.encode (fileText h.entries)), none)
    | .directory => (.directory, some .isADirectory)
    | .unreachable => (.unreachable, some .notADirectory)

theorem unescape?_escape (entry : Text) : unescape? (escape entry) = some entry := by
  induction entry with
  | nil => rfl
  | cons c entry ih =>
      by_cases slash : c = '\\'
      · subst slash
        simpa [escape, unescape?] using ih
      · by_cases feed : c = '\n'
        · subst feed
          simpa [escape, unescape?] using ih
        · have step : escape (c :: entry) = c :: escape entry := by simp [escape, slash, feed]
          rw [step, unescape?, ih]
          · rfl
          all_goals simp [slash]

end History

end LoxLexer

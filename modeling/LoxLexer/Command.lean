import LoxLexer.Text.Blank

/-!
# Commands of the interactive session

A command is a point, a name and perhaps an argument after blanks. Names may be shortened, and
capital letters in them count as small ones.
-/

namespace LoxLexer

inductive CommandName where
  | help | exit | clear | version | load
  deriving DecidableEq

namespace CommandName

def all : List CommandName := [help, exit, clear, version, load]

def name : CommandName → Text
  | help => "Help".toList
  | exit => "Exit".toList
  | clear => "Clear".toList
  | version => "Version".toList
  | load => "Load".toList

/-- The names that stand for the command, the full one first. -/
def aliases : CommandName → List Text
  | help => ["help".toList, "h".toList, "?".toList]
  | exit => ["exit".toList, "quit".toList, "q".toList]
  | clear => ["clear".toList, "cls".toList]
  | version => ["version".toList, "v".toList]
  | load => ["load".toList, "l".toList]

/-- The point and the full name. -/
def word (n : CommandName) : Text := '.' :: (n.aliases.headD [])

/-- How the command is written, with a place for its argument. -/
def usage : CommandName → Text
  | load => ".load <file>".toList
  | n => n.word

def description : CommandName → Text
  | help => "Show this help message".toList
  | exit => "Exit the REPL".toList
  | clear => "Clear the screen".toList
  | version => "Show version information".toList
  | load => "Scan a Lox file and list its tokens".toList

def ofAlias? (t : Text) : Option CommandName := all.find? fun n => n.aliases.contains t

end CommandName

/-- The small form of a character, as far as it holds an ASCII letter: beside the ASCII capitals
only the Kelvin sign and the capital I with a dot have such a form. -/
def lowercase (c : Char) : Text :=
  if c = '\u212a' then ['k']
  else if c = '\u0130' then ['i', '\u0307']
  else [c.toLower]

structure Command where
  name : CommandName
  argument : Option Text
  deriving DecidableEq

namespace Command

/-- Reads a line as a command, if it is one. -/
def parse? (line : Text) : Option Command :=
  match Text.trim line with
  | '.' :: rest =>
      let name := rest.takeWhile fun c => !isBlank c
      let argument := Text.trim (rest.dropWhile fun c => !isBlank c)
      (CommandName.ofAlias? (name.flatMap lowercase)).map fun n =>
        ⟨n, if argument = [] then none else some argument⟩
  | _ => none

end Command

end LoxLexer

import LoxLexer.Diagnostic
import LoxLexer.FileError
import LoxLexer.Text.Quoted

/-!
# Log events

What the scanner, the file scanner, the reporter and the session have to say about their work. An
event has a level, the target that it comes from, a message and named fields; a field named
`message` is shown without its name.
-/

namespace LoxLexer.Log

inductive Level where
  | error | warn | info | debug | trace
  deriving DecidableEq

namespace Level

def name : Level → Text
  | error => "ERROR".toList
  | warn => "WARN".toList
  | info => "INFO".toList
  | debug => "DEBUG".toList
  | trace => "TRACE".toList

/-- The more there is to read, the higher. -/
def verbosity : Level → Nat
  | error => 1
  | warn => 2
  | info => 3
  | debug => 4
  | trace => 5

end Level

inductive Event where
  | malformedInput (d : Diagnostic)
  | scanComplete (tokens lines errors : Nat)
  | scanningFile (path : Text) (bytes : Nat)
  | scanError (d : Diagnostic)
  | entryHadErrors
  | historyDirectoryMissing (path : Text) (error : FileError)
  | historyNotLoaded (error : FileError)
  | historyNotSaved (error : FileError)
  deriving DecidableEq

namespace Event

def level : Event → Level
  | malformedInput _ => .trace
  | historyDirectoryMissing _ _ | historyNotSaved _ => .warn
  | _ => .debug

def target : Event → Text
  | malformedInput _ | scanComplete _ _ _ => "lox_lang::lexer::scanner".toList
  | scanningFile _ _ => "lox_lang::async_scanner".toList
  | scanError _ => "lox::report".toList
  | _ => "lox::repl".toList

def message : Event → Text
  | malformedInput _ => "malformed input".toList
  | scanComplete _ _ _ => "scan complete".toList
  | scanningFile _ _ => "scanning file".toList
  | scanError _ => "scan error".toList
  | entryHadErrors => "entry had scan errors".toList
  | historyDirectoryMissing _ _ => "cannot create history directory".toList
  | historyNotLoaded _ => "no history loaded".toList
  | historyNotSaved _ => "failed to save history".toList

/-- The bare field, besides which an event has named ones. -/
def messageField : Text := "message".toList

def fields : Event → List (Text × Text)
  | malformedInput d | scanError d =>
      [("line".toList, digitsOfNat d.line), (messageField, d.message)]
  | scanComplete tokens lines errors =>
      [("tokens".toList, digitsOfNat tokens), ("lines".toList, digitsOfNat lines),
        ("errors".toList, digitsOfNat errors)]
  | scanningFile path bytes => [("path".toList, path), ("bytes".toList, digitsOfNat bytes)]
  | entryHadErrors => []
  | historyDirectoryMissing path error =>
      [("path".toList, path), ("error".toList, error.message)]
  | historyNotLoaded error | historyNotSaved error => [("error".toList, error.message)]

/-- Characters that could steer a terminal are written by their codes. -/
def harmless (t : Text) : Text :=
  t.flatMap fun c =>
    if c = '\x1b' then "\\x1b".toList
    else if c = '\x07' then "\\x07".toList
    else if c = '\x08' then "\\x08".toList
    else if c = '\x0c' then "\\x0c".toList
    else if c = '\x7f' then "\\x7f".toList
    else if 0x80 ≤ c.toNat ∧ c.toNat ≤ 0x9F then
      ['\\', 'u', '{'] ++ hexadecimal c.toNat ++ ['}']
    else [c]

def fieldText (field : Text × Text) : Text :=
  if field.1 = messageField then ' ' :: harmless field.2
  else ' ' :: field.1 ++ '=' :: field.2

def text (e : Event) : Text :=
  e.level.name ++ ' ' :: e.target ++ ": ".toList ++ e.message ++ e.fields.flatMap fieldText

end Event

end LoxLexer.Log

import LoxLexer.Program

/-!
# The command

Reads the surroundings of a run, hands over to the program, and writes what it says. A session at
a terminal is held line by line, so that each answer is there before the next line is entered.
-/

namespace LoxLexer

namespace Shell

def fileErrorOf (e : IO.Error) : FileError :=
  match e with
  | .noFileOrDirectory .. => .notFound
  | .inappropriateType _ 20 _ => .notADirectory
  | .inappropriateType _ 21 _ => .isADirectory
  | e => .other (toString e).toList

def readPath (path : Text) : IO (Except FileError ByteArray) := do
  if path.contains '\x00' then return .error .nulInName
  try
    return .ok (← IO.FS.readBinFile (String.ofList path))
  catch e =>
    return .error (fileErrorOf e)

/-- Files that were read beforehand. -/
def readerOf (path : Text) (content : Except FileError ByteArray) : Reader := fun wanted =>
  if wanted = path then content else .error .notFound

def write (filter : Log.Filter) (t : Transcript) : IO Unit := do
  let out ← IO.getStdout
  let err ← IO.getStderr
  out.putStr (String.ofList t.stdout)
  out.flush
  err.putStr (String.ofList (t.log.filter filter.passes |>.flatMap fun e => e.text ++ ['\n']))
  err.putStr (String.ofList t.stderr)
  err.flush

/-- Lets every event through. -/
def everything : Log.Filter := [⟨none, none, some .trace, true⟩]

def historyDirectory : IO Text := do
  match ← IO.getEnv "XDG_DATA_HOME", ← IO.getEnv "HOME" with
  | some data, _ => return (data ++ "/lox").toList
  | none, some home => return (home ++ "/.local/share/lox").toList
  | none, none => return "./lox".toList

def historyFile (directory : Text) : Text := directory ++ "/.lox_history".toList

def findHistory (directory : Text) : IO HistoryPlace := do
  try
    IO.FS.createDirAll (String.ofList directory)
  catch _ =>
    return .unreachable
  match ← readPath (historyFile directory) with
  | .ok content => return .file content
  | .error .isADirectory => return .directory
  | .error _ => return .missing

def keepHistory (directory : Text) (before after : HistoryPlace) : IO Unit := do
  if before ≠ after then
    if let .file content := after then
      IO.FS.writeBinFile (String.ofList (historyFile directory)) content

/-- The file that the answer to a line depends on. -/
def fileNeeded (line : Text) : Option Text :=
  match Command.parse? line with
  | some ⟨.load, path⟩ => path
  | _ => none

def nextOutcome : IO Outcome := do
  let line ← (← IO.getStdin).getLine
  return ((Program.outcomesOf line.toUTF8).head?).getD .endOfInput

/-- Holds a session until an outcome ends it. -/
partial def hold (filter : Log.Filter) (atTerminal prompting : Bool) (h : History) :
    IO History := do
  if prompting then write filter (.output Session.prompt)
  let o ← try nextOutcome catch _ => pure (.failure .notUtf8)
  let read ← match o with
    | .line text => match fileNeeded text with
      | some path => pure (readerOf path (← readPath path))
      | none => pure (fun _ => .error .notFound)
    | _ => pure (fun _ => .error .notFound)
  let h := if atTerminal then Session.note h o else h
  write filter (Session.respond read o)
  if Session.endsWith o then return h else hold filter atTerminal prompting h

def holdSession (filter : Log.Filter) : IO Unit := do
  let directory ← historyDirectory
  let place ← findHistory directory
  let plain := (← IO.getEnv "TERM").any fun name => Program.isPlainTerminal name.toList
  let atTerminal ← (← IO.getStdin).isTty
  write filter (Session.opening directory place)
  let h ← hold filter (atTerminal && !plain) (atTerminal || plain) (History.load place).1
  keepHistory directory place (h.save place).1
  write filter (Session.closing h place)

def surroundings (script : Option Text) : IO Surroundings := do
  let read ← match script with
    | some path => pure (readerOf path (← readPath path))
    | none => pure (fun _ => .error .notFound)
  let given := (← IO.getEnv "RUST_LOG").map String.toList
  return ⟨read, ByteArray.empty, [], .missing, none, given, false⟩

def run (arguments : List Text) : IO UInt32 := do
  match Arguments.parse arguments with
  | .request ⟨none, none, verbose⟩ =>
      let given := (← IO.getEnv "RUST_LOG").map String.toList
      holdSession (Log.Filter.choose given verbose)
      return 0
  | .request ⟨script, _, _⟩ =>
      let ending := Program.run (← surroundings script) arguments
      write everything ending.transcript
      return UInt32.ofNat ending.status
  | _ =>
      let ending := Program.run (← surroundings none) arguments
      write everything ending.transcript
      return UInt32.ofNat ending.status

end Shell

end LoxLexer

def main (arguments : List String) : IO UInt32 :=
  LoxLexer.Shell.run (arguments.map String.toList)

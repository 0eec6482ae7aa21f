import LoxLexer.Arguments
import LoxLexer.Log.Filter
import LoxLexer.Session

/-!
# The program

One run of the program: scan the source given on the command line, or a script, or hold a session
over the lines of the input. The exit status tells success, wrong usage, faulty source and
unreadable script apart.
-/

namespace LoxLexer

/-- What a run finds around it. -/
structure Surroundings where
  read : Reader
  input : ByteArray
  historyPath : Text
  historyPlace : HistoryPlace
  terminalName : Option Text
  logFilter : Option Text
  /-- Nothing can be written to the standard output. Only help and the version reckon with it; what
  else is said of a run is meant for an output that can be written. -/
  outputFull : Bool

/-- What a run leaves behind. -/
structure Ending where
  status : Nat
  transcript : Transcript
  historyPlace : HistoryPlace

namespace Program

def success : Nat := 0

def usageStatus : Nat := 64

def faultyStatus : Nat := 65

def unreadableStatus : Nat := 66

/-- The line of usage. A complaint about an argument names it too, which is left out. -/
def usage : Text := "Usage: lox [OPTIONS] [SCRIPT]\n".toList

def helpText : Text :=
  "Scan Lox source into tokens\n\n".toList ++ usage ++
  ("\nArguments:\n" ++
    "  [SCRIPT]  Lox script to scan\n" ++
    "\nOptions:\n" ++
    "  -e, --eval <EVAL>  Scan source given on the command line\n" ++
    "      --verbose      Enable verbose logging\n" ++
    "  -h, --help         Print help\n" ++
    "  -V, --version      Print version\n").toList

def versionText : Text := "lox ".toList ++ programVersion ++ ['\n']

/-- A text for the standard output, or a complaint that it cannot be written. -/
def announce (full : Bool) (t : Text) : Transcript :=
  if full then .errors (errorLine FileError.noSpaceLeft.message) else .output t

/-- The status of a scanned source: faulty if anything was reported. -/
def statusOf (source : Text) : Nat := if (scan source).isFaulty then faultyStatus else success

def runText (source : Text) : Nat × Transcript :=
  (statusOf source, showOutput plainListing source)

def runScript (read : Reader) (path : Text) : Nat × Transcript :=
  match readSource read path with
  | .ok source =>
      (statusOf source,
        .logged [.scanningFile path (Text.byteLength source)] ++ showOutput plainListing source)
  | .error e => (unreadableStatus, .errors (errorLine e.message))

/-- Terminals that cannot move the cursor; names are compared without regard to case. -/
def isPlainTerminal (name : Text) : Bool :=
  ["dumb".toList, "cons25".toList, "emacs".toList].contains (name.map Char.toLower)

/-- What asking for lines brings, when they come from the input. -/
def outcomesOf (input : ByteArray) : List Outcome :=
  (Text.lines input).map fun line => match line with
    | some text => .line text
    | none => .failure .notUtf8

/-- A session over the lines of the input. Only a plain terminal is sent a prompt for each. -/
def runSession (s : Surroundings) : Session.Course :=
  let course := Session.run s.read false s.historyPath s.historyPlace (outcomesOf s.input)
  let prompt := if s.terminalName.any isPlainTerminal then Session.prompt else []
  { course with answers := course.answers.map fun answer => .output prompt ++ answer }

/-- Lets through the log what the filter lets through. -/
def filtered (s : Surroundings) (verbose : Bool) (t : Transcript) : Transcript :=
  { t with log := t.log.filter (Log.Filter.choose s.logFilter verbose).passes }

def runRequest (s : Surroundings) (r : Request) : Ending :=
  match r.eval, r.script with
  | some source, _ =>
      let (status, t) := runText source
      ⟨status, filtered s r.verbose t, s.historyPlace⟩
  | none, some path =>
      let (status, t) := runScript s.read path
      ⟨status, filtered s r.verbose t, s.historyPlace⟩
  | none, none =>
      let course := runSession s
      ⟨success, filtered s r.verbose course.transcript, course.place⟩

def run (s : Surroundings) (arguments : List Text) : Ending :=
  match Arguments.parse arguments with
  | .request r => runRequest s r
  | .help => ⟨success, announce s.outputFull helpText, s.historyPlace⟩
  | .version => ⟨success, announce s.outputFull versionText, s.historyPlace⟩
  | .usageError => ⟨usageStatus, .errors usage, s.historyPlace⟩

end Program

end LoxLexer

import LoxLexer.Files
import LoxLexer.Listing
import LoxLexer.Transcript

/-!
# The console as observer

The console shows every diagnostic that reaches it on the error output, logs it and remembers it.
It may watch a scan, or be told afterwards what a scan has reported.
-/

namespace LoxLexer

structure Console where
  reports : Array Diagnostic
  log : Array Log.Event

namespace Console

def empty : Console := ⟨#[], #[]⟩

def isFaulty (c : Console) : Bool := !c.reports.isEmpty

def report (c : Console) (d : Diagnostic) : Console :=
  ⟨c.reports.push d, c.log.push (.scanError d)⟩

def observer : Observer Console := ⟨report, fun c e => { c with log := c.log.push e }⟩

/-- Reports what was collected elsewhere. -/
def tellAll (c : Console) (diagnostics : List Diagnostic) : Console := diagnostics.foldl report c

def transcript (c : Console) : Transcript :=
  ⟨[], diagnosticListing c.reports.toList, c.log.toList⟩

end Console

/-- Scans under the eyes of the console and lists the tokens in colours. -/
def listEntry (line : Text) : Transcript :=
  let (tokens, console) := scanObserved Console.observer line Console.empty
  let remark := if console.isFaulty then [Log.Event.entryHadErrors] else []
  .output (styledListing tokens) ++ console.transcript ++ .logged remark

/-- The log of a scan and the console's report of it, after the listing of its tokens. -/
def showOutput (listing : List Token → Text) (source : Text) : Transcript :=
  let found := scan source
  .logged (scanLog source) ++ .output (listing found.tokens) ++
    (Console.empty.tellAll found.diagnostics).transcript

/-- Lists the tokens of a file, or says why it cannot be read. -/
def showFile (read : Reader) (path : Text) : Transcript :=
  match readSource read path with
  | .ok source => showOutput styledListing source
  | .error e => .errors (errorLine e.message)

end LoxLexer

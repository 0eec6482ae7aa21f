import LoxLexer.Scan

/-!
# A collector of diagnostics

The collector keeps what is reported to it until it is cleared or emptied. A copy may be saved and
put back later. Scanning appends the diagnostics of the source and leaves all else alone.
-/

namespace LoxLexer

/-- Everything reported so far, in order, and the copy that was saved last. -/
structure Collector where
  items : List Diagnostic
  saved : List Diagnostic
  deriving DecidableEq

namespace Collector

def empty : Collector := ⟨[], []⟩

inductive Step where
  | scan (source : Text)
  | report (d : Diagnostic)
  | clear
  | save
  | equalsSaved
  | restore
  | takeAll

inductive Answer where
  | nothing
  | tokens (tokens : List Token)
  | flag (same : Bool)
  | items (taken : List Diagnostic)

def report (c : Collector) (d : Diagnostic) : Collector := { c with items := c.items ++ [d] }

def step (c : Collector) : Step → Collector × Answer
  | .scan source =>
      let (tokens, c) := scanObserved (Observer.ofReport report) source c
      (c, .tokens tokens)
  | .report d => (c.report d, .nothing)
  | .clear => ({ c with items := [] }, .nothing)
  | .save => ({ c with saved := c.items }, .nothing)
  | .equalsSaved => (c, .flag (c.items == c.saved))
  | .restore => ({ c with items := c.saved }, .nothing)
  | .takeAll => ({ c with items := [] }, .items c.items)

/-- The collector after each step, with the step's answer. -/
def run (c : Collector) : List Step → List (Collector × Answer)
  | [] => []
  | s :: steps => c.step s :: run (c.step s).1 steps

end Collector

end LoxLexer

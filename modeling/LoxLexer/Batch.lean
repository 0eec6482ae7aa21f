import LoxLexer.Files

/-!
# Many sources at once

Every source is a job of its own with a slot of its own for the result. Jobs may be finished in
any order; the results are read off the slots from first to last.
-/

namespace LoxLexer

/-- Does the jobs with these indices, one after the other, each filling its slot. -/
def fillSlots {α β : Type} (job : α → β) (items : List α) (order : List Nat) : List (Option β) :=
  order.foldl
    (fun slots i => match items[i]? with
      | some item => slots.set i (some (job item))
      | none => slots)
    (List.replicate items.length none)

/-- The results in the order of the items. -/
def runJobs {α β : Type} (job : α → β) (items : List α) (order : List Nat) : List β :=
  (fillSlots job items order).filterMap id

/-- Workers that share the sources among themselves. -/
structure Pool where
  threads : Nat
  deriving DecidableEq

namespace Pool

def describe (p : Pool) : Text :=
  "ParallelScanner \x7b threads: ".toList ++ digitsOfNat p.threads ++ " \x7d".toList

/-- Sources dealt out to the workers in turn, and the workers' shares one after the other. -/
def order (p : Pool) (count : Nat) : List Nat :=
  (List.range (min p.threads count)).flatMap fun worker =>
    (List.range count).filter fun i => i % p.threads = worker

def scanAll (p : Pool) (sources : List Text) : List Scanned :=
  runJobs scan sources (p.order sources.length)

end Pool

/-- Scans files whose contents arrive in some order; results stand in the order of the paths. -/
def scanPaths (read : Reader) (paths : List Text) (arrival : List Nat) :
    List (Except LoadError Scanned) :=
  runJobs (scanPath read) paths arrival

end LoxLexer

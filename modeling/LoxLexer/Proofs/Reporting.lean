import LoxLexer.Collector
import LoxLexer.Console
import LoxLexer.Proofs.Cursor

/-!
# Reporting

Whoever takes the reports of a scan has no say in it. The tokens are the same for all, and each is
told the same diagnostics in the same order, whatever was made of earlier ones; a collector that has
been filled, cleared, emptied or put back before gets just the diagnostics of the source behind what
it holds (`scan_reporting`). The byte cursor, which reports from several places, does no other.
-/

namespace LoxLexer

theorem tokens_scan (source : Text) : (scan source).tokens = tokensOf source := by
  rw [scan_eq]

theorem diagnostics_scan (source : Text) : (scan source).diagnostics = diagnosticsOf source := by
  rw [scan_eq]

/-- Any observer takes in the diagnostics of the scan, and after them the last word to the log. -/
theorem scanObserved_eq_scan {σ : Type} (o : Observer σ) (source : Text) (s : σ) :
    scanObserved o source s =
      ((scan source).tokens, o.log ((scan source).diagnostics.foldl o.take s)
        (.scanComplete (scan source).tokens.length (endOf source).line
          (scan source).diagnostics.length)) := by
  rw [scanObserved_eq, tokens_scan, diagnostics_scan]

/-- Who does not listen to the log is left with the fold of the reports. -/
theorem scanObserved_ofReport {σ : Type} (report : σ → Diagnostic → σ) (source : Text) (s : σ) :
    scanObserved (.ofReport report) source s =
      ((scan source).tokens, (scan source).diagnostics.foldl report s) :=
  scanObserved_eq_scan (.ofReport report) source s

/-! What the scan has to say to the log alone. -/

theorem foldl_take_log (ds : List Diagnostic) (events : Array Log.Event) :
    ds.foldl (Observer.take ⟨fun events _ => events, Array.push⟩) events =
      events ++ (ds.map Log.Event.malformedInput).toArray := by
  induction ds generalizing events with
  | nil => simp
  | cons d ds ih =>
      rw [List.foldl_cons, ih]
      simp [Observer.take]

theorem scanLog_eq (source : Text) : scanLog source =
    (scan source).diagnostics.map .malformedInput ++
      [.scanComplete (scan source).tokens.length (endOf source).line
        (scan source).diagnostics.length] := by
  rw [scanLog, scanObserved_eq_scan, foldl_take_log]
  simp

namespace Console

theorem foldl_report (ds : List Diagnostic) (k : Console) :
    ds.foldl report k =
      ⟨k.reports ++ ds.toArray, k.log ++ (ds.map Log.Event.scanError).toArray⟩ := by
  induction ds generalizing k with
  | nil => simp
  | cons d ds ih =>
      rw [List.foldl_cons, ih]
      simp [report]

theorem foldl_take (ds : List Diagnostic) (k : Console) :
    ds.foldl observer.take k =
      ⟨k.reports ++ ds.toArray,
        k.log ++ (ds.flatMap fun d => [.malformedInput d, .scanError d]).toArray⟩ := by
  induction ds generalizing k with
  | nil => simp
  | cons d ds ih =>
      rw [List.foldl_cons, ih]
      simp [Observer.take, observer, report]

/-- Watching a scan, the console is shown what it would be told of it afterwards. -/
theorem reports_scanObserved (source : Text) (k : Console) :
    (scanObserved observer source k).2.reports =
      ((scan source).diagnostics.foldl report k).reports := by
  rw [scanObserved_eq_scan, foldl_take, foldl_report]
  rfl

end Console

namespace Collector

/-- The collector after these steps. -/
def after (c : Collector) (steps : List Step) : Collector := steps.foldl (fun c s => (c.step s).1) c

theorem run_append (c : Collector) (earlier later : List Step) :
    c.run (earlier ++ later) = c.run earlier ++ (c.after earlier).run later := by
  induction earlier generalizing c with
  | nil => rfl
  | cons s earlier ih =>
      rw [List.cons_append, run, run, ih, List.cons_append]
      rfl

theorem foldl_report (ds : List Diagnostic) (c : Collector) :
    ds.foldl report c = { c with items := c.items ++ ds } := by
  induction ds generalizing c with
  | nil => simp
  | cons d ds ih =>
      rw [List.foldl_cons, ih]
      simp [report]

theorem step_scan (c : Collector) (source : Text) :
    c.step (.scan source) =
      ({ c with items := c.items ++ (scan source).diagnostics }, .tokens (scan source).tokens) := by
  rw [step, scanObserved_ofReport]
  simp only [foldl_report]

end Collector

/-- Whatever a reporter does, the tokens are those of the scan, and it is left as if it had been
told the diagnostics of the scan one by one. So is the console, and so is a collector among any
other steps: a scan appends to it what it found, and answers what it always answers. -/
theorem scan_reporting (source : Text) :
    (∀ (σ : Type) (update : σ → Nat → Text → σ) (s : σ),
      let report := fun (s : σ) (d : Diagnostic) => update s d.line d.message
      let found := ((scan source).tokens, (scan source).diagnostics.foldl report s)
      scanObserved (.ofReport report) source s = found ∧
        Cursor.scan? (.ofReport report) source s = some found) ∧
    (∀ k : Console,
      (scanObserved Console.observer source k).1 = (scan source).tokens ∧
      (scanObserved Console.observer source k).2.reports =
        ((scan source).diagnostics.foldl Console.report k).reports) ∧
    ∀ (c : Collector) (earlier later : List Collector.Step),
      let before := c.after earlier
      let scanned := { before with items := before.items ++ (scan source).diagnostics }
      c.run (earlier ++ .scan source :: later) =
        c.run earlier ++ (scanned, .tokens (scan source).tokens) :: scanned.run later := by
  refine ⟨?_, ?_, ?_⟩
  · intro σ update s report found
    have walk : scanObserved (.ofReport report) source s = found :=
      scanObserved_ofReport report source s
    refine ⟨walk, ?_⟩
    rw [Cursor.scan?_eq, walk]
  · intro k
    refine ⟨?_, Console.reports_scanObserved source k⟩
    rw [scanObserved_eq_scan]
  · intro c earlier later before scanned
    have scan : before.step (.scan source) = (scanned, .tokens (scan source).tokens) :=
      before.step_scan source
    rw [Collector.run_append, Collector.run, scan]

end LoxLexer

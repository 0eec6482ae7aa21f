import LoxLexer.Proofs.Lines
import LoxLexer.Proofs.Reporting

/-!
# The log of a scan

While it reports, a scan also writes to the log, and at the end it writes down what it has counted.
Whoever takes the reports, the log says neither more nor less than what was reported and returned
(`scan_log_is_truthful`). The scanner with the byte cursor keeps its counts apart from the tokens and
from the reports, and writes the same.
-/

namespace LoxLexer

/-- An event as a reader of the log sees it. -/
structure Log.Entry where
  level : Log.Level
  message : Text
  fields : List (Text × Text)

def Log.Event.entry (e : Log.Event) : Log.Entry := ⟨e.level, e.message, e.fields⟩

namespace Log.Entry

/-- What is logged for a report. -/
def ofReport (d : Diagnostic) : Entry :=
  ⟨.trace, "malformed input".toList,
    [("line".toList, digitsOfNat d.line), ("message".toList, d.message)]⟩

/-- What is logged at the end of a scan. -/
def ofCounts (tokens lines errors : Nat) : Entry :=
  ⟨.debug, "scan complete".toList,
    [("tokens".toList, digitsOfNat tokens), ("lines".toList, digitsOfNat lines),
      ("errors".toList, digitsOfNat errors)]⟩

end Log.Entry

/-- A reporter with its state, the reports that it has received, and the log beside it. -/
structure Recorded (σ : Type) where
  state : σ
  received : List Diagnostic
  events : List Log.Event

/-- Passes each report on to a reporter, and writes down reports and events. -/
def Observer.recording {σ : Type} (report : σ → Diagnostic → σ) : Observer (Recorded σ) :=
  ⟨fun r d => { r with state := report r.state d, received := r.received ++ [d] },
    fun r e => { r with events := r.events ++ [e] }⟩

/-- The log tells what was received, report by report, and then the number of tokens, the line on
which the source and its last token end, and the number of reports. -/
structure Truthful (source : Text) (tokens : List Token) (received : List Diagnostic)
    (events : List Log.Event) : Prop where
  entries : events.map Log.Event.entry =
    received.map .ofReport ++
      [.ofCounts tokens.length (1 + Text.newlines source) received.length]
  ended : ∃ t, tokens.getLast? = some t ∧ t.kind = .eof ∧ t.line = 1 + Text.newlines source

section Recording
variable {σ : Type} (report : σ → Diagnostic → σ)

/-- Each diagnostic is logged once and received once. -/
theorem foldl_take_recording (ds : List Diagnostic) (r : Recorded σ) :
    ds.foldl (Observer.recording report).take r =
      ⟨ds.foldl report r.state, r.received ++ ds, r.events ++ ds.map .malformedInput⟩ := by
  induction ds generalizing r with
  | nil => simp
  | cons d ds ih =>
      rw [List.foldl_cons, ih]
      simp [Observer.take, Observer.recording]

theorem scanObserved_recording (source : Text) (s : σ) :
    scanObserved (.recording report) source ⟨s, [], []⟩ =
      ((scan source).tokens, ⟨(scan source).diagnostics.foldl report s, (scan source).diagnostics,
        scanLog source⟩) := by
  rw [scanObserved_eq_scan, foldl_take_recording, scanLog_eq]
  simp [Observer.recording]

end Recording

theorem truthful_scan (source : Text) :
    Truthful source (scan source).tokens (scan source).diagnostics (scanLog source) := by
  constructor
  case entries =>
    rw [scanLog_eq, endOf_line, List.map_append, List.map_map]
    rfl
  case ended =>
    refine ⟨Token.eof (endOf source).line (endOf source).offset, ?_, rfl, endOf_line source⟩
    rw [tokens_scan, tokensOf, List.getLast?_concat]

/-- Whatever a reporter does, it receives the diagnostics of the scan, and the log beside it is
truthful about them and about the tokens that are returned. The byte cursor writes the same log. -/
theorem scan_log_is_truthful (source : Text) {σ : Type} (report : σ → Diagnostic → σ) (s : σ) :
    ∃ r : Recorded σ,
      scanObserved (.recording report) source ⟨s, [], []⟩ = ((scan source).tokens, r) ∧
      Cursor.scan? (.recording report) source ⟨s, [], []⟩ = some ((scan source).tokens, r) ∧
      r.received = (scan source).diagnostics ∧ r.state = r.received.foldl report s ∧
      r.events = scanLog source ∧ Truthful source (scan source).tokens r.received r.events := by
  have walk := scanObserved_recording report source s
  refine ⟨_, walk, ?_, rfl, rfl, rfl, truthful_scan source⟩
  rw [Cursor.scan?_eq, walk]

/-- Two faults on two lines, the second one open to the end. -/
example : scanLog "@\n\"".toList =
    [.malformedInput ⟨1, "Unexpected character: @".toList⟩,
      .malformedInput ⟨2, "Unterminated string".toList⟩, .scanComplete 1 2 2] := by
  decide +kernel

end LoxLexer

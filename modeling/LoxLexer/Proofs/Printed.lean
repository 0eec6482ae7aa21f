import LoxLexer.Proofs.Reporting

/-!
# What is printed of a scan

A scanned source is shown in two ways. The console may watch the scan and then list the tokens, or it
may be told the diagnostics afterwards. Either way the same texts go to the two outputs, and beside
them only scanning is logged.
-/

namespace LoxLexer

/-- Events of reading and scanning a source. All others are about the history. -/
def Log.Event.isOfScan : Log.Event → Bool
  | malformedInput _ | scanComplete _ _ _ | scanningFile _ _ | scanError _ | entryHadErrors => true
  | historyDirectoryMissing _ _ | historyNotLoaded _ | historyNotSaved _ => false

/-- What goes to the two outputs. -/
structure Printed where
  stdout : Text
  stderr : Text

/-- This is printed, and only scanning is logged. -/
structure Transcript.Shows (t : Transcript) (printed : Printed) : Prop where
  stdout : t.stdout = printed.stdout
  stderr : t.stderr = printed.stderr
  log : ∀ e ∈ t.log, e.isOfScan

/-- A line for each token, as it is shown, and one for each diagnostic in colours. -/
def Scanned.printed (found : Scanned) (shown : Token → Text) : Printed :=
  ⟨found.tokens.flatMap fun t => shown t ++ ['\n'],
    found.diagnostics.flatMap fun d => d.styled.paint ++ ['\n']⟩

/-- A line that tells of an error, the word itself in red and bold. -/
def alarm (message : Text) : Text :=
  (Style.bold .red).paint "Error".toList ++ ": ".toList ++ message ++ ['\n']

/-- What is printed of a file: its scan, or the reason why it could not be read. -/
def printedOf (shown : Token → Text) : Except LoadError Scanned → Printed
  | .ok found => found.printed shown
  | .error e => ⟨[], alarm e.message⟩

/-! The lines of a listing. -/

/-- A listing has a line for each token, showing it in this way. -/
def Lists (listing : List Token → Text) (shown : Token → Text) : Prop :=
  ∀ tokens, listing tokens = tokens.flatMap fun t => shown t ++ ['\n']

theorem plainListing_lists : Lists plainListing Token.display := fun _ => rfl

theorem styledListing_lists : Lists styledListing fun t => t.styled.paint := fun _ => rfl

theorem errorLine_eq_alarm (message : Text) : errorLine message = alarm message := by
  simp [errorLine, alarm, errorWord, Styled.line, Styled.paint, Style.paint, Style.opening,
    Style.closing]

/-! Parts of a transcript and what they show. -/

theorem shows_output (t : Text) : (Transcript.output t).Shows ⟨t, []⟩ :=
  ⟨rfl, rfl, List.forall_mem_nil _⟩

theorem shows_errors (t : Text) : (Transcript.errors t).Shows ⟨[], t⟩ :=
  ⟨rfl, rfl, List.forall_mem_nil _⟩

theorem shows_errorLine (message : Text) :
    (Transcript.errors (errorLine message)).Shows ⟨[], alarm message⟩ := by
  rw [errorLine_eq_alarm]
  exact shows_errors (alarm message)

theorem shows_listing {listing : List Token → Text} {shown : Token → Text}
    (lists : Lists listing shown) (tokens : List Token) :
    (Transcript.output (listing tokens)).Shows
      ⟨tokens.flatMap fun t => shown t ++ ['\n'], []⟩ := by
  rw [lists]
  exact shows_output _

theorem shows_logged {events : List Log.Event} (scanning : ∀ e ∈ events, e.isOfScan) :
    (Transcript.logged events).Shows ⟨[], []⟩ :=
  ⟨rfl, rfl, scanning⟩

theorem Transcript.Shows.append {a b : Transcript} {p q : Printed} (ha : a.Shows p)
    (hb : b.Shows q) : (a ++ b).Shows ⟨p.stdout ++ q.stdout, p.stderr ++ q.stderr⟩ := by
  constructor
  case stdout => rw [stdout_append, ha.stdout, hb.stdout]
  case stderr => rw [stderr_append, ha.stderr, hb.stderr]
  case log =>
    intro e member
    rcases List.mem_append.mp member with first | second
    · exact ha.log e first
    · exact hb.log e second

/-! The log of a scan. -/

theorem isOfScan_of_mem_map {ds : List Diagnostic} {event : Diagnostic → Log.Event}
    (scanning : ∀ d, (event d).isOfScan) : ∀ e ∈ ds.map event, e.isOfScan := by
  intro e member
  obtain ⟨d, _, rfl⟩ := List.mem_map.mp member
  exact scanning d

theorem isOfScan_of_mem_scanLog (source : Text) : ∀ e ∈ scanLog source, e.isOfScan := by
  rw [scanLog_eq]
  intro e member
  rcases List.mem_append.mp member with reported | complete
  · exact isOfScan_of_mem_map (fun _ => rfl) e reported
  · obtain rfl := List.mem_singleton.mp complete
    rfl

/-! The console, told of a scan or watching it, and what stands around it. -/

theorem tellAll_shows (ds : List Diagnostic) :
    (Console.empty.tellAll ds).transcript.Shows
      ⟨[], ds.flatMap fun d => d.styled.paint ++ ['\n']⟩ := by
  have told : (Console.empty.tellAll ds).transcript =
      ⟨[], diagnosticListing ds, ds.map Log.Event.scanError⟩ := by
    rw [Console.tellAll, Console.foldl_report]
    simp [Console.empty, Console.transcript]
  rw [told]
  exact ⟨rfl, rfl, isOfScan_of_mem_map fun _ => rfl⟩

/-- A console that has watched one scan from its start. -/
theorem scanObserved_console (source : Text) :
    scanObserved Console.observer source Console.empty =
      ((scan source).tokens, ⟨(scan source).diagnostics.toArray,
        ((scan source).diagnostics.flatMap
            (fun d => [Log.Event.malformedInput d, Log.Event.scanError d]) ++
          [Log.Event.scanComplete (scan source).tokens.length (endOf source).line
            (scan source).diagnostics.length]).toArray⟩) := by
  rw [scanObserved_eq_scan, Console.foldl_take]
  simp [Console.observer, Console.empty]

theorem watching_shows (source : Text) :
    (scanObserved Console.observer source Console.empty).2.transcript.Shows
      ⟨[], (scan source).diagnostics.flatMap fun d => d.styled.paint ++ ['\n']⟩ := by
  rw [scanObserved_console]
  refine ⟨rfl, rfl, ?_⟩
  intro e member
  rcases List.mem_append.mp member with reported | complete
  · obtain ⟨d, _, event⟩ := List.mem_flatMap.mp reported
    simp only [List.mem_cons, List.not_mem_nil, or_false] at event
    rcases event with rfl | rfl <;> rfl
  · obtain rfl := List.mem_singleton.mp complete
    rfl

theorem showOutput_shows {listing : List Token → Text} {shown : Token → Text}
    (lists : Lists listing shown) (source : Text) :
    (showOutput listing source).Shows ((scan source).printed shown) := by
  have scanned := shows_logged (isOfScan_of_mem_scanLog source)
  have listed := shows_listing lists (scan source).tokens
  have told := tellAll_shows (scan source).diagnostics
  simpa [showOutput, Scanned.printed] using (scanned.append listed).append told

theorem listEntry_shows (line : Text) :
    (listEntry line).Shows ((scan line).printed fun t => t.styled.paint) := by
  have tokens : (scanObserved Console.observer line Console.empty).1 = (scan line).tokens := by
    rw [scanObserved_console]
  have listed := shows_listing styledListing_lists (scan line).tokens
  have watched := watching_shows line
  have remark (faulty : Bool) :
      (Transcript.logged (if faulty then [Log.Event.entryHadErrors] else [])).Shows ⟨[], []⟩ := by
    refine shows_logged ?_
    cases faulty with
    | true => exact List.forall_mem_singleton.mpr rfl
    | false => exact List.forall_mem_nil _
  simpa [listEntry, tokens, Scanned.printed] using (listed.append watched).append (remark _)

theorem showFile_shows (read : Reader) (path : Text) :
    (showFile read path).Shows (printedOf (fun t => t.styled.paint) (scanPath read path)) := by
  rw [showFile, scanPath]
  cases readSource read path with
  | ok source => exact showOutput_shows styledListing_lists source
  | error e => exact shows_errorLine e.message

end LoxLexer

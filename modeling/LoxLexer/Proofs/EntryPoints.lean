import LoxLexer.Proofs.Entries
import LoxLexer.Proofs.Jobs

/-!
# Ways to have a source scanned

A source can be given on the command line or in a file, and a file can be scanned by itself, among
others, by the command, or from inside a session. All these ways agree on what is found
(`entry_points_agree`), and tell of it in the same words; only the colours of the token listings
differ. What a path leads to is up to the reader, and the output can be written.

The command reads some arguments as options. A path that looks like one has to come behind two
dashes.
-/

namespace LoxLexer

/-! A path after a command. -/

theorem Text.trimEnd_of_trim {t : Text} (trimmed : trim t = t) : trimEnd t = t := by
  have shorter : (trim t).length ≤ (trimStart t).length := by
    simpa [trim, trimEnd] using List.length_dropWhile_le isBlank (trimStart t).reverse
  rw [trimmed] at shorter
  have start : trimStart t = t := (List.dropWhile_suffix isBlank).eq_of_length_le shorter
  rw [trim, start] at trimmed
  exact trimmed

theorem Text.trimEnd_append (s : Text) {t : Text} (nonempty : t ≠ []) (trimmed : trimEnd t = t) :
    trimEnd (s ++ t) = s ++ t := by
  have behind : t.reverse.dropWhile isBlank = t.reverse := List.reverse_eq_iff.mp trimmed
  rw [trimEnd, List.reverse_append, List.dropWhile_append, behind,
    if_neg (by simpa using nonempty), List.reverse_append, List.reverse_reverse,
    List.reverse_reverse]

theorem parse?_load {path : Text} (nonempty : path ≠ []) (trimmed : Text.trim path = path) :
    Command.parse? (".load ".toList ++ path) = some ⟨.load, some path⟩ := by
  have line : Text.trim (".load ".toList ++ path) = '.' :: ("load".toList ++ ' ' :: path) :=
    Text.trimEnd_append ".load ".toList nonempty (Text.trimEnd_of_trim trimmed)
  have argument : Text.trim (' ' :: path) = path := trimmed
  rw [Command.parse?, line]
  change (CommandName.ofAlias? "load".toList).map (fun n => (⟨n,
    if Text.trim (' ' :: path) = [] then none else some (Text.trim (' ' :: path))⟩ : Command)) = _
  rw [argument, if_neg nonempty]
  rfl

/-! A path on the command line. -/

namespace Arguments

theorem take_of_not_isOption {word : Text} (isWord : isOption word = false) (r : Request) :
    take r word = .ofOption (takeScript r word) := by
  unfold take
  split
  · cases isWord
  · cases isWord
  · rfl

theorem takeScript_first {path : Text} (nonempty : path ≠ []) (eval : Option Text)
    (verbose : Bool) :
    takeScript ⟨none, eval, verbose⟩ path = some ⟨some path, eval, verbose⟩ :=
  if_pos ⟨rfl, nonempty⟩

theorem parse_path {path : Text} (nonempty : path ≠ []) (isWord : isOption path = false) :
    parse [path] = .request ⟨some path, none, false⟩ := by
  have notDashes : path ≠ "--".toList := by
    rintro rfl
    cases isWord
  rw [parse, readFrom, if_neg notDashes, take_of_not_isOption isWord, takeScript_first nonempty]
  rfl

theorem parse_dashes_path {path : Text} (nonempty : path ≠ []) :
    parse ["--".toList, path] = .request ⟨some path, none, false⟩ := by
  rw [parse, readFrom, if_pos rfl, readScripts, takeScript_first nonempty]
  rfl

end Arguments

/-! What the command does. -/

/-- Nothing that a scan logs passes the standard filter. -/
theorem not_passes_standard {e : Log.Event} (scanning : e.isOfScan) :
    (Log.Filter.standard false).passes e = false := by
  cases e with
  | malformedInput d => rfl
  | scanComplete tokens lines errors => rfl
  | scanningFile path bytes => rfl
  | scanError d => rfl
  | entryHadErrors => rfl
  | historyDirectoryMissing path error => cases scanning
  | historyNotLoaded error => cases scanning
  | historyNotSaved error => cases scanning

/-- The status of a run that ends with this. -/
def statusFor : Except LoadError Scanned → Nat
  | .ok found => if found.diagnostics = [] then Program.success else Program.faultyStatus
  | .error _ => Program.unreadableStatus

theorem statusOf_eq (source : Text) : Program.statusOf source = statusFor (.ok (scan source)) := by
  rw [Program.statusOf, Scanned.isFaulty, statusFor]
  cases (scan source).diagnostics with
  | nil => rfl
  | cons d ds => rfl

/-- The status tells what came of the scan, and the outputs show it: the display of each token, and
each diagnostic in colours, or else the reason why there is none. -/
structure Told (found : Except LoadError Scanned) (status : Nat) (t : Transcript) : Prop where
  status : status = statusFor found
  shows : t.Shows (printedOf Token.display found)

theorem told_runText (source : Text) :
    Told (.ok (scan source)) (Program.runText source).1 (Program.runText source).2 :=
  ⟨statusOf_eq source, showOutput_shows plainListing_lists source⟩

theorem told_runScript (read : Reader) (path : Text) :
    Told (scanPath read path) (Program.runScript read path).1 (Program.runScript read path).2 := by
  rw [Program.runScript, scanPath]
  cases readSource read path with
  | ok source =>
      have opened : (Transcript.logged
          [.scanningFile path (Text.byteLength source)]).Shows ⟨[], []⟩ :=
        shows_logged (List.forall_mem_singleton.mpr rfl)
      exact ⟨statusOf_eq source, opened.append (showOutput_shows plainListing_lists source)⟩
  | error e => exact ⟨rfl, shows_errorLine e.message⟩

/-- The console that is told of a scan ends up faulty when the scan is. -/
theorem Console.isFaulty_tellAll (ds : List Diagnostic) :
    (Console.empty.tellAll ds).isFaulty = !ds.isEmpty := by
  rw [Console.tellAll, Console.foldl_report]
  simp [Console.isFaulty, Console.empty]

/-- The command ends as it was found, with its history untouched, and logs only when it is asked to. -/
structure Ended (s : Surroundings) (found : Except LoadError Scanned) (e : Ending) : Prop where
  told : Told found e.status e.transcript
  history : e.historyPlace = s.historyPlace
  quiet : s.logFilter = none → e.transcript.log = []

theorem ended_script {arguments : List Text} {path : Text}
    (asked : Arguments.parse arguments = .request ⟨some path, none, false⟩) (s : Surroundings) :
    Ended s (scanPath s.read path) (Program.run s arguments) := by
  obtain ⟨status, shows⟩ := told_runScript s.read path
  rw [Program.run, asked]
  constructor
  case told =>
    refine ⟨status, shows.stdout, shows.stderr, ?_⟩
    intro e member
    exact shows.log e (List.mem_filter.mp member).1
  case history => rfl
  case quiet =>
    intro noFilter
    refine List.filter_eq_nil_iff.mpr ?_
    intro e member
    have standard : Log.Filter.choose s.logFilter false = Log.Filter.standard false := by
      rw [noFilter]
      rfl
    rw [standard, not_passes_standard (shows.log e member)]
    exact Bool.false_ne_true

/-! All ways together. -/

/-- What a path leads to: the scan of the text in the file, or the reason why there is none. -/
inductive Decided (read : Reader) (path : Text) : Except LoadError Scanned → Prop
  | scanned {bytes : ByteArray} {source : Text} (content : read path = .ok bytes)
      (text : Text.decode? bytes = some source) : Decided read path (.ok (scan source))
  | unreadable {cause : FileError} (failure : read path = .error cause) :
      Decided read path (.error ⟨path, cause⟩)
  | noText {bytes : ByteArray} (content : read path = .ok bytes)
      (invalid : Text.decode? bytes = none) : Decided read path (.error ⟨path, .notUtf8⟩)

theorem decided (read : Reader) (path : Text) : Decided read path (scanPath read path) := by
  rw [scanPath, readSource]
  cases content : read path with
  | error cause => exact .unreadable content
  | ok bytes =>
      cases text : Text.decode? bytes with
      | none =>
          simp only [text]
          exact .noText content text
      | some source =>
          simp only [text]
          exact .scanned content text

/-- Every way to have a file scanned finds the same. -/
structure EveryWay (read : Reader) (path : Text) (found : Except LoadError Scanned) : Prop where
  alone : scanPath read path = found
  message (e : LoadError) : found = .error e →
    e.message = "Failed to read ".toList ++ path ++ ": ".toList ++ e.cause.message
  amongOthers (paths : List Text) (arrival : List Nat) (i : Nat) :
    paths[i]? = some path → (∀ j < paths.length, j ∈ arrival) →
      (scanPaths read paths arrival)[i]? = some found
  script (s : Surroundings) : s.read = read → s.outputFull = false →
    Arguments.isOption path = false → Ended s found (Program.run s [path])
  behindDashes (s : Surroundings) : s.read = read → s.outputFull = false →
    Ended s found (Program.run s ["--".toList, path])
  loaded : Text.trim path = path →
    (Session.respond read (.line (".load ".toList ++ path))).Shows
      (printedOf (fun t => t.styled.paint) found)

theorem everyWay (read : Reader) {path : Text} (nonempty : path ≠ []) :
    EveryWay read path (scanPath read path) := by
  constructor
  case alone => rfl
  case message =>
    intro e failed
    have why := decided read path
    rw [failed] at why
    cases why <;> rfl
  case amongOthers =>
    intro paths arrival i here all
    rw [scanPaths, runJobs_eq_map _ _ all, List.getElem?_map, here]
    rfl
  case script =>
    rintro s rfl _ isWord
    exact ended_script (Arguments.parse_path nonempty isWord) s
  case behindDashes =>
    rintro s rfl _
    exact ended_script (Arguments.parse_dashes_path nonempty) s
  case loaded =>
    intro trimmed
    have shows := Session.respond_shows read (.line (".load ".toList ++ path))
    rw [Session.printedFor_command (parse?_load nonempty trimmed)] at shows
    exact shows

/-- A text on the command line and a file that holds it are told of alike, and faulty is what makes
the console faulty that is told. A path leads either to a text or nowhere, and every way that leads
through it finds just that. -/
theorem entry_points_agree (read : Reader) {path : Text} (nonempty : path ≠ []) :
    (∀ source,
      let found : Except LoadError Scanned := .ok (scan source)
      let console := Console.empty.tellAll (scan source).diagnostics
      Told found (Program.runText source).1 (Program.runText source).2 ∧
        (Program.runText source).1 =
          (if console.isFaulty then Program.faultyStatus else Program.success) ∧
        (read path = .ok (Text.encode source) →
          Told found (Program.runScript read path).1 (Program.runScript read path).2)) ∧
    ∃ found, Decided read path found ∧ EveryWay read path found := by
  constructor
  · intro source found console
    refine ⟨told_runText source, ?_, ?_⟩
    · rw [Console.isFaulty_tellAll]
      rfl
    · intro content
      have scanned : scanPath read path = found := by
        rw [scanPath, readSource, content]
        simp only [Text.decode?_encode]
        rfl
      rw [← scanned]
      exact told_runScript read path
  · exact ⟨scanPath read path, decided read path, everyWay read nonempty⟩

/-- One faulty file, for the command and inside a session. -/
theorem entry_points_agree_on_faulty_file :
    let source := "@".toList
    let path := "a.lox".toList
    let read : Reader := fun _ => .ok (Text.encode source)
    let s : Surroundings := ⟨read, ByteArray.empty, [], .missing, none, none, false⟩
    let reported : Text :=
      ["\x1b[2m[line 1]\x1b[0m ", "\x1b[1m\x1b[31mError\x1b[39m\x1b[0m: ",
        "Unexpected character: @\n"].flatMap String.toList
    let ending := Program.run s [path]
    let answer := Session.respond read (.line (".load ".toList ++ path))
    path ≠ [] ∧ EveryWay read path (.ok (scan source)) ∧
      (ending.status = 65 ∧ ending.transcript.stdout = "Eof \n".toList ∧
        ending.transcript.stderr = reported) ∧
      ((Program.runText source).1 = 65 ∧ (Program.runText source).2.stdout = "Eof \n".toList ∧
        (Program.runText source).2.stderr = reported) ∧
      answer.stdout = "\x1b[36mEof\x1b[39m \n".toList ∧ answer.stderr = reported := by
  intro source path read s reported ending answer
  have nonempty : path ≠ [] := List.cons_ne_nil _ _
  obtain ⟨texts, found, _, every⟩ := entry_points_agree read nonempty
  obtain ⟨eval, _⟩ := texts source
  have scanned : found = .ok (scan source) := by
    rw [← every.alone, scanPath, readSource]
    simp only [read, Text.decode?_encode]
    rfl
  rw [scanned] at every
  have faulty : statusFor (.ok (scan source)) = 65 := by decide +kernel
  have stdout : (printedOf Token.display (.ok (scan source))).stdout = "Eof \n".toList := by
    decide +kernel
  have stderr (shown : Token → Text) : (printedOf shown (.ok (scan source))).stderr = reported := by
    change (scan source).diagnostics.flatMap (fun d => d.styled.paint ++ ['\n']) = reported
    decide +kernel
  have loaded : (printedOf (fun t => t.styled.paint) (.ok (scan source))).stdout =
      "\x1b[36mEof\x1b[39m \n".toList := by decide +kernel
  have script := (every.script s rfl rfl rfl).told
  have answered := every.loaded rfl
  refine ⟨nonempty, every, ⟨?_, ?_, ?_⟩, ⟨?_, ?_, ?_⟩, ?_, ?_⟩
  · exact script.status.trans faulty
  · exact script.shows.stdout.trans stdout
  · exact script.shows.stderr.trans (stderr Token.display)
  · exact eval.status.trans faulty
  · exact eval.shows.stdout.trans stdout
  · exact eval.shows.stderr.trans (stderr Token.display)
  · exact answered.stdout.trans loaded
  · exact answered.stderr.trans (stderr fun t => t.styled.paint)

/-- A file whose name begins with a dash is scanned by itself, but given to the command it is an
option that the command does not know. -/
theorem dash_path_is_no_script :
    let source := "1".toList
    let path := "-x".toList
    let read : Reader := fun _ => .ok (Text.encode source)
    let s : Surroundings := ⟨read, ByteArray.empty, [], .missing, none, none, false⟩
    let ending := Program.run s [path]
    path ≠ [] ∧ '\x00' ∉ path ∧ scanPath s.read path = .ok (scan source) ∧
      (statusFor (scanPath s.read path) = 0 ∧
        (printedOf Token.display (scanPath s.read path)).stdout =
          "Number 1 1.0\nEof \n".toList) ∧
      ending.status = 64 ∧ ending.transcript.stdout = [] := by
  intro source path read s ending
  have scanned : scanPath s.read path = .ok (scan source) := by
    rw [scanPath, readSource]
    simp only [s, read, Text.decode?_encode]
    rfl
  have clean : statusFor (.ok (scan source)) = 0 := by decide +kernel
  have listed : (printedOf Token.display (.ok (scan source))).stdout =
      "Number 1 1.0\nEof \n".toList := by decide +kernel
  refine ⟨by decide, by decide, scanned, ?_, rfl, rfl⟩
  rw [scanned]
  exact ⟨clean, listed⟩

end LoxLexer

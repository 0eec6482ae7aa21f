import LoxLexer.Program
import LoxLexer.Proofs.Printed

/-!
# The entries of a session

A session answers one outcome after the other, up to the first that stops it. What is printed for an
outcome depends on nothing before it, and what comes behind the end is never heard
(`session_accounted`). On its way out a session saves the history once, whichever way it goes. Files
are read by one reader throughout; a file that changes between two entries is not spoken of.
-/

namespace LoxLexer

/-- Nothing is left of a text only if there was nothing but blanks in it. -/
theorem Text.trim_eq_nil_iff {t : Text} : trim t = [] ↔ allBlank t := by
  rw [allBlank, List.all_eq_true]
  constructor
  · intro nothing
    have inside : ∀ c ∈ t.dropWhile isBlank, isBlank c := by
      have dropped := List.dropWhile_eq_nil_iff.mp (List.reverse_eq_nil_iff.mp nothing)
      intro c hc
      exact dropped c (List.mem_reverse.mpr hc)
    have stop := List.head?_dropWhile_not isBlank t
    refine List.dropWhile_eq_nil_iff.mp ?_
    cases h : t.dropWhile isBlank with
    | nil => rfl
    | cons c rest =>
        have blank := inside c (h ▸ List.mem_cons_self)
        simp [h, blank] at stop
  · intro blank
    have start : trimStart t = [] := List.dropWhile_eq_nil_iff.mpr blank
    rw [trim, start]
    rfl

namespace Session

/-- What is said of a file that has to be named. -/
def pathWanted : Text :=
  alarm ((Style.colored .cyan).paint ".load".toList ++
    ' ' :: Style.dimmed.paint "requires a file path".toList)

/-- A mark in dim letters, on a line of its own. -/
def mark (t : Text) : Text := Style.dimmed.paint t ++ ['\n']

/-- What is printed for a command by itself. -/
def printedForCommand (read : Reader) : Command → Printed
  | ⟨.help, _⟩ => ⟨help, []⟩
  | ⟨.exit, _⟩ => ⟨[], []⟩
  | ⟨.clear, _⟩ => ⟨clearScreen, []⟩
  | ⟨.version, _⟩ => ⟨version, []⟩
  | ⟨.load, some path⟩ => printedOf (fun t => t.styled.paint) (scanPath read path)
  | ⟨.load, none⟩ => ⟨[], pathWanted⟩

/-- What is printed for an outcome by itself. -/
def printedFor (read : Reader) : Outcome → Printed
  | .line text =>
      if Text.trim text = [] then ⟨[], []⟩
      else
        match Command.parse? text with
        | some c => printedForCommand read c
        | none => (scan text).printed fun t => t.styled.paint
  | .interrupt => ⟨mark "^C".toList, []⟩
  | .endOfInput => ⟨mark "^D".toList, []⟩
  | .failure f => ⟨[], alarm f.description⟩

theorem printedFor_command {text : Text} {c : Command} (command : Command.parse? text = some c)
    (read : Reader) : printedFor read (.line text) = printedForCommand read c := by
  have notBlank : Text.trim text ≠ [] := by
    intro blank
    rw [Command.parse?, blank] at command
    cases command
  rw [printedFor, if_neg notBlank, command]

/-- The session stops at the end of the input, where the input cannot be read, and at the command to
exit. -/
inductive Stops : Outcome → Prop
  | endOfInput : Stops .endOfInput
  | failure (f : InputFailure) : Stops (.failure f)
  | exit {text : Text} {argument : Option Text}
      (command : Command.parse? text = some ⟨.exit, argument⟩) : Stops (.line text)

theorem endsWith_iff {o : Outcome} : endsWith o ↔ Stops o := by
  cases o with
  | line text =>
      rw [endsWith, Option.any_eq_true]
      constructor
      · rintro ⟨⟨name, argument⟩, found, exit⟩
        obtain rfl : name = .exit := by simpa using exit
        exact .exit found
      · rintro ⟨⟩
        rename_i argument found
        exact ⟨_, found, rfl⟩
  | interrupt => exact iff_of_false Bool.false_ne_true nofun
  | endOfInput => exact iff_of_true rfl .endOfInput
  | failure f => exact iff_of_true rfl (.failure f)

/-! What is printed. -/

theorem shows_mark (t : Text) :
    (Transcript.output (Styled.line [(.dimmed, t)])).Shows ⟨mark t, []⟩ := by
  have line : Styled.line [(.dimmed, t)] = mark t := by simp [Styled.line, Styled.paint, mark]
  rw [line]
  exact shows_output (mark t)

theorem missingPath_eq : missingPath = pathWanted := by
  simp [missingPath, pathWanted, alarm, errorWord, Styled.line, Styled.paint, Style.paint,
    Style.opening, Style.closing]

theorem perform_shows (read : Reader) (c : Command) :
    (perform read c).Shows (printedForCommand read c) := by
  obtain ⟨name, argument⟩ := c
  cases name with
  | help => exact shows_output help
  | exit => exact shows_output []
  | clear => exact shows_output clearScreen
  | version => exact shows_output version
  | load =>
      cases argument with
      | none =>
          rw [perform, missingPath_eq]
          exact shows_errors pathWanted
      | some path => exact showFile_shows read path

theorem respond_shows (read : Reader) (o : Outcome) :
    (respond read o).Shows (printedFor read o) := by
  cases o with
  | line text =>
      by_cases blank : Text.trim text = []
      · have allBlank := Text.trim_eq_nil_iff.mp blank
        rw [respond, if_pos allBlank, printedFor, if_pos blank]
        exact shows_output []
      · have notBlank := (not_congr Text.trim_eq_nil_iff).mp blank
        rw [respond, if_neg notBlank, printedFor, if_neg blank]
        cases Command.parse? text with
        | some c => exact perform_shows read c
        | none => exact listEntry_shows text
  | interrupt => exact shows_mark "^C".toList
  | endOfInput => exact shows_mark "^D".toList
  | failure f => exact shows_errorLine f.description

/-! What is heard. Behind the last outcome the input has come to its end. -/

/-- The outcomes before the first that stops the session, and that one. -/
theorem exists_stop (outcomes : List Outcome) :
    ∃ earlier last later, outcomes ++ [.endOfInput] = earlier ++ last :: later ∧
      (∀ o ∈ earlier, ¬ Stops o) ∧ Stops last := by
  induction outcomes with
  | nil => exact ⟨[], .endOfInput, [], rfl, List.forall_mem_nil _, .endOfInput⟩
  | cons o outcomes ih =>
      by_cases stops : Stops o
      · exact ⟨[], o, outcomes ++ [.endOfInput], rfl, List.forall_mem_nil _, stops⟩
      · obtain ⟨earlier, last, later, whole, before, atLast⟩ := ih
        refine ⟨o :: earlier, last, later, ?_, List.forall_mem_cons.mpr ⟨stops, before⟩, atLast⟩
        rw [List.cons_append, whole, List.cons_append]

section Heard
variable {outcomes earlier later : List Outcome} {last : Outcome}

theorem heard_of_stop (whole : outcomes ++ [.endOfInput] = earlier ++ last :: later)
    (before : ∀ o ∈ earlier, ¬ Stops o) (atLast : Stops last) :
    heard outcomes = earlier ++ [last] := by
  induction earlier generalizing outcomes with
  | nil =>
      cases outcomes with
      | nil =>
          obtain ⟨rfl, _⟩ := List.cons.inj whole
          rfl
      | cons o outcomes =>
          obtain ⟨rfl, _⟩ := List.cons.inj whole
          exact if_pos (endsWith_iff.mpr atLast)
  | cons first earlier ih =>
      obtain ⟨goesOn, others⟩ := List.forall_mem_cons.mp before
      cases outcomes with
      | nil =>
          obtain ⟨rfl, _⟩ := List.cons.inj whole
          exact absurd .endOfInput goesOn
      | cons o outcomes =>
          obtain ⟨rfl, behind⟩ := List.cons.inj whole
          rw [heard, if_neg (mt endsWith_iff.mp goesOn), ih behind others]
          rfl

/-- What is heard tells which outcome stopped the session, and which came before. -/
theorem eq_of_heard (whole : outcomes ++ [.endOfInput] = earlier ++ last :: later)
    (before : ∀ o ∈ earlier, ¬ Stops o) (atLast : Stops last) {front : List Outcome}
    {stop : Outcome} (hears : heard outcomes = front ++ [stop]) :
    earlier = front ∧ last = stop := by
  have same : earlier ++ [last] = front ++ [stop] :=
    (heard_of_stop whole before atLast).symm.trans hears
  obtain ⟨fronts, stops⟩ := List.append_inj' same rfl
  exact ⟨fronts, List.singleton_inj.mp stops⟩

end Heard

/-- Lines that are entered at a terminal go into the history, up to and with the last one heard. -/
theorem history_converse (read : Reader) (atTerminal : Bool) (h : History)
    (outcomes : List Outcome) : (converse read atTerminal h outcomes).1 =
      if atTerminal then (heard outcomes).foldl note h else h := by
  induction outcomes generalizing h with
  | nil => cases atTerminal <;> rfl
  | cons o outcomes ih =>
      rw [converse, heard]
      by_cases ends : endsWith o
      · rw [if_pos ends, if_pos ends]
        cases atTerminal <;> rfl
      · rw [if_neg ends, if_neg ends]
        cases atTerminal with
        | true => exact ih (note h o)
        | false => exact ih h

/-- A session hears nothing but what it hears. -/
theorem converse_heard (read : Reader) (atTerminal : Bool) (h : History)
    (outcomes : List Outcome) : converse read atTerminal h outcomes =
      (if atTerminal then (heard outcomes).foldl note h else h,
        (heard outcomes).map (respond read)) :=
  Prod.ext (history_converse read atTerminal h outcomes)
    (answers_converse read atTerminal h outcomes)

/-! The whole session. -/

/-- What the end of the input leaves on the output. -/
def endMark : Outcome → Text
  | .endOfInput => mark "^D".toList
  | _ => []

/-- What a failure of the input leaves on the error output. -/
def complaint : Outcome → Text
  | .failure f => alarm f.description
  | _ => []

theorem printedFor_of_stops {o : Outcome} (stops : Stops o) (read : Reader) :
    printedFor read o = ⟨endMark o, complaint o⟩ := by
  cases stops with
  | endOfInput => rfl
  | failure f => rfl
  | exit command => exact printedFor_command command read

/-- A complaint about the saving of the history. -/
def isOfSaving : Log.Event → Bool
  | .historyNotSaved _ => true
  | _ => false

/-- The account of a session that answers the earlier outcomes and stops at the last one. The history
is saved at one point, the last but for the goodbye, so what is logged about saving is logged there.
-/
structure Accounted (read : Reader) (atTerminal : Bool) (found : HistoryPlace)
    (earlier : List Outcome) (last : Outcome) (course : Course) : Prop where
  stdout : course.transcript.stdout =
    banner ++ earlier.flatMap (fun o => (printedFor read o).stdout) ++ endMark last ++ goodbye
  stderr : course.transcript.stderr =
    earlier.flatMap (fun o => (printedFor read o).stderr) ++ complaint last
  history : course.history =
    if atTerminal then (earlier ++ [last]).foldl note (History.load found).1
    else (History.load found).1
  place : course.place = (course.history.save found).1
  saved : course.transcript.log.filter isOfSaving =
    (course.history.save found).2.toList.map .historyNotSaved

section Account
variable (read : Reader) (atTerminal : Bool) (historyPath : Text) (found : HistoryPlace)

theorem run_of_heard {outcomes heardAgain : List Outcome} (same : heard outcomes = heard heardAgain) :
    run read atTerminal historyPath found outcomes =
      run read atTerminal historyPath found heardAgain := by
  rw [run, run, converse_heard, converse_heard, same]

theorem saving_opening : (opening historyPath found).log.filter isOfSaving = [] := by
  refine List.filter_eq_nil_iff.mpr ?_
  intro e member
  rw [opening, Transcript.log_append, Transcript.log_output, List.append_nil, Transcript.log_logged,
    List.mem_append] at member
  rcases member with unreachable | notLoaded
  · split at unreachable
    · obtain rfl := List.mem_singleton.mp unreachable
      exact Bool.false_ne_true
    · cases unreachable
  · obtain ⟨_, _, rfl⟩ := List.mem_map.mp notLoaded
    exact Bool.false_ne_true

theorem saving_closing (h : History) : (closing h found).log.filter isOfSaving =
    (h.save found).2.toList.map .historyNotSaved := by
  rw [closing, Transcript.log_append, Transcript.log_output, List.append_nil, Transcript.log_logged]
  refine List.filter_eq_self.mpr ?_
  intro e member
  obtain ⟨_, _, rfl⟩ := List.mem_map.mp member
  rfl

theorem saving_respond (o : Outcome) : (respond read o).log.filter isOfSaving = [] := by
  refine List.filter_eq_nil_iff.mpr ?_
  intro e member
  have scanning := (respond_shows read o).log e member
  cases e <;> first | exact Bool.false_ne_true | cases scanning

theorem accounted {outcomes earlier : List Outcome} {last : Outcome}
    (hears : heard outcomes = earlier ++ [last]) (stops : Stops last) :
    Accounted read atTerminal found earlier last
      (run read atTerminal historyPath found outcomes) := by
  have course : run read atTerminal historyPath found outcomes =
      let h := if atTerminal then (earlier ++ [last]).foldl note (History.load found).1
        else (History.load found).1
      ⟨opening historyPath found, (earlier ++ [last]).map (respond read), closing h found, h,
        (h.save found).1⟩ := by
    rw [run, converse_heard, hears]
  have shows := respond_shows read
  have atEnd := printedFor_of_stops stops read
  rw [course]
  constructor
  case stdout =>
    simp [Course.transcript, Transcript.stdout_join, List.flatMap_map, opening, closing,
      (shows _).stdout, atEnd]
  case stderr =>
    simp [Course.transcript, Transcript.stderr_join, List.flatMap_map, opening, closing,
      (shows _).stderr, atEnd]
  case history => rfl
  case place => rfl
  case saved =>
    have quiet : (Transcript.join ((earlier ++ [last]).map (respond read))).log.filter isOfSaving =
        [] := by
      rw [Transcript.log_join, List.flatMap_map, List.filter_flatMap]
      exact List.flatMap_eq_nil_iff.mpr fun o _ => saving_respond read o
    rw [Course.transcript, Transcript.log_append, Transcript.log_append, List.filter_append,
      List.filter_append, saving_opening, quiet, saving_closing]
    rfl

end Account

/-- Any run of outcomes has a first one that stops the session, if only the end of the input, and
what comes after it might as well not be there. What is said is the banner, what is printed for each
earlier outcome by itself, and the goodbye. A run of the program without a source and a script is
such a session, with a prompt before each answer if a plain terminal needs it, and succeeds as long
as its output can be written. -/
theorem session_accounted :
    (∀ (read : Reader) (atTerminal : Bool) (historyPath : Text) (found : HistoryPlace)
      (outcomes : List Outcome),
      ∃ earlier last later, outcomes ++ [.endOfInput] = earlier ++ last :: later ∧
        (∀ o ∈ earlier, ¬ Stops o) ∧ Stops last ∧
        let course := run read atTerminal historyPath found outcomes
        course = run read atTerminal historyPath found (earlier ++ [last]) ∧
          Accounted read atTerminal found earlier last course) ∧
    ∀ (s : Surroundings) (verbose : Bool), s.outputFull = false →
      let course := run s.read false s.historyPath s.historyPlace (Program.outcomesOf s.input)
      let prompt := if s.terminalName.any Program.isPlainTerminal then Session.prompt else []
      let ending := Program.runRequest s ⟨none, none, verbose⟩
      ending.status = 0 ∧ ending.historyPlace = course.place ∧
        ending.transcript.stderr = course.transcript.stderr ∧
        ending.transcript.stdout = course.opening.stdout ++
          course.answers.flatMap (fun answer => prompt ++ answer.stdout) ++
          course.closing.stdout := by
  constructor
  · intro read atTerminal historyPath found outcomes
    obtain ⟨earlier, last, later, whole, before, atLast⟩ := exists_stop outcomes
    have hears := heard_of_stop whole before atLast
    have alone : heard (earlier ++ [last]) = earlier ++ [last] :=
      heard_of_stop (List.append_assoc _ _ _) before atLast
    refine ⟨earlier, last, later, whole, before, atLast, ?_, ?_⟩
    · exact run_of_heard read atTerminal historyPath found (hears.trans alone.symm)
    · exact accounted read atTerminal historyPath found hears atLast
  · intro s verbose _ course prompt ending
    refine ⟨rfl, rfl, ?_, ?_⟩
    · change (Program.runSession s).transcript.stderr = course.transcript.stderr
      simp [Course.transcript, Program.runSession, course, Transcript.stderr_join,
        List.flatMap_map]
    · change (Program.runSession s).transcript.stdout = _
      simp [Course.transcript, Program.runSession, course, prompt, Transcript.stdout_join,
        List.flatMap_map]

/-- Three sessions, ended by the end of the input, by a command and by a failure, and a run of the
program over an input whose second line is not UTF-8. Each faulty entry counts its lines from one.
-/
theorem sessions_of_each_kind :
    let read : Reader := fun path =>
      if path = "a.lox".toList then .ok (Text.encode "\n@".toList) else .error .notFound
    let said (outcomes : List Outcome) := (run read true [] .missing outcomes).transcript
    let greeting : Text :=
      ["\n",
        "  \x1b[1m\x1b[37mLox Scanner\x1b[39m\x1b[0m", " \x1b[2mv\x1b[0m \x1b[93m0.1.0\x1b[39m\n",
        "  \x1b[2mEach entry is scanned and its tokens listed\x1b[0m\n",
        "\n",
        "  \x1b[2mType\x1b[0m \x1b[36m.help\x1b[39m", " \x1b[2mfor available commands\x1b[0m\n",
        "\n"].flatMap String.toList
    let error := "\x1b[1m\x1b[31mError\x1b[39m\x1b[0m: "
    let farewell : Text := "\n\x1b[96mGoodbye!\x1b[39m\n\n".toList
    let mixed : List Outcome :=
      [.line "1 @".toList, .line " ".toList, .interrupt, .line ".V".toList, .line ".cls".toList,
        .line ".load".toList, .line ".load a.lox".toList, .line ".load b.lox".toList,
        .line "\"a\" @".toList]
    let left : List Outcome := [.line ".help".toList, .line ".quit".toList, .line "@".toList]
    let broken : List Outcome := [.failure (.other "lost".toList), .line "@".toList]
    let s : Surroundings :=
      ⟨read, Text.encode "var\n".toList ++ ⟨#[255, 10, 49, 10]⟩, [], .missing, none, none, false⟩
    let ending := Program.runRequest s ⟨none, none, false⟩
    (said mixed).stdout =
      greeting ++
      ["\x1b[36mNumber\x1b[39m \x1b[33m1\x1b[39m \x1b[2m1.0\x1b[0m\n",
        "\x1b[36mEof\x1b[39m \n",
        "\x1b[2m^C\x1b[0m\n",
        "\n\x1b[1m\x1b[96mLox\x1b[39m\x1b[0m: \x1b[33m0.1.0\x1b[39m\n\n",
        "\x1b[2J\x1b[H",
        "\x1b[36mEof\x1b[39m \n",
        "\x1b[36mString\x1b[39m \x1b[32m\"a\"\x1b[39m \x1b[2ma\x1b[0m\n",
        "\x1b[36mEof\x1b[39m \n",
        "\x1b[2m^D\x1b[0m\n"].flatMap String.toList ++
      farewell ∧
    (said mixed).stderr =
      ["\x1b[2m[line 1]\x1b[0m ", error, "Unexpected character: @\n",
        error, "\x1b[36m.load\x1b[39m \x1b[2mrequires a file path\x1b[0m\n",
        "\x1b[2m[line 2]\x1b[0m ", error, "Unexpected character: @\n",
        error, "Failed to read b.lox: ", "No such file or directory (os error 2)\n",
        "\x1b[2m[line 1]\x1b[0m ", error, "Unexpected character: @\n"].flatMap String.toList ∧
    (said left).stdout =
      greeting ++
      ["\n\x1b[1m\x1b[37mREPL Commands:\x1b[39m\x1b[0m\n\n",
        "  \x1b[36m.help           \x1b[39m", " \x1b[2mShow this help message\x1b[0m\n",
        "  \x1b[36m.exit           \x1b[39m", " \x1b[2mExit the REPL\x1b[0m\n",
        "  \x1b[36m.clear          \x1b[39m", " \x1b[2mClear the screen\x1b[0m\n",
        "  \x1b[36m.version        \x1b[39m", " \x1b[2mShow version information\x1b[0m\n",
        "  \x1b[36m.load <file>    \x1b[39m",
        " \x1b[2mScan a Lox file and list its tokens\x1b[0m\n",
        "\n\x1b[1m\x1b[37mKeyboard Shortcuts:\x1b[39m\x1b[0m\n\n",
        "  \x1b[33mCtrl+C          \x1b[39m", " \x1b[2mCancel current input\x1b[0m\n",
        "  \x1b[33mCtrl+D          \x1b[39m", " \x1b[2mExit REPL\x1b[0m\n",
        "  \x1b[33mCtrl+L          \x1b[39m", " \x1b[2mClear screen\x1b[0m\n",
        "  \x1b[33mTab             \x1b[39m", " \x1b[2mAutocomplete\x1b[0m\n",
        "  \x1b[33m↑/↓             \x1b[39m", " \x1b[2mNavigate history\x1b[0m\n",
        "\n"].flatMap String.toList ++
      farewell ∧
    (said left).stderr = [] ∧
    (said broken).stdout = greeting ++ farewell ∧
    (said broken).stderr =
      [error, "Io(Custom \x7b kind: Other, error: \"lost\" \x7d)\n"].flatMap String.toList ∧
    ending.status = 0 ∧
    ending.transcript.stdout =
      greeting ++
      ["\x1b[36mVar\x1b[39m \x1b[1m\x1b[35mvar\x1b[39m\x1b[0m\n",
        "\x1b[36mEof\x1b[39m \n"].flatMap String.toList ++
      farewell ∧
    ending.transcript.stderr =
      [error, "Io(Error \x7b kind: InvalidData, ",
        "message: \"stream did not contain valid UTF-8\" \x7d)\n"].flatMap String.toList := by
  intro read said greeting error farewell mixed left broken s ending
  obtain ⟨sessions, programs⟩ := session_accounted
  have account : ∀ {outcomes earlier : List Outcome} {last : Outcome},
      heard outcomes = earlier ++ [last] →
        Accounted read true .missing earlier last (run read true [] .missing outcomes) := by
    intro outcomes earlier last hears
    obtain ⟨_, _, _, whole, before, atLast, _, account⟩ :=
      sessions read true [] .missing outcomes
    obtain ⟨rfl, rfl⟩ := eq_of_heard whole before atLast hears
    exact account
  have greeted : banner = greeting := by decide +kernel
  have taken : goodbye = farewell := by decide +kernel
  -- What is the same in all sessions is compared once.
  have between : ∀ {outcomes earlier : List Outcome} {last : Outcome} {shown : Text},
      heard outcomes = earlier ++ [last] →
        earlier.flatMap (fun o => (printedFor read o).stdout) ++ endMark last = shown →
        (said outcomes).stdout = greeting ++ shown ++ farewell := by
    intro outcomes earlier last shown hears same
    rw [(account hears).stdout, greeted, taken, List.append_assoc greeting, same]
  have toTheEnd : heard mixed = mixed ++ [.endOfInput] := by decide +kernel
  have toTheCommand : heard left = [.line ".help".toList] ++ [.line ".quit".toList] := by
    decide +kernel
  have toTheFailure : heard broken = [] ++ [.failure (.other "lost".toList)] := by decide +kernel
  obtain ⟨status, _, stderr, stdout⟩ := programs s false rfl
  refine ⟨?_, ?_, ?_, ?_, ?_, ?_, status, ?_, ?_⟩
  · exact between toTheEnd (by decide +kernel)
  · exact (account toTheEnd).stderr.trans (by decide +kernel)
  · exact between toTheCommand (by decide +kernel)
  · exact (account toTheCommand).stderr.trans (by decide +kernel)
  · have printed : (said broken).stdout = greeting ++ [] ++ farewell :=
      between toTheFailure (by decide +kernel)
    rw [printed, List.append_nil]
  · exact (account toTheFailure).stderr.trans (by decide +kernel)
  · rw [← greeted, ← taken]
    exact stdout.trans (congrArg (fun shown => banner ++ shown ++ goodbye) (by decide +kernel))
  · exact stderr.trans (by decide +kernel)

end Session

end LoxLexer

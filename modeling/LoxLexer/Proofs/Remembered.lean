import Mathlib.Data.List.Destutter
import Mathlib.Data.List.DropRight
import LoxLexer.Proofs.Fit
import LoxLexer.Proofs.Persistence

/-!
# What a session remembers

Entries come in one by one, each compared with the last entry, and the oldest goes when there is no
room. What comes of it can be said of all lines at once: those that are no entries are left out, of
each run of equal lines one stays, and of what is left the last thousand (`History.remembered`).
Lines of the file and lines entered in the session count alike (`Session.session_remembers`), so a
run may begin in the file and go on in the session, or go on behind a line that is no entry.
-/

namespace LoxLexer

/-- The file holds these lines, oldest first; there is no file, or all of it can be read. -/
inductive HistoryPlace.Holds : HistoryPlace → List Text → Prop
  | missing : Holds .missing []
  | versioned {content : ByteArray} {lines : List Text}
      (read : Text.lines content = some History.versionLine :: lines.map some) :
      Holds (.file content) (lines.map (History.readEntry true))
  | plain {content : ByteArray} {lines : List Text} (read : Text.lines content = lines.map some)
      (older : lines.head? ≠ some History.versionLine) : Holds (.file content) lines

/-- The file holds these lines, oldest first, and then one that cannot be read. -/
inductive HistoryPlace.TornAfter : HistoryPlace → List Text → Prop
  | versioned {content : ByteArray} {lines : List Text} {rest : List (Option Text)}
      (read : Text.lines content = some History.versionLine :: (lines.map some ++ none :: rest)) :
      TornAfter (.file content) (lines.map (History.readEntry true))
  | plain {content : ByteArray} {lines : List Text} {rest : List (Option Text)}
      (read : Text.lines content = lines.map some ++ none :: rest)
      (older : lines.head? ≠ some History.versionLine) : TornAfter (.file content) lines

namespace History

/-- What is remembered of all the lines: of those that are neither empty nor begin with a blank,
each run of equal ones once, and of these the last that fit. -/
def remembered (lines : List Text) : List Text :=
  ((lines.filter (beginsWith fun c => !isBlank c)).destutter (· ≠ ·)).rtake capacity

theorem beginsWith_iff_isEntry {line : Text} :
    beginsWith (fun c => !isBlank c) line ↔ IsEntry line := by
  cases line with
  | nil => simp [IsEntry]
  | cons c rest => simp [IsEntry]

/-! One line more. -/

section Concat
variable {α : Type}

theorem getLast?_rtake {l : List α} {n : Nat} (room : 0 < n) :
    (l.rtake n).getLast? = l.getLast? := by
  cases l with
  | nil => rw [List.rtake_nil]
  | cons a l =>
      rw [List.rtake, List.getLast?_drop, if_neg]
      simp only [List.length_cons]
      omega

/-- Where there is no room for one more, the oldest goes. -/
theorem rtake_make_room (l : List α) (n : Nat) :
    (if (l.rtake (n + 1)).length = n + 1 then (l.rtake (n + 1)).tail else l.rtake (n + 1)) =
      l.rtake n := by
  have length : (l.rtake (n + 1)).length = l.length - (l.length - (n + 1)) := List.length_drop
  split
  case isTrue full =>
    have one : l.length - (n + 1) + 1 = l.length - n := by omega
    rw [List.rtake, List.tail_drop, one, List.rtake]
  case isFalse room =>
    have none : l.length - (n + 1) = l.length - n := by omega
    rw [List.rtake, none, List.rtake]

variable [DecidableEq α]

theorem destutter'_concat (a b : α) (l : List α) :
    (l ++ [b]).destutter' (· ≠ ·) a =
      if (l.destutter' (· ≠ ·) a).getLast? = some b then l.destutter' (· ≠ ·) a
      else l.destutter' (· ≠ ·) a ++ [b] := by
  induction l generalizing a with
  | nil => by_cases same : a = b <;> simp [same]
  | cons c l ih =>
      rw [List.cons_append]
      by_cases same : a = c
      · rw [List.destutter'_cons_neg _ (not_not.mpr same),
          List.destutter'_cons_neg _ (not_not.mpr same), ih]
      · rw [List.destutter'_cons_pos _ same, List.destutter'_cons_pos _ same, ih,
          List.getLast?_cons_of_ne_nil (List.destutter'_ne_nil _ _)]
        split <;> rfl

/-- A list without repetitions at once takes one member more unless it ends in that member. -/
theorem destutter_concat (l : List α) (b : α) :
    (l ++ [b]).destutter (· ≠ ·) =
      if (l.destutter (· ≠ ·)).getLast? = some b then l.destutter (· ≠ ·)
      else l.destutter (· ≠ ·) ++ [b] := by
  cases l with
  | nil => rfl
  | cons a l => exact destutter'_concat a b l

end Concat

theorem push_rtake (lines : List Text) (line : Text) :
    push (lines.rtake capacity) line = (lines ++ [line]).rtake capacity := by
  obtain ⟨n, room⟩ : ∃ n, capacity = n + 1 := Nat.exists_eq_succ_of_ne_zero (by decide)
  rw [push, room, rtake_make_room, List.rtake_concat_succ]

/-- One line more is remembered as if all were put in anew. -/
theorem entries_add_remembered {h : History} {lines : List Text}
    (sofar : h.entries = remembered lines) (line : Text) :
    (h.add line).entries = remembered (lines ++ [line]) := by
  have last : h.entries.getLast? =
      ((lines.filter (beginsWith fun c => !isBlank c)).destutter (· ≠ ·)).getLast? := by
    rw [sofar, remembered, getLast?_rtake (by decide)]
  rw [remembered, List.filter_append]
  by_cases entry : IsEntry line
  · have kept : [line].filter (beginsWith fun c => !isBlank c) = [line] :=
      List.filter_cons_of_pos (beginsWith_iff_isEntry.mpr entry)
    rw [kept, destutter_concat, ← last]
    by_cases repeated : h.entries.getLast? = some line
    · have notKept : ¬ h.keeps line := fun keeps => (keeps_iff.mp keeps).2 repeated
      rw [add, if_neg notKept, if_pos repeated, sofar, remembered]
    · rw [add, if_pos (keeps_iff.mpr ⟨entry, repeated⟩), if_neg repeated, ← push_rtake, sofar,
        remembered]
  · have dropped : [line].filter (beginsWith fun c => !isBlank c) = [] :=
      List.filter_cons_of_neg (mt beginsWith_iff_isEntry.mp entry)
    have notKept : ¬ h.keeps line := fun keeps => entry (keeps_iff.mp keeps).1
    rw [dropped, List.append_nil, add, if_neg notKept, sofar, remembered]

theorem entries_addAll_remembered {h : History} {before : List Text}
    (sofar : h.entries = remembered before) (lines : List Text) :
    (h.addAll lines).entries = remembered (before ++ lines) := by
  induction lines generalizing h before with
  | nil => rw [List.append_nil, addAll, List.foldl_nil, sofar]
  | cons line lines ih =>
      have later := ih (entries_add_remembered sofar line)
      rw [List.append_assoc] at later
      exact later

theorem entries_addAll_of_empty (lines : List Text) :
    (empty.addAll lines).entries = remembered lines := by
  have nothing : empty.entries = remembered [] := rfl
  exact entries_addAll_remembered nothing lines

/-! The file. -/

section File
variable {content : ByteArray} {lines : List Text}

theorem readFile_behind_version {rest : List (Option Text)}
    (read : Text.lines content = some versionLine :: (lines.map some ++ rest)) :
    readFile content = readLines true (empty.addAll (lines.map (readEntry true))) rest := by
  rw [readFile, read]
  simp only [↓reduceIte, readLines_append]

theorem readFile_older {rest : List (Option Text)}
    (read : Text.lines content = lines.map some ++ rest)
    (older : (Text.lines content).head? ≠ some (some versionLine)) :
    readFile content = readLines false (empty.addAll lines) rest := by
  have asItStands : lines.map (readEntry false) = lines := List.map_id' lines
  have readOn := readLines_append false empty lines rest
  rw [asItStands, ← read] at readOn
  rw [readFile, ← readOn]
  split
  case h_1 line others whole =>
    have notVersion : line ≠ versionLine := by
      rintro rfl
      exact older (congrArg List.head? whole)
    rw [if_neg notVersion, whole, readLines, readLines_step]
    rfl
  case h_2 => rfl

theorem readFile_versioned (read : Text.lines content = some versionLine :: lines.map some) :
    readFile content = ({ empty.addAll (lines.map (readEntry true)) with unsaved := 0 }, none) :=
  readFile_behind_version (read.trans (congrArg _ (List.append_nil _).symm))

theorem readFile_plain (read : Text.lines content = lines.map some)
    (older : lines.head? ≠ some versionLine) :
    readFile content = ({ empty.addAll lines with unsaved := 0 }, none) := by
  refine readFile_older (read.trans (List.append_nil _).symm) ?_
  rw [read, List.head?_map]
  intro version
  obtain ⟨line, first, same⟩ := Option.map_eq_some_iff.mp version
  obtain rfl := Option.some.inj same
  exact older first

end File

/-- The history found is what is remembered of the lines in the file. -/
theorem entries_load_of_holds {found : HistoryPlace} {lines : List Text}
    (holds : found.Holds lines) : (load found).1.entries = remembered lines := by
  cases holds with
  | missing => rfl
  | versioned read =>
      rw [load, readFile_versioned read]
      exact entries_addAll_of_empty _
  | plain read older =>
      rw [load, readFile_plain read older]
      exact entries_addAll_of_empty lines

theorem readable_or_torn (lines : List (Option Text)) :
    ∃ texts : List Text,
      lines = texts.map some ∨ ∃ rest, lines = texts.map some ++ none :: rest := by
  induction lines with
  | nil => exact ⟨[], Or.inl rfl⟩
  | cons line lines ih =>
      cases line with
      | none => exact ⟨[], Or.inr ⟨lines, rfl⟩⟩
      | some line =>
          obtain ⟨texts, rfl | ⟨rest, rfl⟩⟩ := ih
          · exact ⟨line :: texts, Or.inl rfl⟩
          · exact ⟨line :: texts, Or.inr ⟨rest, rfl⟩⟩

/-- A file can be read to its end, or up to a line that cannot be read. -/
theorem holds_or_tornAfter (content : ByteArray) :
    ∃ lines, (HistoryPlace.file content).Holds lines ∨
      (HistoryPlace.file content).TornAfter lines := by
  obtain ⟨texts, read⟩ := readable_or_torn (Text.lines content)
  by_cases version : texts.head? = some versionLine
  · obtain ⟨lines, rfl⟩ := List.head?_eq_some_iff.mp version
    rcases read with read | ⟨rest, read⟩
    · exact ⟨_, Or.inl (.versioned read)⟩
    · exact ⟨_, Or.inr (.versioned read)⟩
  · rcases read with read | ⟨rest, read⟩
    · exact ⟨texts, Or.inl (.plain read version)⟩
    · exact ⟨texts, Or.inr (.plain read version)⟩

/-- What stands before the tear is as if it were entered. -/
theorem load_of_tornAfter {found : HistoryPlace} {lines : List Text}
    (torn : found.TornAfter lines) : load found = (empty.addAll lines, some .notUtf8) := by
  cases torn with
  | versioned read => exact readFile_behind_version read
  | @plain _ lines _ read older =>
      apply readFile_older read
      rw [read]
      intro version
      cases lines with
      | nil => cases version
      | cons line lines => exact older (Option.some.inj version)

/-- The history is loaded without a complaint exactly if all lines of the file can be read. -/
theorem load_clean_iff {found : HistoryPlace} :
    (found = .missing ∨ (load found).2 = none) ↔ ∃ lines, found.Holds lines := by
  constructor
  · rintro (rfl | clean)
    · exact ⟨[], .missing⟩
    · cases found with
      | file content =>
          obtain ⟨lines, holds | torn⟩ := holds_or_tornAfter content
          · exact ⟨lines, holds⟩
          · rw [load_of_tornAfter torn] at clean
            cases clean
      | missing => cases clean
      | directory => cases clean
      | unreachable => cases clean
  · rintro ⟨lines, holds⟩
    cases holds with
    | missing => exact Or.inl rfl
    | versioned read =>
        right
        rw [load, readFile_versioned read]
    | plain read older =>
        right
        rw [load, readFile_plain read older]

end History

/-! The points of a session. -/

namespace Session
open History

/-- The lines entered, in order. -/
def entered (outcomes : List Outcome) : List Text :=
  outcomes.filterMap fun
    | .line text => some text
    | _ => none

/-- The points a session comes to: what has been heard so far, and the history. Nothing is heard
behind an outcome that stops the session. -/
inductive Reached (found : HistoryPlace) : List Outcome → History → Prop
  | opened : Reached found [] (load found).1
  | heard {past : List Outcome} {h : History} (reached : Reached found past h)
      (goesOn : ∀ o ∈ past, ¬ Stops o) (o : Outcome) : Reached found (past ++ [o]) (note h o)

section Reached
variable {found : HistoryPlace} {past : List Outcome} {h : History}

theorem Reached.kept (reached : Reached found past h) : Kept h.entries := by
  induction reached with
  | opened => exact kept_load found
  | heard _ _ o ih => exact kept_note ih o

theorem entries_note_remembered {lines : List Text} (sofar : h.entries = remembered lines)
    (o : Outcome) : (note h o).entries = remembered (lines ++ entered [o]) := by
  cases o with
  | line text => exact entries_add_remembered sofar text
  | interrupt | endOfInput | failure =>
      rw [entered, List.filterMap_cons, List.filterMap_nil, List.append_nil]
      exact sofar

/-- At every point the history is what is remembered of the file and the lines entered so far. -/
theorem Reached.remembers (reached : Reached found past h) {lines : List Text}
    (holds : found.Holds lines) : h.entries = remembered (lines ++ entered past) := by
  induction reached with
  | opened =>
      rw [entered, List.filterMap_nil, List.append_nil]
      exact entries_load_of_holds holds
  | heard _ _ o ih =>
      rw [entered, List.filterMap_append, ← List.append_assoc]
      exact entries_note_remembered ih o

theorem reached_of_goesOn (found : HistoryPlace) (goesOn : ∀ o ∈ past, ¬ Stops o) :
    Reached found past (past.foldl note (load found).1) := by
  induction past using List.reverseRecOn with
  | nil => exact .opened
  | append_singleton past o ih =>
      have before : ∀ o ∈ past, ¬ Stops o := by
        intro o member
        exact goesOn o (List.mem_append_left _ member)
      rw [List.foldl_append]
      exact .heard (ih before) before o

/-- The history at the end is that of the last point. -/
theorem reached_end (read : Reader) (historyPath : Text) (found : HistoryPlace)
    (outcomes : List Outcome) :
    Reached found (heard outcomes) (run read true historyPath found outcomes).history := by
  obtain ⟨earlier, last, later, whole, before, atLast⟩ := exists_stop outcomes
  have hears := heard_of_stop whole before atLast
  have remembered : (run read true historyPath found outcomes).history =
      note (earlier.foldl note (load found).1) last := by
    rw [run, converse_heard, hears]
    simp only [↓reduceIte, List.foldl_append, List.foldl_cons, List.foldl_nil]
  rw [remembered, hears]
  exact .heard (reached_of_goesOn found before) before last

end Reached

/-- A session that has not stopped goes on as one that begins with the history it has come to. -/
theorem converse_append (read : Reader) {past : List Outcome} (goesOn : ∀ o ∈ past, ¬ Stops o)
    (h : History) (coming : List Outcome) :
    converse read true h (past ++ coming) =
      ((converse read true (past.foldl note h) coming).1,
        past.map (respond read) ++ (converse read true (past.foldl note h) coming).2) := by
  induction past generalizing h with
  | nil => rfl
  | cons o past ih =>
      obtain ⟨first, others⟩ := List.forall_mem_cons.mp goesOn
      rw [List.cons_append, converse, if_neg (mt endsWith_iff.mp first)]
      simp only [↓reduceIte, ih others]
      rfl

/-- Where the history is loaded without a complaint, or there is none, what a session remembers at
any of its points is what is remembered of the lines of the file and the lines entered up to there.
It fits, and no entry is empty, begins with a blank or repeats the one before it. These are the
points of a session: at each one that has not stopped it goes on from this history, its end is the
last of them, and so it is with a script at a terminal. -/
theorem session_remembers {found : HistoryPlace}
    (clean : found = .missing ∨ (History.load found).2 = none) :
    (∃ lines, found.Holds lines) ∧
      (∀ lines past h, found.Holds lines → Reached found past h →
        h.entries = remembered (lines ++ entered past)) ∧
      (∀ past h, Reached found past h → Kept h.entries) ∧
      (∀ (read : Reader) (past coming : List Outcome), (∀ o ∈ past, ¬ Stops o) →
        ∃ h, Reached found past h ∧
          converse read true (History.load found).1 (past ++ coming) =
            ((converse read true h coming).1,
              past.map (respond read) ++ (converse read true h coming).2)) ∧
      (∀ (read : Reader) (historyPath : Text) (outcomes : List Outcome),
        Reached found (heard outcomes) (run read true historyPath found outcomes).history) ∧
      ∀ (read : Reader) (historyPath : Text) (script : List Terminal.Step)
        (record : Terminal.Record),
        Terminal.play? read historyPath found script = some record →
          let outcomes := (Terminal.turns script).map Prod.snd
          record.course = run read true historyPath found outcomes ∧
            Reached found (heard outcomes) record.course.history := by
  refine ⟨load_clean_iff.mp clean, ?_, ?_, ?_, ?_, ?_⟩
  · intro lines past h holds reached
    exact reached.remembers holds
  · intro past h reached
    exact reached.kept
  · intro read past coming goesOn
    exact ⟨_, reached_of_goesOn found goesOn, converse_append read goesOn _ coming⟩
  · intro read historyPath outcomes
    exact reached_end read historyPath found outcomes
  · intro read historyPath script record played outcomes
    have course := Terminal.course_of_play? played
    refine ⟨course, ?_⟩
    rw [course]
    exact reached_end read historyPath found outcomes

/-! The last entry of the file is entered again, and once more behind a line that is no entry. What
comes again behind another entry stays, and the line that stops the session is remembered. -/

def shortFile : HistoryPlace := .file (Text.encode "#V2\na\nb\n c\n".toList)

def moreLines : List Outcome :=
  [.line "b".toList, .interrupt, .line " x".toList, .line "b".toList, .line "a".toList,
    .line ".quit".toList, .line "never heard".toList]

theorem shortFile_and_moreLines_remembered :
    let nothing : Reader := fun _ => .error .notFound
    let course := run nothing true [] shortFile moreLines
    (shortFile = .missing ∨ (History.load shortFile).2 = none) ∧
      (∃ lines, shortFile.Holds lines ∧
        course.history.entries = remembered (lines ++ entered (heard moreLines))) ∧
      Kept course.history.entries ∧
      course.history.entries = ["a", "b", "a", ".quit"].map String.toList := by
  intro nothing course
  have clean : shortFile = .missing ∨ (History.load shortFile).2 = none :=
    Or.inr (by decide +kernel)
  obtain ⟨⟨lines, holds⟩, anyPoint, kept, _, atEnd, _⟩ := session_remembers clean
  have reached := atEnd nothing [] moreLines
  refine ⟨clean, ⟨lines, holds, anyPoint _ _ _ holds reached⟩, kept _ _ reached, ?_⟩
  decide +kernel

end Session

end LoxLexer

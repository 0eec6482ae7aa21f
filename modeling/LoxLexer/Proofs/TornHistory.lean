import LoxLexer.Proofs.Remembered

/-!
# Torn history files

A history file is torn if it has an entry and, behind it, a line that is not UTF-8. The history that
is loaded from it ends at this line, and counts what stands before it as unsaved. So a session that
adds nothing leaves the place of the history as it was, unless there is a torn file, which it
replaces by the entries before the tear (`Session.place_of_adding_nothing`). All that stands behind
is lost, though the session had nothing to save.
-/

namespace LoxLexer

/-- There is an entry before the line that cannot be read. -/
def HistoryPlace.Torn (place : HistoryPlace) : Prop :=
  ∃ lines, place.TornAfter lines ∧ ∃ line ∈ lines, History.IsEntry line

namespace History

theorem remembered_eq_nil_iff {lines : List Text} :
    remembered lines = [] ↔ ∀ line ∈ lines, ¬ IsEntry line := by
  rw [remembered]
  cases entries : lines.filter (beginsWith fun c => !isBlank c) with
  | nil =>
      have noEntry := List.filter_eq_nil_iff.mp entries
      simp only [beginsWith_iff_isEntry] at noEntry
      exact iff_of_true rfl noEntry
  | cons first others =>
      have kept : first ∈ lines.filter (beginsWith fun c => !isBlank c) := by
        rw [entries]
        exact List.mem_cons_self
      obtain ⟨member, entry⟩ := List.mem_filter.mp kept
      have isEntry := beginsWith_iff_isEntry.mp entry
      refine iff_of_false ?_ fun noEntry => noEntry first member isEntry
      intro nothing
      have room : 0 < capacity := by decide
      have last := getLast?_rtake (l := (first :: others).destutter (· ≠ ·)) room
      rw [nothing] at last
      exact absurd (List.getLast?_eq_none_iff.mp last.symm) (List.destutter'_ne_nil _ _)

/-- A history to which lines are added one by one has something to write if one of them is an
entry. -/
theorem idle_addAll_iff {lines : List Text} :
    (empty.addAll lines).Idle ↔ ∀ line ∈ lines, ¬ IsEntry line := by
  rw [← remembered_eq_nil_iff, ← entries_addAll_of_empty]
  constructor
  · intro idle
    have nothing := foldl_eq_self_of_idle (fun _ _ => add_eq_self_of_idle) idle
    rw [addAll, nothing]
    rfl
  · exact Or.inl

theorem idle_load_of_holds {found : HistoryPlace} {lines : List Text}
    (holds : found.Holds lines) : (load found).1.Idle := by
  cases holds with
  | missing => exact Or.inl rfl
  | versioned read =>
      rw [load, readFile_versioned read]
      exact Or.inr rfl
  | plain read older =>
      rw [load, readFile_plain read older]
      exact Or.inr rfl

/-- Loading leaves something to write only where the file is torn. -/
theorem idle_load_iff {found : HistoryPlace} : (load found).1.Idle ↔ ¬ found.Torn := by
  constructor
  · rintro idle ⟨lines, torn, line, member, entry⟩
    rw [load_of_tornAfter torn] at idle
    exact idle_addAll_iff.mp idle line member entry
  · intro whole
    cases found with
    | file content =>
        obtain ⟨lines, holds | torn⟩ := holds_or_tornAfter content
        · exact idle_load_of_holds holds
        · rw [load_of_tornAfter torn]
          apply idle_addAll_iff.mpr
          intro line member entry
          exact whole ⟨lines, torn, line, member, entry⟩
    | missing => exact Or.inl rfl
    | directory => exact Or.inl rfl
    | unreachable => exact Or.inl rfl

/-- A file that is written is not torn. -/
theorem not_tornAfter_fileText (entries lines : List Text) :
    ¬ (HistoryPlace.file (Text.encode (fileText entries))).TornAfter lines := by
  have readable : none ∉ Text.lines (Text.encode (fileText entries)) := by
    rw [fileText_eq]
    exact Text.none_not_mem_lines_encode (newline_not_mem_fileLines entries)
  intro torn
  cases torn with
  | versioned read => simp [read] at readable
  | plain read older => simp [read] at readable

end History

namespace Session
open History

/-- No line that is heard at a terminal comes into the history that was found. -/
def AddsNothing (atTerminal : Bool) (found : HistoryPlace) (outcomes : List Outcome) : Prop :=
  atTerminal → ∀ text, .line text ∈ heard outcomes → ¬ (History.load found).1.keeps text

theorem foldl_note_eq_self {h : History} {outcomes : List Outcome}
    (nothing : ∀ text, .line text ∈ outcomes → ¬ h.keeps text) : outcomes.foldl note h = h := by
  induction outcomes with
  | nil => rfl
  | cons o outcomes ih =>
      have first : note h o = h := by
        cases o with
        | line text => exact if_neg (nothing text List.mem_cons_self)
        | _ => rfl
      rw [List.foldl_cons, first]
      exact ih fun text later => nothing text (List.mem_cons_of_mem _ later)

section AddsNothing
variable {atTerminal : Bool} {found : HistoryPlace} {outcomes : List Outcome}

/-- Blank lines are not added, nor is anything that is not a line. -/
theorem addsNothing_of_blank (blank : ∀ text, .line text ∈ outcomes → Text.allBlank text) :
    AddsNothing atTerminal found outcomes := by
  intro _ text member keeps
  obtain ⟨earlier, last, later, whole, before, atLast⟩ := exists_stop outcomes
  rw [heard_of_stop whole before atLast] at member
  have entered : .line text ∈ outcomes ++ [.endOfInput] := by
    rw [whole, List.append_cons]
    exact List.mem_append_left later member
  have line : .line text ∈ outcomes := by simpa using entered
  obtain ⟨⟨c, rest, rfl, notBlank⟩, _⟩ := keeps_iff.mp keeps
  have first := List.all_eq_true.mp (blank _ line) c List.mem_cons_self
  rw [notBlank] at first
  cases first

theorem history_of_adding_nothing (read : Reader) (historyPath : Text)
    (nothing : AddsNothing atTerminal found outcomes) :
    (run read atTerminal historyPath found outcomes).history = (History.load found).1 := by
  rw [run, converse_heard]
  cases atTerminal with
  | false => rfl
  | true => exact foldl_note_eq_self (nothing rfl)

end AddsNothing

/-- A session that adds nothing to the history leaves its place as it was, unless there is a torn
file. Such a file is replaced by what is remembered of the lines before the tear. -/
theorem place_of_adding_nothing (read : Reader) {atTerminal : Bool} (historyPath : Text)
    {found : HistoryPlace} {outcomes : List Outcome}
    (nothing : AddsNothing atTerminal found outcomes) :
    let course := run read atTerminal historyPath found outcomes
    (course.place = found ↔ ¬ found.Torn) ∧
      ∀ lines, found.TornAfter lines → found.Torn →
        course.place = .file (Text.encode (fileText (remembered lines))) := by
  intro course
  have place : course.place = ((History.load found).1.save found).1 := by
    rw [← history_of_adding_nothing read historyPath nothing]
    rfl
  have replaced : ∀ lines, found.TornAfter lines → found.Torn →
      course.place = .file (Text.encode (fileText (remembered lines))) := by
    intro lines after torn
    have busy : ¬ (History.load found).1.Idle := fun idle => idle_load_iff.mp idle torn
    have writable : found.Writable := by
      cases after
      all_goals exact .file _
    rw [place, save_of_not_idle busy writable, load_of_tornAfter after, entries_addAll_of_empty]
  refine ⟨⟨?_, ?_⟩, replaced⟩
  · rintro same ⟨lines, after, entry⟩
    have written := replaced lines after ⟨lines, after, entry⟩
    rw [same] at written
    rw [written] at after
    exact not_tornAfter_fileText _ _ after
  · intro whole
    rw [place, save_of_idle (idle_load_iff.mpr whole)]

/-! A file of one entry and a line of one byte that is no UTF-8. -/

def tornFile : HistoryPlace := .file ⟨#[35, 86, 50, 10, 111, 110, 101, 10, 255, 10]⟩

def mendedFile : HistoryPlace := .file (Text.encode "#V2\none\n".toList)

/-- Nothing is entered but blanks and the last entry once more. -/
def idleLines : List Outcome := [.line " \t".toList, .interrupt, .line "one".toList, .endOfInput]

theorem tornFile_replaced :
    let nothing : Reader := fun _ => .error .notFound
    (tornFile.TornAfter ["one".toList] ∧ tornFile.Torn ∧ AddsNothing true tornFile idleLines) ∧
      (run nothing true [] tornFile idleLines).place = mendedFile := by
  intro nothing
  have read : Text.lines ⟨#[35, 86, 50, 10, 111, 110, 101, 10, 255, 10]⟩ =
      some versionLine :: (["one".toList].map some ++ none :: []) := by decide +kernel
  have after : tornFile.TornAfter ["one".toList] := .versioned read
  have entry : IsEntry "one".toList := ⟨'o', "ne".toList, rfl, by decide⟩
  have torn : tornFile.Torn := ⟨_, after, _, List.mem_singleton_self _, entry⟩
  have adds : AddsNothing true tornFile idleLines := by
    have all : heard idleLines = idleLines := by decide +kernel
    intro _ text member
    rw [all] at member
    obtain rfl | rfl : text = " \t".toList ∨ text = "one".toList := by
      simpa [idleLines] using member
    all_goals decide +kernel
  obtain ⟨_, replaced⟩ := place_of_adding_nothing nothing [] adds
  refine ⟨⟨after, torn, adds⟩, ?_⟩
  exact (replaced _ after torn).trans (by decide +kernel)

/-- With no line at all, too, the file is not what it was. -/
theorem tornFile_changed :
    let nothing : Reader := fun _ => .error .notFound
    AddsNothing true tornFile [] ∧ (run nothing true [] tornFile []).place ≠ tornFile := by
  intro nothing
  have blank : ∀ text, Outcome.line text ∈ [] → Text.allBlank text := nofun
  refine ⟨addsNothing_of_blank blank, ?_⟩
  decide +kernel

end Session

end LoxLexer

import Mathlib.Data.List.Chain
import LoxLexer.Terminal
import LoxLexer.Proofs.Entries

/-!
# Sessions to come

What a session remembers at its end is what the next one finds, if the history can be written and no
entry ends in a carriage return (`Session.history_survives`). Either nothing was entered and nothing
is written, or every entry goes through the file and past the rule for new entries once more.
-/

namespace LoxLexer

namespace Text

theorem toList_encode (t : Text) : (encode t).data.toList = t.flatMap String.utf8EncodeChar := by
  rw [encode, String.toUTF8_eq_toByteArray, String.toByteArray_ofList, List.utf8Encode,
    List.data_toByteArray]

/-- An ASCII byte stands for its own character only. -/
theorem eq_of_mem_utf8EncodeChar {b : UInt8} {c a : Char} (code : b.toNat = a.toNat)
    (ascii : a.toNat < 128) (member : b ∈ String.utf8EncodeChar c) : c = a := by
  have oneByte : c.val.toNat ≤ 127 := by
    by_contra beyond
    have high : ∀ b ∈ String.utf8EncodeChar c, 128 ≤ b.toNat := by
      fun_cases String.utf8EncodeChar c with
      | case1 _ inFirst => exact absurd inFirst beyond
      | case2 => simp [UInt8.toNat_ofNat']; omega
      | case3 => simp [UInt8.toNat_ofNat']; omega
      | case4 => simp [UInt8.toNat_ofNat']; omega
    have := high b member
    omega
  rw [String.utf8EncodeChar, if_pos oneByte, List.mem_singleton] at member
  have sameCode : c.toNat = a.toNat := by
    rw [← code, member, UInt8.toNat_ofNat']
    exact (Nat.mod_eq_of_lt (oneByte.trans_lt (by decide))).symm
  exact Char.toNat_inj.mp sameCode

theorem not_mem_encode {t : Text} {a : Char} {b : UInt8} (code : b.toNat = a.toNat)
    (ascii : a.toNat < 128) (h : a ∉ t) : b ∉ (encode t).data.toList := by
  rw [toList_encode]
  intro member
  obtain ⟨c, inText, inBytes⟩ := List.mem_flatMap.mp member
  exact h (eq_of_mem_utf8EncodeChar code ascii inBytes ▸ inText)

/-- A carriage return at the end of a text is the last of its bytes. -/
theorem dropCarriageReturn_concat (front : Text) (c : Char) :
    dropCarriageReturn (encode (front ++ [c])).data.toList =
      if c = '\r' then (encode front).data.toList else (encode (front ++ [c])).data.toList := by
  have bytes : String.utf8EncodeChar c ≠ [] := by
    rw [← List.length_pos_iff, String.length_utf8EncodeChar]
    exact c.utf8Size_pos
  rw [dropCarriageReturn, toList_encode, toList_encode, List.flatMap_append,
    List.flatMap_singleton, List.getLast?_append_of_ne_nil _ bytes]
  by_cases carriageReturn : c = '\r'
  · subst carriageReturn
    have byte : String.utf8EncodeChar '\r' = [13] := rfl
    rw [byte]
    simp
  · rw [if_neg carriageReturn, if_neg]
    intro last
    exact carriageReturn
      (eq_of_mem_utf8EncodeChar (b := 13) rfl (by decide) (List.mem_of_getLast? last))

theorem dropCarriageReturn_encode {t : Text} (h : t.getLast? ≠ some '\r') :
    dropCarriageReturn (encode t).data.toList = (encode t).data.toList := by
  rcases List.eq_nil_or_concat t with rfl | ⟨front, c, rfl⟩
  · rfl
  · rw [List.concat_eq_append, List.getLast?_concat] at h
    rw [List.concat_eq_append, dropCarriageReturn_concat, if_neg]
    rintro rfl
    exact h rfl

/-- Texts without a line end in them are lines of a file. -/
theorem lines_encode_ended {parts : List Text} (inside : ∀ part ∈ parts, '\n' ∉ part) :
    lines (encode (parts.flatMap fun part => part ++ ['\n'])) =
      parts.map fun part => decode? ⟨(dropCarriageReturn (encode part).data.toList).toArray⟩ := by
  have bytes : (encode (parts.flatMap fun part => part ++ ['\n'])).data.toList =
      (parts.map fun part => (encode part).data.toList).flatMap fun line => line ++ [10] := by
    simp only [toList_encode, List.flatMap_assoc, List.flatMap_append, List.flatMap_map]
    rfl
  have noFeed : ∀ line ∈ parts.map fun part => (encode part).data.toList, 10 ∉ line := by
    intro line member
    obtain ⟨part, inParts, rfl⟩ := List.mem_map.mp member
    exact not_mem_encode rfl (by decide) (inside part inParts)
  rw [lines, bytes, splitOn_ended noFeed]
  simp [List.map_map, Function.comp_def]

/-- They are found again unless one ends in a carriage return. -/
theorem lines_encode {parts : List Text} (inside : ∀ part ∈ parts, '\n' ∉ part)
    (ends : ∀ part ∈ parts, part.getLast? ≠ some '\r') :
    lines (encode (parts.flatMap fun part => part ++ ['\n'])) = parts.map some := by
  rw [lines_encode_ended inside]
  refine List.map_congr_left ?_
  intro part inParts
  rw [dropCarriageReturn_encode (ends part inParts), Array.toArray_toList, decode?_encode]

/-- In any case each of them can be read. -/
theorem none_not_mem_lines_encode {parts : List Text} (inside : ∀ part ∈ parts, '\n' ∉ part) :
    none ∉ lines (encode (parts.flatMap fun part => part ++ ['\n'])) := by
  rw [lines_encode_ended inside]
  intro member
  obtain ⟨part, _, unread⟩ := List.mem_map.mp member
  rcases List.eq_nil_or_concat part with rfl | ⟨front, c, rfl⟩
  · cases unread
  · rw [List.concat_eq_append, dropCarriageReturn_concat] at unread
    split at unread
    all_goals
      rw [Array.toArray_toList, decode?_encode] at unread
      cases unread

end Text

/-- A file can be put here. -/
inductive HistoryPlace.Writable : HistoryPlace → Prop
  | missing : Writable .missing
  | file (content : ByteArray) : Writable (.file content)

namespace History

/-- Texts that may be entries begin with a character that is not blank. -/
def IsEntry (line : Text) : Prop := ∃ c rest, line = c :: rest ∧ isBlank c = false

/-- Lists of entries as they come about: all are entries, none is repeated at once, and they fit. -/
structure Kept (entries : List Text) : Prop where
  entry : ∀ e ∈ entries, IsEntry e
  changing : entries.IsChain (· ≠ ·)
  length_le : entries.length ≤ capacity

theorem keeps_iff {h : History} {line : Text} :
    h.keeps line ↔ IsEntry line ∧ h.entries.getLast? ≠ some line := by
  cases line with
  | nil => simp [keeps, IsEntry]
  | cons c rest => simp [keeps, IsEntry]

theorem push_ne_nil (entries : List Text) (line : Text) : push entries line ≠ [] :=
  List.append_ne_nil_of_right_ne_nil _ (List.cons_ne_nil line [])

theorem kept_nil : Kept [] := ⟨List.forall_mem_nil _, List.isChain_nil, Nat.zero_le _⟩

theorem Kept.tail {entries : List Text} (kept : Kept entries) : Kept entries.tail where
  entry e member := kept.entry e (List.mem_of_mem_tail member)
  changing := kept.changing.tail
  length_le := (List.length_tail ▸ Nat.sub_le _ _).trans kept.length_le

theorem Kept.append_singleton {entries : List Text} {line : Text} (kept : Kept entries)
    (room : entries.length < capacity) (entry : IsEntry line)
    (differs : entries.getLast? ≠ some line) : Kept (entries ++ [line]) where
  entry := List.forall_mem_append.mpr ⟨kept.entry, by simpa using entry⟩
  changing := kept.changing.append (List.isChain_singleton line) (by
    rintro last atEnd _ ⟨⟩ rfl
    exact differs atEnd)
  length_le := by rw [List.length_append]; exact room

theorem Kept.push {entries : List Text} {line : Text} (kept : Kept entries) (entry : IsEntry line)
    (differs : entries.getLast? ≠ some line) : Kept (push entries line) := by
  rw [History.push]
  split
  case isTrue full =>
    refine kept.tail.append_singleton ?_ entry ?_
    · rw [List.length_tail, full]
      decide
    · rw [List.getLast?_tail, full]
      exact differs
  case isFalse notFull =>
    exact kept.append_singleton (Nat.lt_of_le_of_ne kept.length_le notFull) entry differs

/-- Whatever is entered, the entries stay in order. -/
theorem Kept.add {h : History} (kept : Kept h.entries) (line : Text) :
    Kept (h.add line).entries := by
  rw [History.add]
  split
  case isTrue keeps =>
    obtain ⟨entry, differs⟩ := keeps_iff.mp keeps
    exact kept.push entry differs
  case isFalse => exact kept

/-- A line that fits behind the entries is entered as it stands. -/
theorem entries_add_of_kept {h : History} {line : Text} (kept : Kept (h.entries ++ [line])) :
    (h.add line).entries = h.entries ++ [line] := by
  have keeps : h.keeps line := by
    refine keeps_iff.mpr ⟨kept.entry line List.mem_concat_self, ?_⟩
    intro last
    exact (List.isChain_append.mp kept.changing).2.2 line last line rfl rfl
  have room : h.entries.length ≠ capacity := by
    have length_le := kept.length_le
    rw [List.length_append, List.length_singleton] at length_le
    omega
  rw [add, if_pos keeps, push, if_neg room]

theorem Kept.front {entries more : List Text} (kept : Kept (entries ++ more)) : Kept entries where
  entry e member := kept.entry e (List.mem_append_left more member)
  changing := kept.changing.left_of_append
  length_le := by
    have length_le := kept.length_le
    rw [List.length_append] at length_le
    omega

/-- A list of entries that is entered line by line is remembered as a whole. -/
theorem entries_addAll_of_kept {h : History} {lines : List Text}
    (kept : Kept (h.entries ++ lines)) : (h.addAll lines).entries = h.entries ++ lines := by
  induction lines generalizing h with
  | nil => exact (List.append_nil _).symm
  | cons line lines ih =>
      rw [← List.singleton_append, ← List.append_assoc] at kept
      have first := entries_add_of_kept kept.front
      rw [← first] at kept
      have rest := ih kept
      rw [first, List.append_assoc] at rest
      exact rest

/-! The file. -/

theorem newline_not_mem_escape (entry : Text) : '\n' ∉ escape entry := by
  intro inside
  obtain ⟨c, _, member⟩ := List.mem_flatMap.mp inside
  split at member
  case isTrue => simp at member
  case isFalse =>
    split at member
    case isTrue => simp at member
    case isFalse notFeed => exact notFeed (List.mem_singleton.mp member).symm

theorem getLast?_escape {entry : Text} (h : entry.getLast? ≠ some '\r') :
    (escape entry).getLast? ≠ some '\r' := by
  rcases List.eq_nil_or_concat entry with rfl | ⟨front, c, rfl⟩
  · exact h
  · rw [List.concat_eq_append, List.getLast?_concat] at h
    rw [List.concat_eq_append, escape, List.flatMap_append, List.flatMap_singleton]
    split
    case isTrue => simp
    case isFalse =>
      split
      case isTrue => simp
      case isFalse => simpa using h

/-- The lines of the file: the version line, and each entry escaped. -/
def fileLines (entries : List Text) : List Text := versionLine :: entries.map escape

theorem fileText_eq (entries : List Text) :
    fileText entries = (fileLines entries).flatMap fun line => line ++ ['\n'] := by
  rw [fileText, fileLines, List.flatMap_cons, List.flatMap_map, List.append_assoc,
    List.singleton_append]

theorem newline_not_mem_fileLines (entries : List Text) :
    ∀ line ∈ fileLines entries, '\n' ∉ line := by
  refine List.forall_mem_cons.mpr ⟨by decide, List.forall_mem_map.mpr fun e _ => ?_⟩
  exact newline_not_mem_escape e

theorem lines_fileText {entries : List Text} (ends : ∀ e ∈ entries, e.getLast? ≠ some '\r') :
    Text.lines (Text.encode (fileText entries)) =
      some versionLine :: (entries.map escape).map some := by
  rw [fileText_eq, Text.lines_encode (newline_not_mem_fileLines entries)]
  · rfl
  · refine List.forall_mem_cons.mpr ⟨by decide, List.forall_mem_map.mpr fun e inside => ?_⟩
    exact getLast?_escape (ends e inside)

theorem readEntry_escape (entry : Text) : readEntry true (escape entry) = entry := by
  rw [readEntry, if_pos rfl, unescape?_escape, Option.getD_some]

theorem readLines_step (versioned : Bool) (h : History) (line : Text) :
    (if line = [] then h else h.add (readEntry versioned line)) =
      h.add (readEntry versioned line) := by
  split
  case isTrue empty =>
    subst empty
    cases versioned <;> rfl
  case isFalse => rfl

/-- As far as a file can be read, it is as if its lines were entered. -/
theorem readLines_append (versioned : Bool) (h : History) (lines : List Text)
    (rest : List (Option Text)) : readLines versioned h (lines.map some ++ rest) =
      readLines versioned (h.addAll (lines.map (readEntry versioned))) rest := by
  induction lines generalizing h with
  | nil => rfl
  | cons line lines ih =>
      rw [List.map_cons, List.cons_append, readLines, readLines_step, ih]
      rfl

theorem readLines_map_some (versioned : Bool) (h : History) (lines : List Text) :
    readLines versioned h (lines.map some) =
      ({ h.addAll (lines.map (readEntry versioned)) with unsaved := 0 }, none) := by
  have read := readLines_append versioned h lines []
  rw [List.append_nil] at read
  exact read

/-- What is written is read again. -/
theorem load_fileText {entries : List Text} (kept : Kept entries)
    (ends : ∀ e ∈ entries, e.getLast? ≠ some '\r') :
    load (.file (Text.encode (fileText entries))) = (⟨entries, 0⟩, none) := by
  have undone : (entries.map escape).map (readEntry true) = entries := by
    rw [List.map_map]
    exact List.map_id'' readEntry_escape entries
  rw [load, readFile, lines_fileText ends]
  simp only [↓reduceIte, readLines_map_some, undone]
  rw [entries_addAll_of_kept (h := empty) kept]
  rfl

theorem kept_readLines {versioned : Bool} {h : History} (kept : Kept h.entries)
    (lines : List (Option Text)) : Kept (readLines versioned h lines).1.entries := by
  induction lines generalizing h with
  | nil => exact kept
  | cons line lines ih =>
      cases line with
      | none => exact kept
      | some line =>
          rw [readLines, readLines_step]
          exact ih (kept.add _)

/-- Whatever is found where the history belongs, its entries are in order. -/
theorem kept_load (place : HistoryPlace) : Kept (load place).1.entries := by
  cases place with
  | file content =>
      rw [load, readFile]
      split
      · split
        · exact kept_readLines kept_nil _
        · exact kept_readLines (kept_nil.add _) _
      · exact kept_readLines kept_nil _
  | _ => exact kept_nil

/-! What is not written. -/

/-- There is nothing to write. -/
def Idle (h : History) : Prop := h.entries = [] ∨ h.unsaved = 0

theorem save_of_idle {h : History} (idle : h.Idle) (place : HistoryPlace) :
    h.save place = (place, none) :=
  if_pos idle

theorem save_of_not_idle {h : History} (busy : ¬ h.Idle) {place : HistoryPlace}
    (writable : place.Writable) :
    h.save place = (.file (Text.encode (fileText h.entries)), none) := by
  cases writable <;> exact if_neg busy

/-- Entering a line leaves something to write, unless it leaves the history as it was. -/
theorem add_eq_self_of_idle {h : History} {line : Text} (idle : (h.add line).Idle) :
    h.add line = h := by
  rw [add] at idle ⊢
  split
  case isTrue keeps =>
    rw [if_pos keeps] at idle
    have entered := push_ne_nil h.entries line
    have unsaved : 0 < min (h.unsaved + 1) (push h.entries line).length :=
      Nat.lt_min.mpr ⟨Nat.succ_pos _, List.length_pos_iff.mpr entered⟩
    rcases idle with none | saved
    · exact absurd none entered
    · exact absurd saved unsaved.ne'
  case isFalse => rfl

/-- So it is with one line after the other, and with anything else that is taken in so. -/
theorem foldl_eq_self_of_idle {α : Type} {take : History → α → History}
    (step : ∀ h a, (take h a).Idle → take h a = h) {h : History} {l : List α}
    (idle : (l.foldl take h).Idle) : l.foldl take h = h := by
  induction l generalizing h with
  | nil => rfl
  | cons a l ih =>
      have later : (a :: l).foldl take h = take h a := ih idle
      rw [later] at idle ⊢
      exact step h a idle

end History

namespace Session
open History

theorem kept_note {h : History} (kept : Kept h.entries) (o : Outcome) :
    Kept (note h o).entries := by
  cases o with
  | line text => exact kept.add text
  | _ => exact kept

theorem note_eq_self_of_idle {h : History} {o : Outcome} (idle : (note h o).Idle) :
    note h o = h := by
  cases o with
  | line text => exact add_eq_self_of_idle idle
  | _ => rfl

theorem kept_foldl_note {h : History} (kept : Kept h.entries) (outcomes : List Outcome) :
    Kept (outcomes.foldl note h).entries := by
  induction outcomes generalizing h with
  | nil => exact kept
  | cons o outcomes ih => exact ih (kept_note kept o)

theorem kept_converse (read : Reader) (atTerminal : Bool) {h : History} (kept : Kept h.entries)
    (outcomes : List Outcome) : Kept (converse read atTerminal h outcomes).1.entries := by
  rw [history_converse]
  cases atTerminal with
  | true => exact kept_foldl_note kept _
  | false => exact kept

theorem converse_eq_self_of_idle {read : Reader} {atTerminal : Bool} {h : History}
    {outcomes : List Outcome} (idle : (converse read atTerminal h outcomes).1.Idle) :
    (converse read atTerminal h outcomes).1 = h := by
  rw [history_converse] at idle ⊢
  cases atTerminal with
  | true => exact foldl_eq_self_of_idle (fun _ _ => note_eq_self_of_idle) idle
  | false => rfl

/-- No entry ends in a carriage return, which the file would take for a part of the line end. -/
def Course.Whole (c : Course) : Prop := ∀ e ∈ c.history.entries, e.getLast? ≠ some '\r'

theorem entries_load_run (read : Reader) (atTerminal : Bool) (historyPath : Text)
    {found : HistoryPlace} (writable : found.Writable) {outcomes : List Outcome}
    (whole : (run read atTerminal historyPath found outcomes).Whole) :
    let course := run read atTerminal historyPath found outcomes
    (History.load course.place).1.entries = course.history.entries := by
  intro course
  have kept : Kept course.history.entries :=
    kept_converse read atTerminal (kept_load found) outcomes
  have place : course.place = (course.history.save found).1 := rfl
  by_cases idle : course.history.Idle
  · have unchanged : course.history = (History.load found).1 := converse_eq_self_of_idle idle
    rw [place, save_of_idle idle, unchanged]
  · rw [place, save_of_not_idle idle writable, load_fileText kept whole]

end Session

theorem Terminal.course_of_play? {read : Reader} {historyPath : Text} {place : HistoryPlace}
    {script : List Step} {record : Record}
    (played : play? read historyPath place script = some record) :
    record.course = Session.run read true historyPath place ((turns script).map Prod.snd) := by
  obtain ⟨turns, _, recorded⟩ := Option.bind_eq_some_iff.mp played
  obtain rfl := Option.some.inj recorded
  rfl

/-- Where the history can be written and no entry ends in a carriage return, the next session finds
the entries that this one remembers at its end, whatever was found at the start, and whether lines
are typed at a terminal or come from elsewhere. -/
theorem Session.history_survives (read : Reader) (historyPath : Text) {found : HistoryPlace}
    (writable : found.Writable) :
    (∀ (atTerminal : Bool) (outcomes : List Outcome),
      let course := run read atTerminal historyPath found outcomes
      course.Whole → (History.load course.place).1.entries = course.history.entries) ∧
    ∀ (script : List Terminal.Step) (record : Terminal.Record),
      Terminal.play? read historyPath found script = some record → record.course.Whole →
        (History.load record.course.place).1.entries = record.course.history.entries := by
  constructor
  · intro atTerminal outcomes course whole
    exact entries_load_run read atTerminal historyPath writable whole
  · intro script record played whole
    rw [Terminal.course_of_play? played] at whole ⊢
    exact entries_load_run read true historyPath writable whole

/-- A carriage return at the end of an entry is lost with the line end. -/
example :
    let place := (History.save ⟨["a\r".toList], 1⟩ .missing).1
    (History.load place).1.entries = ["a".toList] := by
  decide +kernel

/-! Lines with backslashes, a line feed inside, and the text that begins the file; one that begins
with a blank is no entry, and one that is repeated at once is kept once. -/

def typedLines : List Text :=
  ["\\n", "a\\\\nb", "x\ny", "x\ny", " z", "#V2", "\\"].map String.toList

def keptLines : List Text := ["#V1", "\\n", "a\\\\nb", "x\ny", "#V2", "\\"].map String.toList

/-- A file without a version line, of another system. -/
def olderFile : HistoryPlace := .file (Text.encode "#V1\r\n".toList)

theorem Session.typedLines_survive :
    let nothing : Reader := fun _ => .error .notFound
    let script := typedLines.map fun line => Terminal.Step.done (.line line)
    let course := run nothing true [] olderFile (typedLines.map .line)
    (course.history.entries = keptLines ∧ (History.load course.place).1.entries = keptLines) ∧
      ∃ record, Terminal.play? nothing [] olderFile script = some record ∧
        record.course.history.entries = keptLines ∧
        (History.load record.course.place).1.entries = keptLines := by
  intro nothing script course
  have remembered : course.history.entries = keptLines := by decide +kernel
  have recorded : (Terminal.play? nothing [] olderFile script).map
      (fun record => record.course.history.entries) = some keptLines := by decide +kernel
  obtain ⟨record, played, same⟩ := Option.map_eq_some_iff.mp recorded
  have ends : ∀ e ∈ keptLines, e.getLast? ≠ some '\r' := by decide +kernel
  have whole : course.Whole := fun e member => ends e (remembered ▸ member)
  have writable : olderFile.Writable := .file _
  obtain ⟨anyCourse, anyScript⟩ := history_survives nothing [] writable
  refine ⟨⟨remembered, ?_⟩, record, played, same, ?_⟩
  · rw [anyCourse true (typedLines.map .line) whole, remembered]
  · rw [anyScript script record played fun e member => ends e (same ▸ member), same]

end LoxLexer

import LoxLexer.Proofs.Offers

/-!
# Hints

Behind the end of a line the editor shows what the first completion that adds something would
insert, for words of two bytes and more. Completion and hints search the known words each in a way
of its own; they agree (`hint_is_first_completion`). A hint that has been accepted is followed by no
other, since no known word begins another one.
-/

namespace LoxLexer

/-- The search for a hint in the order of the editor: the start of the word first, then the word
from there to the end of the line, then of a known word that is longer what is behind its bytes. -/
def suggestByBytes? (line : Text) (pos : Nat) : Option (Option Text) :=
  if pos < Text.byteLength line then some none
  else do
    let start ← lastWordStart? line pos
    let word ← Text.slice? line start (Text.byteLength line)
    if Text.byteLength word < 2 then some none
    else
      match knownWords.find? fun known =>
          word.isPrefixOf known && Text.byteLength word < Text.byteLength known with
      | none => some none
      | some known => do
          let (_, rest) ← Text.splitAtByte? known (Text.byteLength word)
          some (some rest)

/-- What the first offer that adds something adds. -/
def firstAddition (offers : List Offer) : Option Text :=
  (offers.find? fun offer => offer.remainder ≠ []).map Offer.remainder

/-! The two searches. -/

section Search
variable {word known rest : Text}

/-- Of a word that begins with this one, more bytes are left over than none just if characters are. -/
theorem longer_iff (begins : word <+: known) :
    Text.byteLength word < Text.byteLength known ↔ known.drop word.length ≠ [] := by
  obtain ⟨rest, rfl⟩ := begins
  rw [Text.byteLength_append, List.drop_left]
  constructor
  · rintro longer rfl
    simp at longer
  · intro nonempty
    have := Text.byteLength_pos nonempty
    omega

theorem suggestionFor_eq (word : Text) :
    suggestionFor word =
      if Text.byteLength word < 2 then none else firstAddition (offersFor word) := by
  by_cases short : Text.byteLength word < 2
  · simp only [suggestionFor, if_pos short]
  · have nonempty : word ≠ [] := by
      rintro rfl
      exact short (by decide)
    -- Each known word passes both tests or neither, so the first to pass is the same.
    have same : ∀ known : Text,
        (word.isPrefixOf known && decide (Text.byteLength word < Text.byteLength known)) =
          decide (word.isPrefixOf known = true ∧ decide (known.drop word.length ≠ []) = true) := by
      intro known
      by_cases begins : word.isPrefixOf known = true
      · have longer := longer_iff (List.isPrefixOf_iff_prefix.mp begins)
        simp only [begins, longer, Bool.true_and, true_and, decide_eq_true_eq]
      · simp [begins]
    simp only [suggestionFor, if_neg short, firstAddition, offersFor, if_neg nonempty, same]
    rw [List.find?_map, List.find?_filter, Option.map_map]
    rfl

/-- One byte is completed, but not hinted at. -/
example : offersFor ['w'] = [⟨"while".toList, "hile".toList⟩] ∧ suggestionFor ['w'] = none := by
  decide

/-- A hint is offered too, and makes the word a known one. -/
theorem mem_offersFor_of_suggestionFor (hint : suggestionFor word = some rest) :
    ⟨word ++ rest, rest⟩ ∈ offersFor word := by
  rw [suggestionFor_eq] at hint
  split at hint
  · cases hint
  · obtain ⟨offer, found, rfl⟩ := Option.map_eq_some_iff.mp hint
    have member := List.mem_of_find?_eq_some found
    rw [← (mem_offersFor member).2]
    exact member

/-- No known word begins another one. -/
theorem filter_isPrefixOf_known (isKnown : known ∈ knownWords) :
    (knownWords.filter fun longer => known.isPrefixOf longer) = [known] := by
  have alone : (knownWords.all fun known =>
      decide ((knownWords.filter fun longer => known.isPrefixOf longer) = [known])) = true := by
    decide +kernel
  exact of_decide_eq_true (List.all_eq_true.mp alone known isKnown)

theorem offersFor_known (isKnown : known ∈ knownWords) : offersFor known = [⟨known, []⟩] := by
  have nonempty : known ≠ [] := by
    rintro rfl
    exact absurd isKnown (by decide +kernel)
  simp [offersFor, if_neg nonempty, filter_isPrefixOf_known isKnown]

theorem suggestionFor_known (isKnown : known ∈ knownWords) : suggestionFor known = none := by
  rw [suggestionFor_eq, offersFor_known isKnown]
  split
  · rfl
  · rfl

end Search

/-! The end of a line. -/

section End
variable {line head word rest : Text}

theorem WordAt.suggest? (found : WordAt line (Text.byteLength line) head word []) :
    suggest? line (Text.byteLength line) = some (suggestionFor word) := by
  have last : LoxLexer.lastWord line = word := by
    rw [found.whole, List.append_nil]
    exact lastWord_eq_iff.mpr found.lastWord
  simp only [LoxLexer.suggest?, Nat.lt_irrefl, if_false, if_true, last]

theorem exists_wordAt_end (line : Text) :
    ∃ head word, WordAt line (Text.byteLength line) head word [] := by
  obtain ⟨head, word, rfl, last⟩ := exists_lastWord line
  have found := last.wordAt []
  rw [List.append_nil] at found
  exact ⟨head, word, found⟩

/-- By bytes or by characters, the same is suggested. -/
theorem suggestByBytes?_eq (line : Text) (pos : Nat) :
    suggestByBytes? line pos = suggest? line pos := by
  by_cases before : pos < Text.byteLength line
  · rw [suggestByBytes?, suggest?, if_pos before, if_pos before]
  · by_cases atEnd : pos = Text.byteLength line
    · subst atEnd
      obtain ⟨head, word, found⟩ := exists_wordAt_end line
      rw [found.suggest?, suggestByBytes?, if_neg before, found.start]
      simp only [Option.bind_eq_bind, Option.bind_some, found.between, suggestionFor]
      split
      · rfl
      · cases first : knownWords.find? fun known =>
            word.isPrefixOf known && Text.byteLength word < Text.byteLength known with
        | none => rfl
        | some known =>
            have passed := List.find?_some first
            simp only [Bool.and_eq_true] at passed
            obtain ⟨rest, rfl⟩ := List.isPrefixOf_iff_prefix.mp passed.1
            simp only [Text.splitAtByte?_append, Option.bind_some, Option.map_some, List.drop_left]
    · have noBoundary : ¬ line.IsBoundary pos := by
        intro boundary
        have := boundary.le_byteLength
        omega
      rw [suggestByBytes?, suggest?, if_neg before, if_neg before, if_neg atEnd, lastWordStart?,
        Text.splitAtByte?_eq_none_iff.mpr noBoundary]
      rfl

/-- With the hint put in, the word at the end of the line is a known one. -/
theorem WordAt.accept (found : WordAt line (Text.byteLength line) head word [])
    (hint : suggestionFor word = some rest) :
    word ++ rest ∈ knownWords ∧
      WordAt (line ++ rest) (Text.byteLength (line ++ rest)) head (word ++ rest) [] := by
  have offered := mem_offersFor_of_suggestionFor hint
  have inserted := found.insert offered
  rw [List.append_nil, ← Text.byteLength_append] at inserted
  have whole := found.whole
  rw [List.append_nil] at whole
  rw [← whole] at inserted
  exact ⟨(mem_offersFor offered).1, inserted⟩

end End

/-- Before the end of the line nothing is suggested, and beyond it there is no answer. At the end
the hint is what the first completion of the word there that adds something adds, if the word has two
bytes or more, and it is shown dimmed. Once it is accepted, the word is a known one, for which nothing
is suggested and only itself is offered. -/
theorem hint_is_first_completion (line : Text) (pos : Nat) :
    suggestByBytes? line pos = suggest? line pos ∧
    (pos < Text.byteLength line → suggest? line pos = some none) ∧
    (Text.byteLength line < pos → suggest? line pos = none) ∧
    (pos = Text.byteLength line → ∃ head word offers hint, WordAt line pos head word [] ∧
      complete? line pos = some offers ∧
      suggest? line pos = some hint ∧
      hint = (if Text.byteLength word < 2 then none else firstAddition offers) ∧
      Terminal.event? (.shown line (some pos)) =
        some (.view ⟨highlight line, hint.map Terminal.dimmedHint⟩) ∧
      ∀ rest, hint = some rest →
        word ++ rest ∈ knownWords ∧
        WordAt (line ++ rest) (Text.byteLength (line ++ rest)) head (word ++ rest) [] ∧
        suggest? (line ++ rest) (Text.byteLength (line ++ rest)) = some none ∧
        complete? (line ++ rest) (Text.byteLength (line ++ rest)) = some [⟨word ++ rest, []⟩]) := by
  refine ⟨suggestByBytes?_eq line pos, ?_, ?_, ?_⟩
  · intro before
    rw [suggest?, if_pos before]
  · intro beyond
    rw [suggest?, if_neg (by omega), if_neg (by omega)]
  · rintro rfl
    obtain ⟨head, word, found⟩ := exists_wordAt_end line
    refine ⟨head, word, offersFor word, suggestionFor word, found, found.complete?, found.suggest?,
      suggestionFor_eq word, ?_, ?_⟩
    · rw [Terminal.event?, Terminal.cursor, Option.getD_some, Terminal.view?, found.suggest?]
      rfl
    · intro rest hint
      obtain ⟨isKnown, accepted⟩ := found.accept hint
      refine ⟨isKnown, accepted, ?_, ?_⟩
      · rw [accepted.suggest?, suggestionFor_known isKnown]
      · rw [accepted.complete?, offersFor_known isKnown]

/-- A word behind a character of three bytes that is no word character. -/
theorem while_hinted :
    let line : Text := "x€wh".toList
    let whole : Text := "x€while".toList
    suggest? line 4 = some none ∧ suggest? line 7 = none ∧ suggest? line 6 = some "ile".toList ∧
      suggest? whole 9 = some none ∧ complete? whole 9 = some [⟨"while".toList, []⟩] := by
  intro line whole
  obtain ⟨_, inside, _, _⟩ := hint_is_first_completion line 4
  obtain ⟨_, _, beyond, _⟩ := hint_is_first_completion line 7
  obtain ⟨_, _, _, atEnd⟩ := hint_is_first_completion line 6
  obtain ⟨head, word, offers, hint, found, _, suggested, _, _, accepted⟩ := atEnd rfl
  have hinted : suggest? line 6 = some "ile".toList := by decide +kernel
  have isHint : hint = "ile".toList := Option.some.inj (suggested.symm.trans hinted)
  have isWord : word = "wh".toList := by
    have last : lastWord line = "wh".toList := by decide +kernel
    rw [found.whole, List.append_nil, lastWord_eq_iff.mpr found.lastWord] at last
    exact last
  obtain ⟨_, _, nothing, itself⟩ := accepted _ isHint
  rw [isWord] at itself
  exact ⟨inside (by decide), beyond (by decide), hinted, nothing, itself⟩

end LoxLexer

import LoxLexer.Proofs.Entries
import LoxLexer.Proofs.ReadBack
import LoxLexer.Proofs.Screen

/-!
# Coloured listings without their colours

Tokens and diagnostics are written twice, plainly and in colours. Where no text that is shown holds
the escape character, the two agree: without its control sequences the coloured form is the plain one
(`uncolored_listings_are_plain`). Numbers need no such condition, whatever their bits are.
-/

namespace LoxLexer

/-! Texts that never hold the escape character. -/

theorem escape_not_mem_digitsOfNat (n : Nat) : '\x1b' ∉ digitsOfNat n := by
  intro inside
  exact absurd (isDigit_of_mem_digitsOfNat inside) (by decide)

theorem escape_not_mem_positionalText (d : Decimal) : '\x1b' ∉ positionalText d := by
  intro inside
  rw [← text_positionalNumeral] at inside
  rcases (isDecimal_positionalNumeral d).digit_or_point _ inside with digit | point
  · exact absurd digit (by decide)
  · exact absurd point (by decide)

theorem escape_not_mem_scientificText (d : Decimal) : '\x1b' ∉ scientificText d := by
  have digits := escape_not_mem_digitsOfNat d.coefficient
  have first : '\x1b' ∉ (digitsOfNat d.coefficient).take 1 :=
    fun inside => digits (List.mem_of_mem_take inside)
  have others : '\x1b' ∉ (digitsOfNat d.coefficient).drop 1 :=
    fun inside => digits (List.mem_of_mem_drop inside)
  have power : ∀ i : Int, '\x1b' ∉ integerText i := by
    intro i
    rw [integerText]
    split <;> simp [escape_not_mem_digitsOfNat]
  have fraction : '\x1b' ∉ (if (digitsOfNat d.coefficient).length ≤ 1 then []
      else '.' :: (digitsOfNat d.coefficient).drop 1) := by
    split
    · exact List.not_mem_nil
    · exact List.not_mem_cons_of_ne_of_not_mem (by decide) others
  simp only [scientificText, List.mem_append, List.mem_cons, not_or]
  exact ⟨⟨first, fraction⟩, by decide, power _⟩

namespace Binary64

theorem escape_not_mem_magnitudeText (code : Nat) : '\x1b' ∉ magnitudeText code := by
  rw [magnitudeText]
  split
  · decide
  · split
    · exact escape_not_mem_positionalText _
    · exact escape_not_mem_scientificText _

/-- Numbers of all bits, infinite ones and those that are none included. -/
theorem escape_not_mem_text (x : Binary64) : '\x1b' ∉ x.text := by
  rw [text]
  split
  · decide
  · rw [List.mem_append, not_or]
    constructor
    · split <;> decide
    · split
      · decide
      · exact escape_not_mem_magnitudeText x.code

end Binary64

theorem Kind.escape_not_mem_name (k : Kind) : '\x1b' ∉ k.name := by
  cases k with
  | operator o => cases o <;> decide
  | keyword k => cases k <;> decide
  | _ => decide

theorem escape_not_mem_lineTag (line : Nat) : '\x1b' ∉ lineTag line :=
  not_mem_lineTag (by decide) rfl (by decide) line

/-! Tokens and diagnostics. -/

/-- Neither the text of the token nor a string that it stands for holds the escape character. -/
structure Token.NoEscape (t : Token) : Prop where
  lexeme : '\x1b' ∉ t.lexeme
  string : ∀ value, t.literal = some (.string value) → '\x1b' ∉ value

theorem Token.text_styled (t : Token) : t.styled.text = t.display := by
  obtain ⟨kind, lexeme, literal, line, span⟩ := t
  cases literal <;> simp [styled, display, Styled.text]

theorem Diagnostic.text_styled (d : Diagnostic) : d.styled.text = d.display := by
  have parts : d.styled.text =
      lineTag d.line ++ ([' '] ++ ("Error".toList ++ (": ".toList ++ d.message ++ []))) := rfl
  rw [parts, display, List.append_nil, List.append_assoc]
  rfl

theorem Token.NoEscape.styled {t : Token} (noEscape : t.NoEscape) :
    ∀ run ∈ t.styled, '\x1b' ∉ run.2 := by
  obtain ⟨kind, lexeme, literal, line, span⟩ := t
  have front : ∀ run ∈ [(Style.colored .cyan, kind.name), (.plain, [' ']), (kind.style, lexeme)],
      '\x1b' ∉ run.2 := by
    simpa using ⟨kind.escape_not_mem_name, noEscape.lexeme⟩
  intro run member
  rcases List.mem_append.mp member with before | behind
  · exact front run before
  · cases literal with
    | none => cases behind
    | some literal =>
        have shown : '\x1b' ∉ literal.text := by
          cases literal with
          | number value => exact value.escape_not_mem_text
          | string value => exact noEscape.string value rfl
        rcases List.mem_cons.mp behind with rfl | last
        · decide
        · obtain rfl := List.mem_singleton.mp last
          exact shown

theorem Diagnostic.escape_not_mem_styled {d : Diagnostic} (noEscape : '\x1b' ∉ d.message) :
    ∀ run ∈ d.styled, '\x1b' ∉ run.2 := by
  intro run member
  simp only [styled, List.mem_cons, List.not_mem_nil, or_false] at member
  rcases member with rfl | rfl | rfl | rfl
  · exact escape_not_mem_lineTag d.line
  · decide
  · decide
  · intro inside
    rcases List.mem_append.mp inside with colon | message
    · exact absurd colon (by decide)
    · exact noEscape message

/-! Whole listings. -/

theorem uncolored_line {runs : Styled} (noEscape : ∀ run ∈ runs, '\x1b' ∉ run.2) (rest : Text) :
    Text.uncolored false (runs.line ++ rest) = runs.text ++ '\n' :: Text.uncolored false rest := by
  have newline : '\x1b' ∉ ['\n'] := by decide
  rw [Styled.line, List.append_assoc, Text.uncolored_runs_append noEscape,
    Text.uncolored_append newline, List.singleton_append]

theorem uncolored_lines {α : Type} {styled : α → Styled} {items : List α}
    (noEscape : ∀ item ∈ items, ∀ run ∈ styled item, '\x1b' ∉ run.2) :
    Text.uncolored false (items.flatMap fun item => (styled item).line) =
      items.flatMap fun item => (styled item).text ++ ['\n'] := by
  induction items with
  | nil => rfl
  | cons item items ih =>
      obtain ⟨first, others⟩ := List.forall_mem_cons.mp noEscape
      rw [List.flatMap_cons, uncolored_line first, ih others, List.flatMap_cons, List.append_assoc,
        List.singleton_append]

theorem uncolored_styledListing {tokens : List Token} (noEscape : ∀ t ∈ tokens, t.NoEscape) :
    Text.uncolored false (styledListing tokens) = plainListing tokens := by
  rw [styledListing, uncolored_lines fun t member => (noEscape t member).styled]
  simp only [Token.text_styled]
  rfl

/-- What a token shows of its source is in the source. -/
theorem noEscape_of_mem_tokens {source : Text} {t : Token} (noEscape : '\x1b' ∉ source)
    (member : t ∈ (scan source).tokens) : t.NoEscape := by
  rw [tokens_scan] at member
  rcases exists_of_mem_tokensOf member with ⟨before, piece, after, rfl, _, found⟩ | rfl
  · have inPiece : '\x1b' ∉ piece.text := by
      intro inside
      exact noEscape (List.mem_append_left _ (List.mem_append_right _ inside))
    constructor
    · obtain ⟨_, _, _, rfl⟩ := Piece.token?_eq_some_iff.mp found
      exact inPiece
    · -- A string stands for what is between its quotes, and that is in the piece.
      intro value literal inValue
      rcases Piece.string_or_number_of_literal found literal with ⟨body, rfl, string⟩ | ⟨_, _, number⟩
      · cases string
        exact inPiece (List.mem_cons_of_mem _ (List.mem_append_left _ inValue))
      · cases number
  · exact ⟨List.not_mem_nil, fun _ none => nomatch none⟩

/-- Without the escape character in what it shows, a token in colours is its display in colours, and
so is a diagnostic. An entry of a session that is scanned is listed as the command would list it, but
for the colours. -/
theorem uncolored_listings_are_plain :
    (∀ t : Token, t.NoEscape → Text.uncolored false t.styled.paint = t.display) ∧
    (∀ d : Diagnostic, '\x1b' ∉ d.message → Text.uncolored false d.styled.paint = d.display) ∧
    ∀ (read : Reader) (line : Text), '\x1b' ∉ line → Text.trim line ≠ [] →
      Command.parse? line = none →
      Text.uncolored false (Session.respond read (.line line)).stdout =
        (Program.runText line).2.stdout := by
  refine ⟨?_, ?_, ?_⟩
  · intro t noEscape
    rw [Text.uncolored_runs noEscape.styled, t.text_styled]
  · intro d noEscape
    rw [Text.uncolored_runs (d.escape_not_mem_styled noEscape), d.text_styled]
  · intro read line noEscape notBlank noCommand
    have entry := (Session.respond_shows read (.line line)).stdout
    have listed : (Program.runText line).2.stdout = plainListing (scan line).tokens :=
      (showOutput_shows plainListing_lists line).stdout
    rw [Session.printedFor, if_neg notBlank, noCommand] at entry
    rw [entry, listed]
    exact uncolored_styledListing fun t => noEscape_of_mem_tokens noEscape

/-- Texts that look like parts of control sequences. -/
theorem bracketed_texts_uncolored :
    let t : Token := ⟨.keyword .whileWord, "[1m".toList, some (.string "0m".toList), 1, ⟨0, 3⟩⟩
    let d : Diagnostic := ⟨7, "m [31m".toList⟩
    let line : Text := "m \"[1m\" @".toList
    let read : Reader := fun _ => .error .notFound
    (t.NoEscape ∧ Text.uncolored false t.styled.paint = "While [1m 0m".toList) ∧
    ('\x1b' ∉ d.message ∧
      Text.uncolored false d.styled.paint = "[line 7] Error: m [31m".toList) ∧
    '\x1b' ∉ line ∧ Text.trim line ≠ [] ∧ Command.parse? line = none ∧
      Text.uncolored false (Session.respond read (.line line)).stdout =
        "Identifier m\nString \"[1m\" [1m\nEof \n".toList := by
  intro t d line read
  obtain ⟨tokens, diagnostics, entries⟩ := uncolored_listings_are_plain
  have inToken : t.NoEscape := by
    refine ⟨by decide, ?_⟩
    rintro _ ⟨⟩
    decide
  have inMessage : '\x1b' ∉ d.message := by decide
  have inLine : '\x1b' ∉ line := by decide
  have notBlank : Text.trim line ≠ [] := by decide
  have noCommand : Command.parse? line = none := by decide
  have displayed : d.display = "[line 7] Error: m [31m".toList := by decide +kernel
  have listed : (Program.runText line).2.stdout =
      "Identifier m\nString \"[1m\" [1m\nEof \n".toList := by decide +kernel
  refine ⟨⟨inToken, tokens t inToken⟩, ⟨inMessage, ?_⟩, inLine, notBlank, noCommand, ?_⟩
  · rw [diagnostics d inMessage, displayed]
  · rw [entries read line inLine notBlank noCommand, listed]

/-- A colour that a token brings with it goes with the others. -/
example : Text.uncolored false
    (Token.styled ⟨.identifier, "\x1b[1m".toList, none, 1, ⟨0, 4⟩⟩).paint = "Identifier ".toList := by
  decide

end LoxLexer

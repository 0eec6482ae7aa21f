import LoxLexer.Program
import LoxLexer.Proofs.Adjacency
import LoxLexer.Proofs.Printed

/-!
# Listings read back

A plain listing shows strings as they stand, so a string may look like several lines of a listing.
All the same no two lists of tokens are listed alike, places apart: each lexeme shows where it ends
(`listing_eq_iff`). What is reported never breaks a line.
-/

namespace LoxLexer

open Grammar

/-- Two texts that go on alike behind their first runs begin with the same run. -/
theorem run_unique {p : Char → Bool} {a b s t : Text} (insideA : ∀ c ∈ a, p c)
    (insideB : ∀ c ∈ b, p c) (stopS : beginsWith p s = false) (stopT : beginsWith p t = false)
    (same : a ++ s = b ++ t) : a = b ∧ s = t := by
  have runs : a = b := by
    rw [← takeWhile_run insideA stopS, same, takeWhile_run insideB stopT]
  subst runs
  exact ⟨rfl, List.append_cancel_left same⟩

namespace Kind

theorem name_injective {j k : Kind} (same : j.name = k.name) : j = k := by
  have found := ofName?_name j
  rw [same, ofName?_name] at found
  exact (Option.some.inj found).symm

theorem noSpace_name (k : Kind) : ∀ c ∈ k.name, c != ' ' := by
  have noSpace : k.name.all (· != ' ') := by
    cases k with
    | operator o => cases o <;> rfl
    | keyword k => cases k <;> rfl
    | _ => rfl
  exact List.all_eq_true.mp noSpace

/-- A space ends the name of a kind. -/
theorem eq_of_name_append {j k : Kind} {s t : Text}
    (same : j.name ++ ' ' :: s = k.name ++ ' ' :: t) : j = k ∧ s = t := by
  obtain ⟨names, rest⟩ := run_unique j.noSpace_name k.noSpace_name rfl rfl same
  exact ⟨name_injective names, (List.cons.inj rest).2⟩

end Kind

/-- What the display of a token shows of its value. -/
def Literal.suffix (literal : Option Literal) : Text := literal.elim [] fun l => ' ' :: l.text

/-- The line that lists a token, wherever the token stands. A string may break it. -/
def Content.line (c : Content) : Text :=
  c.1.name ++ ' ' :: (c.2.1 ++ (Literal.suffix c.2.2 ++ ['\n']))

theorem Content.line_append (c : Content) (s : Text) :
    c.line ++ s = c.1.name ++ ' ' :: (c.2.1 ++ (Literal.suffix c.2.2 ++ '\n' :: s)) := by
  simp [line]

theorem plainListing_eq (tokens : List Token) :
    plainListing tokens = (tokens.map Token.content).flatMap Content.line := by
  have line : ∀ t : Token, t.display ++ ['\n'] = t.content.line := by
    rintro ⟨kind, lexeme, literal, line, span⟩
    cases literal <;> simp [Token.display, Token.content, Content.line, Literal.suffix]
  rw [plainListing, List.flatMap_map]
  exact congrArg (List.flatMap · tokens) (funext line)

namespace Lexeme

/-- The value that goes with the spelling. -/
def literal (w : Lexeme) : Option Literal :=
  match w.kind with
  | .number => (Numeral.ofText? w.text).map fun n => .number n.value
  | .string => some (.string w.text.tail.dropLast)
  | _ => none

def content (w : Lexeme) : Content := (w.kind, w.text, w.literal)

/-- Words and numbers are unbroken. -/
def isUnbroken (c : Char) : Bool := isWordChar c || c == '.'

theorem isUnbroken_of_isDigit {c : Char} (h : c.isDigit) : isUnbroken c := by
  simp [isUnbroken, isWordChar, h]

theorem unbroken_identifier {w : Text} (spelled : Kind.identifier.Spelled w) :
    ∀ c ∈ w, isUnbroken c := by
  intro c member
  simp [isUnbroken, (mem_word_iff.mp spelled.1).2 c member]

theorem unbroken_number {w : Text} (spelled : Kind.number.Spelled w) :
    ∀ c ∈ w, isUnbroken c := by
  intro c member
  rcases mem_number_iff.mp spelled with digits | ⟨whole, fraction, rfl, digits, more⟩
  · exact isUnbroken_of_isDigit (digits.2 c member)
  · rcases List.mem_append.mp member with inWhole | _ | ⟨_, inFraction⟩
    · exact isUnbroken_of_isDigit (digits.2 c inWhole)
    · rfl
    · exact isUnbroken_of_isDigit (more.2 c inFraction)

/-- Of two spellings of a kind with other text behind them, neither goes on with the other. -/
theorem spelling_unique {kind : Kind} {w v s t : Text} (first : kind.Spelled w)
    (second : kind.Spelled v) (stopS : beginsWith isUnbroken s = false)
    (stopT : beginsWith isUnbroken t = false) (same : w ++ s = v ++ t) : w = v := by
  cases kind with
  | operator o => exact first.trans second.symm
  | keyword k => exact first.trans second.symm
  | identifier =>
      exact (run_unique (unbroken_identifier first) (unbroken_identifier second) stopS stopT same).1
  | number =>
      exact (run_unique (unbroken_number first) (unbroken_number second) stopS stopT same).1
  | string =>
      obtain ⟨body, rfl, closed⟩ := mem_string_iff.mp first
      obtain ⟨other, rfl, closed'⟩ := mem_string_iff.mp second
      have inside : ∀ {run : Text}, '"' ∉ run → ∀ c ∈ run, c != '"' :=
        fun closed c member => bne_iff_ne.mpr fun quote => closed (quote ▸ member)
      have bodies : body ++ '"' :: s = other ++ '"' :: t := by simpa using same
      rw [(run_unique (inside closed) (inside closed') rfl rfl bodies).1]
  | eof => exact first.elim

theorem stop_suffix (literal : Option Literal) (t : Text) :
    beginsWith isUnbroken (Literal.suffix literal ++ '\n' :: t) = false := by
  cases literal <;> rfl

/-- A listing tells its first token. -/
theorem eq_of_line_append {u v : Lexeme} {s t : Text}
    (same : u.content.line ++ s = v.content.line ++ t) : u = v ∧ s = t := by
  rw [Content.line_append, Content.line_append] at same
  obtain ⟨kind, w, first⟩ := u
  obtain ⟨kind', w', second⟩ := v
  obtain ⟨rfl, behind⟩ := Kind.eq_of_name_append same
  obtain rfl : w = w' := spelling_unique first second (stop_suffix _ s) (stop_suffix _ t) behind
  have rest := List.append_cancel_left (List.append_cancel_left behind)
  exact ⟨rfl, (List.cons.inj rest).2⟩

end Lexeme

/-- The line of the end. -/
def endLine : Text := Content.line (.eof, [], none)

/-- Different lists of lexemes are listed differently. -/
theorem eq_of_lines {us vs : List Lexeme}
    (same : (us.map Lexeme.content).flatMap Content.line ++ endLine =
      (vs.map Lexeme.content).flatMap Content.line ++ endLine) : us = vs := by
  have notEnd : ∀ (w : Lexeme) (s : Text), endLine ≠ w.content.line ++ s := by
    rintro ⟨kind, w, spelled⟩ s lines
    rw [Content.line_append] at lines
    obtain ⟨rfl, _⟩ := Kind.eq_of_name_append (s := ['\n']) lines
    exact spelled
  induction us generalizing vs with
  | nil =>
      cases vs with
      | nil => rfl
      | cons v vs =>
          rw [List.map_cons, List.flatMap_cons, List.append_assoc] at same
          exact absurd same (notEnd v _)
  | cons u us ih =>
      cases vs with
      | nil =>
          rw [List.map_cons, List.flatMap_cons, List.append_assoc] at same
          exact absurd same.symm (notEnd u _)
      | cons v vs =>
          rw [List.map_cons, List.flatMap_cons, List.map_cons, List.flatMap_cons,
            List.append_assoc, List.append_assoc] at same
          obtain ⟨rfl, rest⟩ := Lexeme.eq_of_line_append same
          rw [ih rest]

/-! The tokens of a scan are lexemes, and the end. -/

theorem Piece.exists_lexeme {piece : Piece} {after : Text} {p : Position} {t : Token}
    (fits : piece.Fits after) (token : piece.token? p = some t) :
    ∃ w : Lexeme, w.content = t.content := by
  obtain ⟨kind, literal, reading, rfl⟩ := token?_eq_some_iff.mp token
  cases piece with
  | operator o =>
      cases reading
      exact ⟨⟨.operator o, o.spelling, rfl⟩, rfl⟩
  | word w =>
      obtain ⟨rfl, rfl⟩ := Reading.token.inj reading
      cases found : Keyword.ofSpelling? w with
      | some k =>
          obtain rfl := Keyword.ofSpelling?_eq_some_iff.mp found
          refine ⟨⟨.keyword k, k.spelling, rfl⟩, ?_⟩
          simp [Token.content, Lexeme.content, Lexeme.literal, Kind.ofWord_spelling, text]
      | none =>
          have notKeyword : ∀ k : Keyword, w ≠ k.spelling := by
            rintro k rfl
            rw [Keyword.ofSpelling?_spelling] at found
            cases found
          refine ⟨⟨.identifier, w, fits.text_mem rfl, notKeyword⟩, ?_⟩
          simp [Token.content, Lexeme.content, Lexeme.literal,
            Kind.ofWord_eq_identifier notKeyword, text]
  | number n =>
      cases reading
      refine ⟨⟨.number, n.text, fits.text_mem rfl⟩, ?_⟩
      simp [Token.content, Lexeme.content, Lexeme.literal, n.ofText?_text fits, text]
  | string body =>
      cases reading
      refine ⟨⟨.string, '"' :: body ++ ['"'], fits.text_mem rfl⟩, ?_⟩
      simp [Token.content, Lexeme.content, Lexeme.literal, text]
  | _ => cases reading

theorem exists_lexemes_tokensFrom {pieces : List Piece} (fitting : Fitting pieces) (p : Position) :
    ∃ lexemes : List Lexeme,
      (tokensFrom p pieces).map Token.content = lexemes.map Lexeme.content := by
  induction pieces generalizing p with
  | nil => exact ⟨[], rfl⟩
  | cons piece pieces ih =>
      obtain ⟨fits, fitting⟩ := fitting
      obtain ⟨lexemes, later⟩ := ih fitting (p.past piece.text)
      rw [tokensFrom_cons, List.map_append, later]
      cases token : piece.token? p with
      | none => exact ⟨lexemes, rfl⟩
      | some t =>
          obtain ⟨w, content⟩ := piece.exists_lexeme fits token
          refine ⟨w :: lexemes, ?_⟩
          rw [List.map_cons, content]
          rfl

theorem exists_lexemes (source : Text) : ∃ lexemes : List Lexeme,
    (scan source).tokens.map Token.content = lexemes.map Lexeme.content ++ [(.eof, [], none)] := by
  obtain ⟨lexemes, contents⟩ := exists_lexemes_tokensFrom (fitting_cut source) Position.start
  refine ⟨lexemes, ?_⟩
  rw [scan_eq, tokensOf, List.map_append, contents]
  rfl

theorem plainListing_inj {a b : Text}
    (same : plainListing (scan a).tokens = plainListing (scan b).tokens) :
    (scan a).tokens.map Token.content = (scan b).tokens.map Token.content := by
  obtain ⟨us, contentsA⟩ := exists_lexemes a
  obtain ⟨vs, contentsB⟩ := exists_lexemes b
  rw [plainListing_eq, plainListing_eq, contentsA, contentsB, List.flatMap_append,
    List.flatMap_append, List.flatMap_singleton] at same
  rw [contentsA, contentsB, eq_of_lines same]

/-! What is reported stays on its line. -/

theorem newline_not_mem_message {source : Text} {d : Diagnostic}
    (reported : d ∈ (scan source).diagnostics) : '\n' ∉ d.message := by
  obtain ⟨piece, member, f, found, same⟩ := exists_fault reported
  rw [same]
  cases piece with
  | unexpected c =>
      cases found
      have other : isUnexpected c := (fitting_cut source).alone _ member
      have notNewline := List.count_eq_zero.mp (Piece.newlines_of_isUnexpected other)
      intro inside
      rcases List.mem_append.mp inside with inWords | isIt
      · exact absurd inWords (by decide)
      · exact notNewline isIt
  | openString body =>
      cases found
      decide
  | _ => cases found

theorem newline_not_mem_lineTag (line : Nat) : '\n' ∉ lineTag line :=
  not_mem_lineTag (by decide) rfl (by decide) line

theorem newline_not_mem_display {d : Diagnostic} (message : '\n' ∉ d.message) :
    '\n' ∉ d.display := by
  simp [Diagnostic.display, newline_not_mem_lineTag, message]

theorem newline_not_mem_paint (s : Style) {t : Text} (h : '\n' ∉ t) : '\n' ∉ s.paint t := by
  have codes : '\n' ∉ s.opening ∧ '\n' ∉ s.closing := by
    cases s with
    | colored c => cases c <;> decide
    | bold c => cases c <;> decide
    | _ => decide
  simp [Style.paint, codes, h]

theorem newline_not_mem_styled {d : Diagnostic} (message : '\n' ∉ d.message) :
    '\n' ∉ d.styled.paint := by
  have runs : ∀ run ∈ d.styled, '\n' ∉ run.2 := by
    simp [Diagnostic.styled, errorWord, newline_not_mem_lineTag, message]
  intro inside
  obtain ⟨run, member, inRun⟩ := List.mem_flatMap.mp inside
  exact newline_not_mem_paint run.1 (runs run member) inRun

/-- The error output is split into one line for each diagnostic, and nothing behind the last. -/
theorem splitOn_diagnosticListing (source : Text) :
    (diagnosticListing (scan source).diagnostics).splitOn '\n' =
      (scan source).diagnostics.map (fun d => d.styled.paint) ++ [[]] := by
  have inside : ∀ line ∈ (scan source).diagnostics.map (fun d => d.styled.paint), '\n' ∉ line := by
    intro line member
    obtain ⟨d, reported, rfl⟩ := List.mem_map.mp member
    exact newline_not_mem_styled (newline_not_mem_message reported)
  rw [← Text.splitOn_ended inside, List.flatMap_map]
  rfl

/-- Two sources are listed alike exactly if they have the same tokens, wherever these stand. Each
diagnostic is displayed on one line, and the error output has as many lines as diagnostics. -/
theorem listing_eq_iff (a b : Text) :
    ((Program.runText a).2.stdout = (Program.runText b).2.stdout ↔
      (scan a).tokens.map Token.content = (scan b).tokens.map Token.content) ∧
    (∀ d ∈ (scan a).diagnostics, '\n' ∉ d.message ∧ '\n' ∉ d.display) ∧
    (Program.runText a).2.stderr.splitOn '\n' =
      (scan a).diagnostics.map (fun d => d.styled.paint) ++ [[]] := by
  have shows := showOutput_shows plainListing_lists
  have stdout : ∀ source, (Program.runText source).2.stdout = plainListing (scan source).tokens :=
    fun source => (shows source).stdout
  have stderr : (Program.runText a).2.stderr = diagnosticListing (scan a).diagnostics :=
    (shows a).stderr
  rw [stdout, stdout, stderr]
  refine ⟨⟨plainListing_inj, ?_⟩, ?_, splitOn_diagnosticListing a⟩
  · intro same
    rw [plainListing_eq, plainListing_eq, same]
  · intro d reported
    have message := newline_not_mem_message reported
    exact ⟨message, newline_not_mem_display message⟩

/-- A string whose lines look like the listing of a number, and a character to report. -/
def misleading : Text := "\"\nNumber 1 1.0\n\" @".toList

theorem listing_misleading :
    let strange : Diagnostic := ⟨3, "Unexpected character: @".toList⟩
    (Program.runText misleading).2.stdout ≠ (Program.runText "1".toList).2.stdout ∧
      strange ∈ (scan misleading).diagnostics ∧ '\n' ∉ strange.display ∧
      (Program.runText misleading).2.stderr.splitOn '\n' = [strange.styled.paint, []] := by
  intro strange
  obtain ⟨alike, oneLine, errors⟩ := listing_eq_iff misleading "1".toList
  have found : (scan misleading).diagnostics = [strange] := by decide +kernel
  have reported : strange ∈ (scan misleading).diagnostics := found ▸ List.mem_singleton_self _
  refine ⟨fun same => absurd (alike.mp same) (by decide +kernel), reported,
    (oneLine strange reported).2, ?_⟩
  rw [errors, found]
  rfl

end LoxLexer

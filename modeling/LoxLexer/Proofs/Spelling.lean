import LoxLexer.Proofs.Munch
import LoxLexer.Proofs.Seam

/-!
# Tokens written out

A list of tokens can be written down with layout between neighbours, in any of their spellings and
with any comments in between. Scanning the text gives the list back, and nothing to report
(`scan_written`). Whether the layout could be left out is not the matter here.
-/

namespace LoxLexer

open Grammar

/-- The text spells a token of the kind. The end has no spelling. -/
def Kind.Spelled (w : Text) : Kind → Prop
  | operator o => w = o.spelling
  | keyword k => w = k.spelling
  | identifier => w ∈ Pattern.word.language ∧ ∀ k : Keyword, w ≠ k.spelling
  | number => w ∈ Pattern.number.language
  | string => w ∈ Pattern.string.language
  | eof => False

structure Lexeme where
  kind : Kind
  text : Text
  spelled : kind.Spelled text

/-- Blanks, line feeds, and comments that a line feed ends. -/
inductive Trivia : Text → Prop
  | nil : Trivia []
  | blank {c : Char} {t : Text} (blank : c ∈ [' ', '\t', '\r', '\n']) (more : Trivia t) :
      Trivia (c :: t)
  | comment {body t : Text} (oneLine : '\n' ∉ body) (more : Trivia t) :
      Trivia ('/' :: '/' :: body ++ '\n' :: t)

/-- Trivia that start with a blank or a line feed. -/
structure Separator where
  text : Text
  trivia : Trivia text
  first : ∃ c t, text = c :: t ∧ c ∈ [' ', '\t', '\r', '\n']

/-- The lexemes in order, the first separator after the first of them, and so on. -/
def written (separator : Nat → Separator) : List Lexeme → Text
  | [] => []
  | [w] => w.text
  | w :: v :: more =>
      w.text ++ ((separator 0).text ++ written (fun i => separator (i + 1)) (v :: more))

namespace Piece

/-- Kind and text of the token of a piece. -/
def spelling? (piece : Piece) : Option (Kind × Text) :=
  match piece.reading with
  | .token kind _ => some (kind, piece.text)
  | .skipped | .fault _ => none

theorem map_token? (piece : Piece) (p : Position) :
    (piece.token? p).map (fun t => (t.kind, t.lexeme)) = piece.spelling? := by
  cases h : piece.reading with
  | token kind literal => simp only [token?, spelling?, h, Option.map_some]
  | skipped => simp only [token?, spelling?, h, Option.map_none]
  | fault f => simp only [token?, spelling?, h, Option.map_none]

theorem fault?_of_spelling? {piece : Piece} {found : Kind × Text}
    (h : piece.spelling? = some found) : piece.fault? = none := by
  cases reading : piece.reading with
  | token kind literal => rw [fault?, reading]
  | skipped =>
      rw [spelling?, reading] at h
      cases h
  | fault f =>
      rw [spelling?, reading] at h
      cases h

end Piece

theorem map_tokensFrom (p : Position) (pieces : List Piece) :
    (tokensFrom p pieces).map (fun t => (t.kind, t.lexeme)) =
      pieces.filterMap Piece.spelling? := by
  induction pieces generalizing p with
  | nil => rfl
  | cons piece pieces ih =>
      rw [tokensFrom_cons, List.map_append, ih, List.filterMap_cons, ← piece.map_token? p]
      cases piece.token? p <;> rfl

/-- Layout goes on with nothing. -/
theorem stopsLike_layout {after : Text} (h : after = [] ∨ beginsWith isLayout after) :
    StopsLike [] after := by
  cases after with
  | nil => exact ⟨fun _ _ _ => rfl, fun _ => rfl⟩
  | cons c after =>
      have layout : isLayout c := h.resolve_left (List.cons_ne_nil c after)
      refine ⟨fun sort notLayout _ => notLayout c layout, fun _ => ?_⟩
      rw [beginsFraction_cons, beq_of_isLayout rfl layout, Bool.false_and]

theorem isWord_spelling (k : Keyword) : IsWord k.spelling := by
  have inside : k.spelling.all isWordChar := by cases k <;> rfl
  exact ⟨by cases k <;> rfl, List.all_eq_true.mp inside⟩

theorem Kind.ofWord_eq_identifier {w : Text} (h : ∀ k : Keyword, w ≠ k.spelling) :
    ofWord w = .identifier := by
  have none : Keyword.ofSpelling? w = none := by
    refine Option.eq_none_iff_forall_not_mem.mpr ?_
    intro k found
    exact h k (Keyword.ofSpelling?_eq_some_iff.mp found).symm
  rw [ofWord, none]

theorem Kind.ofWord_spelling (k : Keyword) : ofWord k.spelling = .keyword k := by
  rw [ofWord, Keyword.ofSpelling?_spelling]

theorem Piece.spelling?_word (w : Text) :
    (Piece.word w).spelling? = some (Kind.ofWord w, w) := rfl

/-- A spelling of a kind is the text of a piece of this kind. -/
theorem Kind.Spelled.exists_fits {kind : Kind} {w : Text} (spelled : kind.Spelled w) :
    ∃ piece : Piece, piece.text = w ∧ piece.spelling? = some (kind, w) ∧ piece.Fits [] := by
  cases kind with
  | operator o =>
      obtain rfl : w = o.spelling := spelled
      exact ⟨.operator o, rfl, rfl, fun _ => rfl, fun _ => rfl⟩
  | keyword k =>
      obtain rfl : w = k.spelling := spelled
      refine ⟨.word k.spelling, rfl, ?_, isWord_spelling k, rfl⟩
      rw [Piece.spelling?_word, Kind.ofWord_spelling]
  | identifier =>
      obtain ⟨word, notKeyword⟩ := spelled
      refine ⟨.word w, rfl, ?_, mem_word_iff.mp word, rfl⟩
      rw [Piece.spelling?_word, Kind.ofWord_eq_identifier notKeyword]
  | number =>
      rcases mem_number_iff.mp spelled with digits | ⟨whole, fraction, rfl, digits, more⟩
      · exact ⟨.number ⟨w, none⟩, rfl, rfl, digits, rfl, rfl⟩
      · exact ⟨.number ⟨whole, some fraction⟩, rfl, rfl, digits, more, rfl⟩
  | string =>
      obtain ⟨body, rfl, closed⟩ := mem_string_iff.mp spelled
      exact ⟨.string body, rfl, rfl, closed⟩
  | eof => exact spelled.elim

/-- The piece of a lexeme fits before any layout. -/
theorem Lexeme.exists_piece (w : Lexeme) :
    ∃ piece : Piece, piece.text = w.text ∧ piece.spelling? = some (w.kind, w.text) ∧
      ∀ after, after = [] ∨ beginsWith isLayout after → piece.Fits after := by
  obtain ⟨piece, text, spelling, fits⟩ := w.spelled.exists_fits
  refine ⟨piece, text, spelling, ?_⟩
  intro after layout
  refine fits.of_stopsLike (stopsLike_layout layout) ?_ ?_
  · rintro body rfl
    cases spelling
  · rintro body rfl
    cases spelling

/-- Trivia are cut into pieces that are skipped, whatever comes after them. -/
theorem Trivia.exists_pieces {t : Text} (h : Trivia t) :
    ∃ pieces : List Piece, pieces.flatMap Piece.text = t ∧
      (∀ piece ∈ pieces, piece.reading = .skipped) ∧ ∀ after, FittingBefore after pieces := by
  induction h with
  | nil =>
      refine ⟨[], rfl, ?_, fun _ => trivial⟩
      intro _ none
      cases none
  | @blank c t blank more ih =>
      obtain ⟨pieces, rfl, skipped, fitting⟩ := ih
      refine ⟨.layout c :: pieces, rfl, ?_, fun after => ?_⟩
      · exact List.forall_mem_cons.mpr ⟨rfl, skipped⟩
      · exact ⟨isLayout_iff_mem.mpr blank, fitting after⟩
  | @comment body t oneLine more ih =>
      obtain ⟨pieces, rfl, skipped, fitting⟩ := ih
      refine ⟨.comment body :: .layout '\n' :: pieces, rfl, ?_, fun after => ?_⟩
      · exact List.forall_mem_cons.mpr ⟨rfl, List.forall_mem_cons.mpr ⟨rfl, skipped⟩⟩
      · exact ⟨⟨oneLine, Or.inr rfl⟩, rfl, fitting after⟩

theorem Separator.beginsWith_append (separator : Separator) (t : Text) :
    beginsWith isLayout (separator.text ++ t) := by
  obtain ⟨c, rest, text, blank⟩ := separator.first
  rw [text]
  exact isLayout_iff_mem.mpr blank

theorem filterMap_of_skipped {pieces : List Piece} (h : ∀ piece ∈ pieces, piece.reading = .skipped) :
    pieces.filterMap Piece.spelling? = [] ∧ pieces.filterMap Piece.fault? = [] := by
  constructor
  · refine List.filterMap_eq_nil_iff.mpr ?_
    intro piece member
    rw [Piece.spelling?, h piece member]
  · refine List.filterMap_eq_nil_iff.mpr ?_
    intro piece member
    rw [Piece.fault?, h piece member]

/-- A text is cut into the pieces of what has been written. -/
theorem exists_pieces_written (separator : Nat → Separator) (lexemes : List Lexeme) :
    ∃ pieces : List Piece, pieces.flatMap Piece.text = written separator lexemes ∧
      Fitting pieces ∧
      pieces.filterMap Piece.spelling? = lexemes.map (fun w => (w.kind, w.text)) ∧
      pieces.filterMap Piece.fault? = [] := by
  -- Along `written`: a lexeme, the trivia after it, and all that has been written behind them.
  induction lexemes generalizing separator with
  | nil => exact ⟨[], rfl, trivial, rfl, rfl⟩
  | cons w lexemes ih =>
      obtain ⟨piece, text, spelling, fits⟩ := w.exists_piece
      have noFault := Piece.fault?_of_spelling? spelling
      cases lexemes with
      | nil =>
          refine ⟨[piece], ?_, ⟨fits [] (Or.inl rfl), trivial⟩, ?_, ?_⟩
          · rw [List.flatMap_singleton, text, written]
          · rw [List.filterMap_cons_some spelling]
            rfl
          · rw [List.filterMap_cons_none noFault]
            rfl
      | cons v more =>
          obtain ⟨gap, gapText, skipped, gapFits⟩ := (separator 0).trivia.exists_pieces
          obtain ⟨silent, clean⟩ := filterMap_of_skipped skipped
          obtain ⟨rest, restText, fitting, spellings, faults⟩ := ih fun i => separator (i + 1)
          refine ⟨piece :: (gap ++ rest), ?_, ⟨?_, fitting_append.mpr ⟨gapFits _, fitting⟩⟩, ?_, ?_⟩
          · rw [List.flatMap_cons, List.flatMap_append, text, gapText, restText, written]
          · refine fits _ (Or.inr ?_)
            rw [List.flatMap_append, gapText]
            exact (separator 0).beginsWith_append _
          · rw [List.filterMap_cons_some spelling, List.filterMap_append, silent, spellings]
            rfl
          · rw [List.filterMap_cons_none noFault, List.filterMap_append, clean, faults]
            rfl

/-- What has been written out is scanned back, and nothing is reported. -/
theorem scan_written (separator : Nat → Separator) (lexemes : List Lexeme) :
    (scan (written separator lexemes)).diagnostics = [] ∧
    (scan (written separator lexemes)).tokens.map (fun t => (t.kind, t.lexeme)) =
      lexemes.map (fun w => (w.kind, w.text)) ++ [(.eof, [])] := by
  obtain ⟨pieces, text, fitting, spellings, faults⟩ := exists_pieces_written separator lexemes
  have cutInto : cut (written separator lexemes) = pieces := cut_eq_iff.mpr ⟨text, fitting⟩
  rw [scan_eq]
  constructor
  · have messages := map_message_diagnosticsFrom Position.start pieces
    rw [faults] at messages
    rw [diagnosticsOf, cutInto]
    exact List.map_eq_nil_iff.mp messages
  · rw [tokensOf, cutInto, List.map_append, map_tokensFrom, spellings]
    rfl

end LoxLexer

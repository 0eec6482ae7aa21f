import LoxLexer.Proofs.Automaton
import LoxLexer.Proofs.Cursor
import LoxLexer.Proofs.Seam

/-!
# Line endings

Lines may end in a carriage return and a line feed instead of a line feed alone. The scan finds the
same tokens and reports the same (`scan_withReturns`): the carriage return is layout, or the last
character of a comment, or part of a string, whose text then has it too.
-/

namespace LoxLexer

namespace Text

/-- A carriage return is put before each line feed. -/
def withReturns (t : Text) : Text := t.flatMap fun c => if c = '\n' then ['\r', '\n'] else [c]

/-- The line feeds at the byte offsets before this one. -/
def newlinesBefore (t : Text) (n : Nat) : Nat :=
  (charOffsets 0 t).countP fun place => place.1 < n ∧ place.2 = '\n'

@[simp] theorem withReturns_nil : withReturns [] = [] := rfl

@[simp] theorem withReturns_newline (t : Text) :
    withReturns ('\n' :: t) = '\r' :: '\n' :: withReturns t := rfl

theorem withReturns_cons {c : Char} (h : c ≠ '\n') (t : Text) :
    withReturns (c :: t) = c :: withReturns t := by
  rw [withReturns, List.flatMap_cons, if_neg h]
  rfl

@[simp] theorem withReturns_append (s t : Text) :
    withReturns (s ++ t) = withReturns s ++ withReturns t := List.flatMap_append

theorem withReturns_eq_self {t : Text} (oneLine : '\n' ∉ t) : withReturns t = t := by
  induction t with
  | nil => rfl
  | cons c t ih =>
      obtain ⟨here, behind⟩ := not_or.mp (mt List.mem_cons.mpr oneLine)
      rw [withReturns_cons (Ne.symm here), ih behind]

/-- A line of comment has the carriage return inside the comment. -/
theorem withReturns_comment {body : Text} (oneLine : '\n' ∉ body) :
    withReturns ('/' :: '/' :: body ++ ['\n']) = '/' :: '/' :: (body ++ ['\r']) ++ ['\n'] := by
  have slashes : '\n' ∉ '/' :: '/' :: body := by simpa using oneLine
  rw [withReturns_append, withReturns_eq_self slashes]
  simp

theorem newlines_withReturns (t : Text) : newlines (withReturns t) = newlines t := by
  induction t with
  | nil => rfl
  | cons c t ih =>
      by_cases newline : c = '\n'
      · subst newline
        simpa [newlines] using ih
      · rw [withReturns_cons newline]
        simpa [newlines, newline] using ih

theorem byteLength_withReturns (t : Text) :
    byteLength (withReturns t) = byteLength t + newlines t := by
  induction t with
  | nil => rfl
  | cons c t ih =>
      by_cases newline : c = '\n'
      · subst newline
        have carriageReturn : '\r'.utf8Size = 1 := rfl
        have more : newlines ('\n' :: t) = newlines t + 1 := List.count_cons_self
        rw [withReturns_newline, byteLength_cons, byteLength_cons, byteLength_cons]
        omega
      · have same : newlines (c :: t) = newlines t := List.count_cons_of_ne newline
        rw [withReturns_cons newline, byteLength_cons, byteLength_cons]
        omega

/-- Nothing comes in but carriage returns. -/
theorem mem_withReturns {t : Text} {d : Char} (h : d ≠ '\r') : d ∈ withReturns t ↔ d ∈ t := by
  induction t with
  | nil => exact Iff.rfl
  | cons c t ih =>
      by_cases newline : c = '\n'
      · subst newline
        simp [ih, h]
      · simp [withReturns_cons newline, ih]

theorem le_of_mem_charOffsets {start : Nat} {t : Text} {place : Nat × Char}
    (h : place ∈ charOffsets start t) : start ≤ place.1 := by
  induction t generalizing start with
  | nil => cases h
  | cons c t ih =>
      rcases List.mem_cons.mp h with rfl | behind
      · exact le_rfl
      · have later := ih behind
        omega

theorem countP_charOffsets (start : Nat) (s t : Text) :
    (charOffsets start (s ++ t)).countP
      (fun place => place.1 < start + byteLength s ∧ place.2 = '\n') = newlines s := by
  induction s generalizing start with
  | nil =>
      refine List.countP_eq_zero.mpr ?_
      intro place h counted
      have later := le_of_mem_charOffsets h
      obtain ⟨sooner, _⟩ := of_decide_eq_true counted
      rw [byteLength_nil] at sooner
      omega
  | cons c s ih =>
      have there : 0 < c.utf8Size + byteLength s := byteLength_pos (List.cons_ne_nil c s)
      have behind := ih (start + c.utf8Size)
      rw [Nat.add_assoc, ← byteLength_cons] at behind
      rw [List.cons_append, charOffsets, List.countP_cons, behind, newlines, newlines,
        List.count_cons]
      simp [there]

/-- The line feeds before the end of a beginning are those in it. -/
theorem newlinesBefore_append (s t : Text) :
    newlinesBefore (s ++ t) (byteLength s) = newlines s := by
  have counted := countP_charOffsets 0 s t
  rw [Nat.zero_add] at counted
  exact counted

/-! What a text begins with, it begins with afterwards, unless that is layout. -/

theorem beginsWith_withReturns {sort : Char → Bool} (notLayout : ∀ c, isLayout c → sort c = false)
    (t : Text) : beginsWith sort (withReturns t) = beginsWith sort t := by
  cases t with
  | nil => rfl
  | cons c t =>
      by_cases newline : c = '\n'
      · subst newline
        rw [withReturns_newline, beginsWith_cons, beginsWith_cons, notLayout '\r' rfl,
          notLayout '\n' rfl]
      · rw [withReturns_cons newline, beginsWith_cons, beginsWith_cons]

theorem beginsFraction_withReturns (t : Text) :
    beginsFraction (withReturns t) = beginsFraction t := by
  cases t with
  | nil => rfl
  | cons c t =>
      by_cases newline : c = '\n'
      · subst newline
        rfl
      · rw [withReturns_cons newline, beginsFraction_cons, beginsFraction_cons,
          beginsWith_withReturns fun _ => isDigit_of_isLayout]

theorem stopsLike_withReturns (t : Text) : StopsLike t (withReturns t) := by
  constructor
  · intro sort notLayout stop
    rw [beginsWith_withReturns notLayout]
    exact stop
  · intro stop
    rw [beginsFraction_withReturns]
    exact stop

end Text

/-! The pieces of the text with carriage returns. -/

def Piece.withReturns : Piece → Piece
  | string body => string (Text.withReturns body)
  | openString body => openString (Text.withReturns body)
  | piece => piece

/-- A carriage return becomes the end of a comment, or layout of its own. -/
def withReturns : List Piece → List Piece
  | [] => []
  | .comment body :: .layout '\n' :: pieces =>
      .comment (body ++ ['\r']) :: .layout '\n' :: withReturns pieces
  | .layout '\n' :: pieces => .layout '\r' :: .layout '\n' :: withReturns pieces
  | piece :: pieces => piece.withReturns :: withReturns pieces

def Literal.withReturns : Literal → Literal
  | number value => number value
  | string value => string (Text.withReturns value)

def Reading.withReturns : Reading → Reading
  | token kind literal => token kind (literal.map Literal.withReturns)
  | skipped => skipped
  | fault f => fault f

namespace Piece
variable {piece : Piece} {after : Text}

theorem reading_withReturns (piece : Piece) :
    piece.withReturns.reading = piece.reading.withReturns := by
  cases piece <;> rfl

/-- Only strings go over the end of a line, which is a piece otherwise. -/
theorem text_withReturns (fits : piece.Fits after) (inLine : piece ≠ .layout '\n') :
    piece.withReturns.text = Text.withReturns piece.text := by
  have quote (t : Text) : Text.withReturns ('"' :: t) = '"' :: Text.withReturns t := rfl
  cases piece with
  | operator o => exact (Text.withReturns_eq_self (by cases o <;> decide)).symm
  | word w =>
      refine (Text.withReturns_eq_self ?_).symm
      exact fun newline => absurd (fits.1.2 _ newline) (by decide)
  | number n =>
      have oneLine := List.count_eq_zero.mp (Cursor.newlines_number fits)
      exact (Text.withReturns_eq_self oneLine).symm
  | string body => simp [withReturns, text, quote]
  | comment body =>
      have oneLine : '\n' ∉ (comment body).text := by simpa [text] using fits.1
      exact (Text.withReturns_eq_self oneLine).symm
  | layout c =>
      refine (Text.withReturns_cons ?_ []).symm
      rintro rfl
      exact inLine rfl
  | unexpected c =>
      have oneLine := List.count_eq_zero.mp (newlines_of_isUnexpected fits)
      exact (Text.withReturns_eq_self oneLine).symm
  | openString body => exact (quote body).symm

/-- Before the text with carriage returns the piece fits too, unless it is a comment on a line that
ends: this one gets a carriage return itself. -/
theorem fits_withReturns (fits : piece.Fits after)
    (last : ∀ body, piece = .comment body → after = []) :
    piece.withReturns.Fits (Text.withReturns after) := by
  have closed {body : Text} (h : '"' ∉ body) : '"' ∉ Text.withReturns body := by
    rw [Text.mem_withReturns (by decide)]
    exact h
  have there : piece.Fits (Text.withReturns after) := by
    apply fits.of_stopsLike (Text.stopsLike_withReturns after)
    · intro body comment _
      rw [last body comment]
      exact Or.inl rfl
    · intro body _ nothing
      rw [nothing]
      rfl
  cases piece with
  | string body => exact closed there
  | openString body => exact ⟨closed there.1, there.2⟩
  | _ => exact there

end Piece

/-- A comment that no line feed follows is the last piece. -/
theorem Fitting.last_comment {body : Text} {pieces : List Piece}
    (fitting : Fitting (.comment body :: pieces))
    (notFeed : ∀ more, pieces ≠ .layout '\n' :: more) : pieces.flatMap Piece.text = [] := by
  obtain ⟨⟨_, ends⟩, others⟩ := fitting
  rcases ends with nothing | newline
  · exact nothing
  · cases pieces with
    | nil => cases newline
    | cons piece more =>
        rw [List.flatMap_cons] at newline
        obtain rfl := eq_layout_of_newline others.1 newline
        exact absurd rfl (notFeed more)

theorem flatMap_text_withReturns {pieces : List Piece} (fitting : Fitting pieces) :
    (withReturns pieces).flatMap Piece.text = Text.withReturns (pieces.flatMap Piece.text) := by
  fun_induction withReturns pieces with
  | case1 => rfl
  | case2 body pieces ih =>
      obtain ⟨⟨oneLine, _⟩, _, fitting⟩ := fitting
      have line := Text.withReturns_comment oneLine
      simp only [List.flatMap_cons, ← List.append_assoc, ih fitting, Piece.text]
      rw [Text.withReturns_append, line]
  | case3 pieces ih =>
      obtain ⟨_, fitting⟩ := fitting
      simp [ih fitting, Piece.text]
  | case4 piece pieces _ inLine ih =>
      obtain ⟨fits, fitting⟩ := fitting
      rw [List.flatMap_cons, List.flatMap_cons, Text.withReturns_append, ih fitting,
        Piece.text_withReturns fits inLine]

theorem fitting_withReturns {pieces : List Piece} (fitting : Fitting pieces) :
    Fitting (withReturns pieces) := by
  fun_induction withReturns pieces with
  | case1 => exact trivial
  | case2 body pieces ih =>
      obtain ⟨⟨oneLine, _⟩, _, fitting⟩ := fitting
      refine ⟨⟨?_, Or.inr rfl⟩, rfl, ih fitting⟩
      simpa using oneLine
  | case3 pieces ih => exact ⟨rfl, rfl, ih fitting.2⟩
  | case4 piece pieces notComment _ ih =>
      refine ⟨?_, ih fitting.2⟩
      rw [flatMap_text_withReturns fitting.2]
      apply Piece.fits_withReturns fitting.1
      rintro body rfl
      exact fitting.last_comment (notComment body · rfl)

theorem cut_withReturns (source : Text) :
    cut (Text.withReturns source) = withReturns (cut source) := by
  have fitting := fitting_cut source
  refine cut_eq_iff.mpr ⟨?_, fitting_withReturns fitting⟩
  rw [flatMap_text_withReturns fitting, flatMap_text_cut]

/-! What is found in them. -/

/-- The token in the text with carriage returns: each end of its span comes behind the carriage
returns that are put in before it. -/
def Token.withReturns (source : Text) (t : Token) : Token where
  kind := t.kind
  lexeme := Text.withReturns t.lexeme
  literal := t.literal.map Literal.withReturns
  line := t.line
  span := ⟨t.span.start + Text.newlinesBefore source t.span.start,
    t.span.stop + Text.newlinesBefore source t.span.stop⟩

theorem endOf_past (before text : Text) : (endOf before).past text = endOf (before ++ text) :=
  (Position.past_append _ _ _).symm

section Found
variable {source before after : Text} {piece piece' : Piece}

theorem endOf_withReturns (t : Text) :
    endOf (Text.withReturns t) = ⟨(endOf t).offset + Text.newlines t, (endOf t).line⟩ := by
  have offset := endOf_offset (Text.withReturns t)
  have line := endOf_line (Text.withReturns t)
  rw [Text.byteLength_withReturns, ← endOf_offset] at offset
  rw [Text.newlines_withReturns, ← endOf_line] at line
  rw [← offset, ← line]

theorem newlinesBefore_endOf (before after : Text) :
    Text.newlinesBefore (before ++ after) (endOf before).offset = Text.newlines before := by
  rw [endOf_offset]
  exact Text.newlinesBefore_append before after

theorem token?_withReturns (whole : source = before ++ piece.text ++ after)
    (text : piece'.text = Text.withReturns piece.text)
    (reading : piece'.reading = piece.reading.withReturns) :
    piece'.token? (endOf (Text.withReturns before)) =
      (piece.token? (endOf before)).map (Token.withReturns source) := by
  have stop := newlinesBefore_endOf (before ++ piece.text) after
  have start := newlinesBefore_endOf before (piece.text ++ after)
  rw [← whole] at stop
  rw [← List.append_assoc, ← whole] at start
  rw [Piece.token?, Piece.token?, reading, text, endOf_past, endOf_past, ← Text.withReturns_append,
    endOf_withReturns, endOf_withReturns]
  cases piece.reading with
  | token kind literal => simp [Reading.withReturns, Token.withReturns, start, stop]
  | skipped => rfl
  | fault f => rfl

theorem diagnostic?_withReturns (text : piece'.text = Text.withReturns piece.text)
    (reading : piece'.reading = piece.reading.withReturns) :
    piece'.diagnostic? (endOf (Text.withReturns before)) = piece.diagnostic? (endOf before) := by
  rw [Piece.diagnostic?, Piece.diagnostic?, Piece.fault?, Piece.fault?, reading, text, endOf_past,
    endOf_past, ← Text.withReturns_append, endOf_withReturns]
  cases piece.reading <;> rfl

end Found

/-- From any place on, the tokens are those of the source, and so are the reports. -/
theorem found_withReturns {source : Text} {pieces : List Piece} (fitting : Fitting pieces) :
    ∀ before, source = before ++ pieces.flatMap Piece.text →
      tokensFrom (endOf (Text.withReturns before)) (withReturns pieces) =
          (tokensFrom (endOf before) pieces).map (Token.withReturns source) ∧
        diagnosticsFrom (endOf (Text.withReturns before)) (withReturns pieces) =
          diagnosticsFrom (endOf before) pieces := by
  fun_induction withReturns pieces with
  | case1 => exact fun _ _ => ⟨rfl, rfl⟩
  | case2 body pieces ih =>
      intro before whole
      obtain ⟨⟨oneLine, _⟩, _, fitting⟩ := fitting
      have whole' : source = before ++ ('/' :: '/' :: body ++ ['\n']) ++
          pieces.flatMap Piece.text := by simpa [Piece.text] using whole
      have found := ih fitting _ whole'
      rw [Text.withReturns_append, Text.withReturns_comment oneLine, ← endOf_past, ← endOf_past,
        Position.past_append, Position.past_append] at found
      exact found
  | case3 pieces ih =>
      intro before whole
      have whole' : source = before ++ ['\n'] ++ pieces.flatMap Piece.text := by
        simpa [Piece.text] using whole
      have found := ih fitting.2 _ whole'
      rw [Text.withReturns_append, ← endOf_past, ← endOf_past] at found
      exact found
  | case4 piece pieces _ inLine ih =>
      intro before whole
      obtain ⟨fits, fitting⟩ := fitting
      rw [List.flatMap_cons, ← List.append_assoc] at whole
      have text := Piece.text_withReturns fits inLine
      have reading := piece.reading_withReturns
      obtain ⟨tokens, diagnostics⟩ := ih fitting (before ++ piece.text) whole
      rw [tokensFrom_cons, tokensFrom_cons, diagnosticsFrom_cons, diagnosticsFrom_cons,
        token?_withReturns whole text reading, diagnostic?_withReturns text reading, text,
        endOf_past, endOf_past, ← Text.withReturns_append, tokens, diagnostics, List.map_append]
      refine ⟨?_, rfl⟩
      cases piece.token? (endOf before) <;> rfl

/-- With carriage returns before its line feeds a source has the same tokens and the same reports.
Only the texts of tokens and the values of strings have carriage returns as well, and spans are
moved. -/
theorem scan_withReturns (source : Text) :
    scan (Text.withReturns source) =
      ⟨(scan source).tokens.map (Token.withReturns source), (scan source).diagnostics⟩ := by
  obtain ⟨tokens, diagnostics⟩ :=
    found_withReturns (fitting_cut source) [] (flatMap_text_cut source).symm
  have last := newlinesBefore_endOf source []
  rw [List.append_nil] at last
  have tokens' : tokensOf (Text.withReturns source) =
      (tokensOf source).map (Token.withReturns source) := by
    rw [tokensOf, tokensOf, cut_withReturns, List.map_append]
    apply congrArg₂ _ tokens
    rw [endOf_withReturns]
    simp [Token.withReturns, Token.eof, last]
  have diagnostics' : diagnosticsOf (Text.withReturns source) = diagnosticsOf source := by
    rw [diagnosticsOf, diagnosticsOf, cut_withReturns]
    exact diagnostics
  rw [scan_eq, scan_eq, tokens', diagnostics']

end LoxLexer

import LoxLexer.Proofs.Spelling

/-!
# Tokens written without layout

A list of tokens is often scanned back even when nothing stands between them. The lists that are not
are known by their neighbours: a word takes in what goes on like a word, a number the digits behind
it, an operator an equals sign, a slash the second one of a comment, and a number without a point
takes in a point if digits come after it. Two neighbours tell in all cases but the last, where three
are needed (`scan_joined_iff`).
-/

namespace LoxLexer

open Grammar

/-- The lexemes in order, with nothing between them. -/
def joined (lexemes : List Lexeme) : Text := lexemes.flatMap Lexeme.text

/-- An identifier or a keyword. -/
def Kind.isWord : Kind → Bool
  | identifier | keyword _ => true
  | _ => false

/-- With these right behind it, the lexeme does not end where it should. -/
inductive RunsInto (u : Lexeme) : List Lexeme → Prop
  | word {v : Lexeme} {more : List Lexeme} (first : u.kind.isWord)
      (second : v.kind.isWord ∨ v.kind = .number) : RunsInto u (v :: more)
  | number {v : Lexeme} {more : List Lexeme} (first : u.kind = .number)
      (second : v.kind = .number) : RunsInto u (v :: more)
  | equalSign {v : Lexeme} {more : List Lexeme}
      (first : u.kind ∈ ([.bang, .equal, .less, .greater] : List Operator).map Kind.operator)
      (second : v.kind ∈ ([.equal, .equalEqual] : List Operator).map Kind.operator) :
      RunsInto u (v :: more)
  | comment {v : Lexeme} {more : List Lexeme} (first : u.kind = .operator .slash)
      (second : v.kind = .operator .slash) : RunsInto u (v :: more)
  | fraction {v w : Lexeme} {more : List Lexeme} (first : u.kind = .number)
      (noPoint : '.' ∉ u.text) (point : v.kind = .operator .dot) (digits : w.kind = .number) :
      RunsInto u (v :: w :: more)

/-- No lexeme of the list runs into those behind it. -/
def Apart (lexemes : List Lexeme) : Prop :=
  ∀ earlier u later, lexemes = earlier ++ u :: later → ¬ RunsInto u later

/-! A lexeme by itself is one piece. -/

/-- Written by itself, the lexeme is this piece. -/
structure Lexeme.IsPiece (w : Lexeme) (piece : Piece) : Prop where
  spelling : piece.spelling? = some (w.kind, w.text)
  fits : piece.Fits []

theorem Piece.spelling?_eq_some_iff {piece : Piece} {kind : Kind} {w : Text} :
    piece.spelling? = some (kind, w) ↔
      (∃ literal, piece.reading = .token kind literal) ∧ piece.text = w := by
  cases reading : piece.reading with
  | token found literal => simp [spelling?, reading]
  | skipped => simp [spelling?, reading]
  | fault f => simp [spelling?, reading]

theorem Piece.Fits.alone {piece : Piece} {after : Text} (fits : piece.Fits after) :
    piece.Fits [] := by
  refine fits.of_stopsLike ⟨fun _ _ _ => rfl, fun _ => rfl⟩ ?_ ?_
  · exact fun _ _ _ => Or.inl rfl
  · exact fun _ _ _ => rfl

namespace Lexeme

theorem exists_isPiece (w : Lexeme) : ∃ piece, w.IsPiece piece := by
  obtain ⟨piece, _, spelling, fits⟩ := w.spelled.exists_fits
  exact ⟨piece, spelling, fits⟩

theorem IsPiece.text {w : Lexeme} {piece : Piece} (h : w.IsPiece piece) : piece.text = w.text :=
  (Piece.spelling?_eq_some_iff.mp h.spelling).2

/-! What a lexeme starts with tells its kind. -/

theorem start_cases (w : Lexeme) :
    (∃ o, w.kind = .operator o ∧ w.text = o.spelling) ∨
    (w.kind.isWord ∧ ∃ c t, w.text = c :: t ∧ isWordStart c) ∨
    (w.kind = .number ∧ ∃ c t, w.text = c :: t ∧ c.isDigit) ∨
    (w.kind = .string ∧ ∃ t, w.text = '"' :: t) := by
  obtain ⟨kind, text, spelled⟩ := w
  cases kind with
  | operator o => exact Or.inl ⟨o, rfl, spelled⟩
  | identifier =>
      obtain ⟨c, t, rfl, start, _⟩ := (mem_word_iff.mp spelled.1).exists_cons
      exact Or.inr (Or.inl ⟨rfl, c, t, rfl, start⟩)
  | keyword k =>
      have isWord : IsWord text := (show text = k.spelling from spelled) ▸ isWord_spelling k
      obtain ⟨c, t, rfl, start, _⟩ := isWord.exists_cons
      exact Or.inr (Or.inl ⟨rfl, c, t, rfl, start⟩)
  | number =>
      refine Or.inr (Or.inr (Or.inl ⟨rfl, ?_⟩))
      rcases mem_number_iff.mp spelled with digits | ⟨whole, fraction, rfl, digits, _⟩
      · obtain ⟨c, t, rfl, digit, _⟩ := digits.exists_cons
        exact ⟨c, t, rfl, digit⟩
      · obtain ⟨c, t, rfl, digit, _⟩ := digits.exists_cons
        exact ⟨c, _, rfl, digit⟩
  | string =>
      obtain ⟨body, rfl, _⟩ := mem_string_iff.mp spelled
      exact Or.inr (Or.inr (Or.inr ⟨rfl, _, rfl⟩))
  | eof => exact spelled.elim

theorem beginsWith_wordChar_iff (w : Lexeme) :
    beginsWith isWordChar w.text ↔ w.kind.isWord ∨ w.kind = .number := by
  rcases w.start_cases with ⟨o, kind, text⟩ | ⟨kind, c, t, text, start⟩ |
    ⟨kind, c, t, text, digit⟩ | ⟨kind, t, text⟩
  · rw [kind, text]
    cases o <;> decide
  · simp [kind, text, isWordChar, start]
  · simp [kind, text, isWordChar, digit]
  · rw [kind, text, beginsWith_cons]
    decide

theorem beginsWith_digit_iff (w : Lexeme) :
    beginsWith Char.isDigit w.text ↔ w.kind = .number := by
  rcases w.start_cases with ⟨o, kind, text⟩ | ⟨kind, c, t, text, start⟩ |
    ⟨kind, c, t, text, digit⟩ | ⟨kind, t, text⟩
  · rw [kind, text]
    cases o <;> decide
  · have notNumber : w.kind ≠ .number := by
      intro number
      rw [number] at kind
      cases kind
    simp [notNumber, text, Piece.not_isDigit_of_isWordStart start]
  · simp [kind, text, digit]
  · rw [kind, text, beginsWith_cons]
    decide

theorem text_of_operator {w : Lexeme} {o : Operator} (kind : w.kind = .operator o) :
    w.text = o.spelling := by
  have spelled := w.spelled
  rw [kind] at spelled
  exact spelled

/-- Only operators start with a mark that starts no word, number or string. -/
theorem beginsWith_mark_iff {mark : Char} (notWord : isWordChar mark = false)
    (notQuote : mark ≠ '"') (w : Lexeme) : beginsWith (· == mark) w.text ↔
      ∃ o : Operator, w.kind = .operator o ∧ beginsWith (· == mark) o.spelling := by
  constructor
  · intro starts
    rcases w.start_cases with ⟨o, kind, text⟩ | ⟨kind, c, t, text, start⟩ |
      ⟨kind, c, t, text, digit⟩ | ⟨kind, t, text⟩
    · exact ⟨o, kind, text ▸ starts⟩
    · obtain rfl : c = mark := by simpa [text] using starts
      simp [isWordChar, start] at notWord
    · obtain rfl : c = mark := by simpa [text] using starts
      simp [isWordChar, digit] at notWord
    · obtain rfl : '"' = mark := by simpa [text] using starts
      exact absurd rfl notQuote
  · rintro ⟨o, kind, starts⟩
    rw [text_of_operator kind]
    exact starts

theorem beginsWith_equalSign_iff (w : Lexeme) : beginsWith (· == '=') w.text ↔
    w.kind ∈ ([.equal, .equalEqual] : List Operator).map Kind.operator := by
  rw [beginsWith_mark_iff rfl (by decide), List.mem_map]
  constructor
  · rintro ⟨o, kind, starts⟩
    refine ⟨o, ?_, kind.symm⟩
    cases o with
    | equal | equalEqual => decide
    | _ => cases starts
  · rintro ⟨o, mem, kind⟩
    refine ⟨o, kind.symm, ?_⟩
    rcases List.mem_pair.mp mem with rfl | rfl <;> rfl

/-- A mark that only one operator starts with tells that operator. -/
theorem beginsWith_only_iff {mark : Char} {o : Operator} (notWord : isWordChar mark = false)
    (notQuote : mark ≠ '"')
    (only : ∀ p : Operator, beginsWith (· == mark) p.spelling ↔ p = o) (w : Lexeme) :
    beginsWith (· == mark) w.text ↔ w.kind = .operator o := by
  rw [beginsWith_mark_iff notWord notQuote]
  constructor
  · rintro ⟨p, kind, starts⟩
    rw [kind, (only p).mp starts]
  · intro kind
    exact ⟨o, kind, (only o).mpr rfl⟩

theorem beginsWith_slash_iff (w : Lexeme) :
    beginsWith (· == '/') w.text ↔ w.kind = .operator .slash := by
  refine beginsWith_only_iff rfl (by decide) ?_ w
  intro p
  cases p <;> decide

theorem beginsWith_point_iff (w : Lexeme) :
    beginsWith (· == '.') w.text ↔ w.kind = .operator .dot := by
  refine beginsWith_only_iff rfl (by decide) ?_ w
  intro p
  cases p <;> decide

theorem text_ne_nil (w : Lexeme) : w.text ≠ [] := by
  obtain ⟨piece, isPiece⟩ := w.exists_isPiece
  exact isPiece.text ▸ isPiece.fits.text_ne_nil

end Lexeme

/-! What stands behind a lexeme starts with the next one, and a fraction with the next two. -/

theorem beginsWith_joined_iff {sort : Char → Bool} {lexemes : List Lexeme} :
    beginsWith sort (joined lexemes) ↔
      ∃ v more, lexemes = v :: more ∧ beginsWith sort v.text := by
  cases lexemes with
  | nil => simp [joined]
  | cons v more =>
      rw [joined, List.flatMap_cons, beginsWith_append v.text_ne_nil]
      simp

theorem beginsFraction_joined_iff {lexemes : List Lexeme} :
    beginsFraction (joined lexemes) ↔
      ∃ v w more, lexemes = v :: w :: more ∧ v.kind = .operator .dot ∧ w.kind = .number := by
  constructor
  · intro fraction
    cases lexemes with
    | nil => cases fraction
    | cons v more =>
        obtain ⟨c, t, text⟩ := List.exists_cons_of_ne_nil v.text_ne_nil
        have whole : joined (v :: more) = c :: (t ++ joined more) := by
          rw [joined, List.flatMap_cons, text]
          rfl
        rw [whole, beginsFraction_cons, Bool.and_eq_true] at fraction
        obtain ⟨point, digit⟩ := fraction
        have dot : v.kind = .operator .dot := by
          rw [← v.beginsWith_point_iff, text]
          exact point
        have alone : c :: t = ['.'] := text.symm.trans (Lexeme.text_of_operator dot)
        obtain ⟨rfl, rfl⟩ := List.cons.inj alone
        obtain ⟨w, more, rfl, starts⟩ := beginsWith_joined_iff.mp digit
        exact ⟨v, w, more, rfl, dot, w.beginsWith_digit_iff.mp starts⟩
  · rintro ⟨v, w, more, rfl, dot, number⟩
    have text : v.text = ['.'] := Lexeme.text_of_operator dot
    have digit : beginsWith Char.isDigit (joined (w :: more)) :=
      beginsWith_joined_iff.mpr ⟨w, more, rfl, w.beginsWith_digit_iff.mpr number⟩
    rw [joined, List.flatMap_cons, text]
    exact digit

/-- The operators that an equals sign makes longer. -/
theorem withEqual?_isSome_iff (o : Operator) : o.withEqual?.isSome ↔
    Kind.operator o ∈ ([.bang, .equal, .less, .greater] : List Operator).map Kind.operator := by
  cases o <;> decide

/-- A lexeme runs into those behind it where the text behind it goes on with it. -/
theorem runsInto_iff {u : Lexeme} {rest : List Lexeme} : RunsInto u rest ↔
    (u.kind.isWord ∧ beginsWith isWordChar (joined rest)) ∨
    (u.kind = .number ∧ (beginsWith Char.isDigit (joined rest) ∨
      ('.' ∉ u.text ∧ beginsFraction (joined rest)))) ∨
    (∃ o : Operator, u.kind = .operator o ∧
      ((o.withEqual?.isSome ∧ beginsWith (· == '=') (joined rest)) ∨
        (o = .slash ∧ beginsWith (· == '/') (joined rest)))) := by
  constructor
  · intro runs
    cases runs with
    | @word v more first second =>
        refine Or.inl ⟨first, beginsWith_joined_iff.mpr ⟨v, more, rfl, ?_⟩⟩
        exact v.beginsWith_wordChar_iff.mpr second
    | @number v more first second =>
        refine Or.inr (Or.inl ⟨first, Or.inl (beginsWith_joined_iff.mpr ⟨v, more, rfl, ?_⟩)⟩)
        exact v.beginsWith_digit_iff.mpr second
    | @equalSign v more first second =>
        obtain ⟨o, _, kind⟩ := List.mem_map.mp first
        rw [← kind, ← withEqual?_isSome_iff] at first
        refine Or.inr (Or.inr ⟨o, kind.symm, Or.inl ⟨first, ?_⟩⟩)
        exact beginsWith_joined_iff.mpr ⟨v, more, rfl, v.beginsWith_equalSign_iff.mpr second⟩
    | @comment v more first second =>
        refine Or.inr (Or.inr ⟨.slash, first, Or.inr ⟨rfl, ?_⟩⟩)
        exact beginsWith_joined_iff.mpr ⟨v, more, rfl, v.beginsWith_slash_iff.mpr second⟩
    | @fraction v w more first noPoint point digits =>
        refine Or.inr (Or.inl ⟨first, Or.inr ⟨noPoint, ?_⟩⟩)
        exact beginsFraction_joined_iff.mpr ⟨v, w, more, rfl, point, digits⟩
  · rintro (⟨first, begins⟩ | ⟨first, begins | ⟨noPoint, begins⟩⟩ |
      ⟨o, first, ⟨longer, begins⟩ | ⟨rfl, begins⟩⟩)
    · obtain ⟨v, more, rfl, second⟩ := beginsWith_joined_iff.mp begins
      exact .word first (v.beginsWith_wordChar_iff.mp second)
    · obtain ⟨v, more, rfl, second⟩ := beginsWith_joined_iff.mp begins
      exact .number first (v.beginsWith_digit_iff.mp second)
    · obtain ⟨v, w, more, rfl, point, digits⟩ := beginsFraction_joined_iff.mp begins
      exact .fraction first noPoint point digits
    · obtain ⟨v, more, rfl, second⟩ := beginsWith_joined_iff.mp begins
      rw [withEqual?_isSome_iff, ← first] at longer
      exact .equalSign longer (v.beginsWith_equalSign_iff.mp second)
    · obtain ⟨v, more, rfl, second⟩ := beginsWith_joined_iff.mp begins
      exact .comment first (v.beginsWith_slash_iff.mp second)

theorem point_mem_text_iff {n : Numeral} (fits : (Piece.number n).Fits []) :
    '.' ∈ n.text ↔ n.fraction.isSome := by
  obtain ⟨whole, fraction⟩ := n
  cases fraction with
  | none =>
      have noPoint : '.' ∉ whole := fun point => absurd (fits.1.2 _ point) (by decide)
      simp [Numeral.text, noPoint]
  | some fraction => simp [Numeral.text]

/-- The piece of a lexeme fits before others just where the lexeme does not run into them. -/
theorem Lexeme.IsPiece.fits_joined_iff {u : Lexeme} {piece : Piece} (h : u.IsPiece piece)
    (rest : List Lexeme) : piece.Fits (joined rest) ↔ ¬ RunsInto u rest := by
  obtain ⟨⟨literal, reading⟩, text⟩ := Piece.spelling?_eq_some_iff.mp h.spelling
  rw [runsInto_iff]
  cases piece with
  | operator o =>
      obtain ⟨kind, _⟩ := Reading.token.inj reading
      simp [← kind, Kind.isWord, Piece.Fits]
  | word w =>
      obtain ⟨kind, _⟩ := Reading.token.inj reading
      obtain ⟨isWord, _⟩ := h.fits
      rw [Kind.ofWord] at kind
      cases found : Keyword.ofSpelling? w with
      | some k =>
          rw [found] at kind
          simp [← kind, Kind.isWord, Piece.Fits, isWord]
      | none =>
          rw [found] at kind
          simp [← kind, Kind.isWord, Piece.Fits, isWord]
  | number n =>
      obtain ⟨kind, _⟩ := Reading.token.inj reading
      have point := point_mem_text_iff h.fits
      rw [show n.text = u.text from text] at point
      rw [point]
      obtain ⟨whole, fraction⟩ := n
      cases fraction with
      | none =>
          obtain ⟨digits, _⟩ := h.fits
          simp [← kind, Kind.isWord, Piece.Fits, digits]
      | some fraction =>
          obtain ⟨digits, more, _⟩ := h.fits
          simp [← kind, Kind.isWord, Piece.Fits, digits, more]
  | string body =>
      obtain ⟨kind, _⟩ := Reading.token.inj reading
      have closed : '"' ∉ body := h.fits
      simp [← kind, Kind.isWord, Piece.Fits, closed]
  | _ => cases reading

/-! Along the list. -/

theorem exists_forall₂_isPiece (lexemes : List Lexeme) :
    ∃ pieces, List.Forall₂ Lexeme.IsPiece lexemes pieces := by
  induction lexemes with
  | nil => exact ⟨[], .nil⟩
  | cons u lexemes ih =>
      obtain ⟨piece, isPiece⟩ := u.exists_isPiece
      obtain ⟨pieces, isPieces⟩ := ih
      exact ⟨piece :: pieces, .cons isPiece isPieces⟩

theorem apart_cons {u : Lexeme} {rest : List Lexeme} :
    Apart (u :: rest) ↔ ¬ RunsInto u rest ∧ Apart rest := by
  constructor
  · intro apart
    refine ⟨apart [] u rest rfl, ?_⟩
    rintro earlier v later rfl
    exact apart (u :: earlier) v later rfl
  · rintro ⟨first, others⟩ earlier v later whole
    cases earlier with
    | nil =>
        obtain ⟨rfl, rfl⟩ := List.cons.inj whole
        exact first
    | cons w earlier =>
        obtain ⟨rfl, there⟩ := List.cons.inj whole
        exact others earlier v later there

section Pieces
variable {lexemes : List Lexeme} {pieces : List Piece}

theorem flatMap_text_of_isPiece (h : List.Forall₂ Lexeme.IsPiece lexemes pieces) :
    pieces.flatMap Piece.text = joined lexemes := by
  induction h with
  | nil => rfl
  | cons first _ ih => rw [List.flatMap_cons, first.text, ih, joined, joined, List.flatMap_cons]

theorem fitting_iff_apart (h : List.Forall₂ Lexeme.IsPiece lexemes pieces) :
    Fitting pieces ↔ Apart lexemes := by
  induction h with
  | nil =>
      refine iff_of_true trivial ?_
      intro earlier u later whole
      exact absurd whole.symm (List.append_ne_nil_of_right_ne_nil _ (List.cons_ne_nil _ _))
  | cons first others ih =>
      rw [Fitting, apart_cons, ih, flatMap_text_of_isPiece others, first.fits_joined_iff]

theorem filterMap_of_isPiece (h : List.Forall₂ Lexeme.IsPiece lexemes pieces) :
    pieces.filterMap Piece.spelling? = lexemes.map (fun w => (w.kind, w.text)) ∧
      pieces.filterMap Piece.fault? = [] := by
  induction h with
  | nil => exact ⟨rfl, rfl⟩
  | cons first _ ih =>
      obtain ⟨spellings, faults⟩ := ih
      constructor
      · rw [List.filterMap_cons_some first.spelling, spellings, List.map_cons]
      · rw [List.filterMap_cons_none (Piece.fault?_of_spelling? first.spelling), faults]

theorem Fitting.alone (h : Fitting pieces) : ∀ piece ∈ pieces, piece.Fits [] := by
  induction pieces with
  | nil => exact fun _ member => nomatch member
  | cons piece pieces ih => exact List.forall_mem_cons.mpr ⟨h.1.alone, ih h.2⟩

/-- The texts of all tokens are found in the source one after the other. -/
theorem flatMap_spelling_sublist (pieces : List Piece) :
    ((pieces.filterMap Piece.spelling?).flatMap Prod.snd).Sublist (pieces.flatMap Piece.text) := by
  induction pieces with
  | nil => exact .slnil
  | cons piece pieces ih =>
      rw [List.flatMap_cons]
      cases found : piece.spelling? with
      | none =>
          rw [List.filterMap_cons_none found]
          exact ih.trans (List.sublist_append_right _ _)
      | some spelling =>
          obtain ⟨kind, text⟩ := spelling
          obtain ⟨_, rfl⟩ := Piece.spelling?_eq_some_iff.mp found
          rw [List.filterMap_cons_some found, List.flatMap_cons]
          exact ih.append_left _

/-- If the lexemes are all that is spelled by some pieces and also all that is written there, then
each of them is one of these pieces: there is no room for a piece without a token. -/
theorem isPiece_of_spellings (fits : ∀ piece ∈ pieces, piece.Fits [])
    (spellings : pieces.filterMap Piece.spelling? = lexemes.map (fun w => (w.kind, w.text)))
    (whole : pieces.flatMap Piece.text = joined lexemes) :
    List.Forall₂ Lexeme.IsPiece lexemes pieces := by
  induction pieces generalizing lexemes with
  | nil =>
      obtain rfl := List.map_eq_nil_iff.mp spellings.symm
      exact .nil
  | cons piece pieces ih =>
      obtain ⟨alone, fits⟩ := List.forall_mem_cons.mp fits
      rw [List.flatMap_cons] at whole
      cases found : piece.spelling? with
      | none =>
          rw [List.filterMap_cons_none found] at spellings
          have room := (flatMap_spelling_sublist pieces).length_le
          rw [spellings, List.flatMap_map] at room
          change (joined lexemes).length ≤ _ at room
          have filled := congrArg List.length whole
          rw [List.length_append] at filled
          have nonempty := List.length_pos_iff.mpr alone.text_ne_nil
          omega
      | some spelling =>
          rw [List.filterMap_cons_some found] at spellings
          obtain ⟨u, more, rfl, rfl, others⟩ := List.map_eq_cons_iff.mp spellings.symm
          have isPiece : u.IsPiece piece := ⟨found, alone⟩
          rw [joined, List.flatMap_cons, isPiece.text] at whole
          exact .cons isPiece (ih fits others.symm (List.append_cancel_left whole))

end Pieces

theorem map_tokens_scan_iff {source : Text} {spellings : List (Kind × Text)} :
    (scan source).tokens.map (fun t => (t.kind, t.lexeme)) = spellings ++ [(.eof, [])] ↔
      (cut source).filterMap Piece.spelling? = spellings := by
  rw [scan_eq, tokensOf, List.map_append, map_tokensFrom]
  exact List.append_left_inj [(Kind.eof, [])]

theorem diagnostics_scan_eq_nil_iff {source : Text} :
    (scan source).diagnostics = [] ↔ (cut source).filterMap Piece.fault? = [] := by
  have messages := map_message_diagnosticsFrom Position.start (cut source)
  have same := congrArg (· = []) messages
  simpa [scan_eq, diagnosticsOf] using same

/-- The lexemes are scanned as they were written exactly if none of them runs into those behind
it. -/
theorem scan_joined_iff (lexemes : List Lexeme) :
    ((scan (joined lexemes)).diagnostics = [] ∧
      (scan (joined lexemes)).tokens.map (fun t => (t.kind, t.lexeme)) =
        lexemes.map (fun w => (w.kind, w.text)) ++ [(.eof, [])]) ↔ Apart lexemes := by
  rw [diagnostics_scan_eq_nil_iff, map_tokens_scan_iff]
  constructor
  · rintro ⟨_, spellings⟩
    have fitting := fitting_cut (joined lexemes)
    have isPieces := isPiece_of_spellings fitting.alone spellings (flatMap_text_cut _)
    exact (fitting_iff_apart isPieces).mp fitting
  · intro apart
    obtain ⟨pieces, isPieces⟩ := exists_forall₂_isPiece lexemes
    obtain ⟨spellings, faults⟩ := filterMap_of_isPiece isPieces
    have fitting := (fitting_iff_apart isPieces).mpr apart
    have cutInto : cut (joined lexemes) = pieces :=
      cut_eq_iff.mpr ⟨flatMap_text_of_isPiece isPieces, fitting⟩
    rw [cutInto]
    exact ⟨faults, spellings⟩

end LoxLexer

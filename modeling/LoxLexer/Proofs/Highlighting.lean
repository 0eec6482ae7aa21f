import LoxLexer.Highlight
import LoxLexer.Proofs.Screen
import LoxLexer.Proofs.Seam

/-!
# Highlighted lines

A highlighted line is the line itself, in colours: a terminal shows its characters in order, each in
the look of the token that it stands in, and all others plainly (`highlight_shows`). It does not
matter whether the colours go to the pieces of the line or whether the tokens are sliced out of the
line by their spans, with what lies between them copied; no slice fails.

The line must not hold the escape character. A control sequence in the line would be obeyed like
those around it.
-/

namespace LoxLexer

/-- Paints the tokens of a line in order, and copies what lies before each of them and behind the
last. The copy has come as far as `last`; a slice that is not there fails. -/
def paintTokens? (line : Text) (last : Nat) : List Token → Option Text
  | [] => Text.slice? line last (Text.byteLength line)
  | t :: tokens => do
      let between ← Text.slice? line last t.span.start
      let lexeme ← Text.slice? line t.span.start t.span.stop
      let rest ← paintTokens? line t.span.stop tokens
      some (between ++ t.kind.style.paint lexeme ++ rest)

/-- The byte at this offset is in the span. -/
def Span.Covers (s : Span) (offset : Nat) : Prop := s.start ≤ offset ∧ offset < s.stop

/-- What stands at the offset has the look of the token there, and is plain where there is none. -/
structure DressedAt (tokens : List Token) (offset : Nat) (look : Look) : Prop where
  inside : ∀ t ∈ tokens, t.span.Covers offset → look = t.kind.style.look
  outside : (∀ t ∈ tokens, ¬ t.span.Covers offset) → look = .plain

/-- The characters of the line in order, each dressed as the tokens of the line demand. -/
structure Dressed (line : Text) (shown : List (Char × Look)) : Prop where
  characters : shown.map Prod.fst = line
  looks : ∀ before c after, line = before ++ c :: after →
    ∃ look, shown[before.length]? = some (c, look) ∧
      DressedAt (scan line).tokens (Text.byteLength before) look

namespace Piece
variable {piece : Piece} {p : Position}

theorem style_of_token? {t : Token} (found : piece.token? p = some t) :
    piece.style = t.kind.style := by
  obtain ⟨kind, literal, reading, rfl⟩ := token?_eq_some_iff.mp found
  rw [style, reading]

theorem style_of_silent (silent : piece.token? p = none) : piece.style = .plain := by
  cases reading : piece.reading with
  | token kind literal =>
      rw [token?, reading] at silent
      cases silent
  | skipped => rw [style, reading]
  | fault f => rw [style, reading]

end Piece

/-- The pieces of a line, each in its style. -/
def styledPieces (pieces : List Piece) : Styled := pieces.map fun piece => (piece.style, piece.text)

theorem paint_styledPieces_cons (piece : Piece) (pieces : List Piece) :
    (styledPieces (piece :: pieces)).paint =
      piece.style.paint piece.text ++ (styledPieces pieces).paint :=
  Styled.paint_cons _ _

theorem highlightTokens_eq (line : Text) : highlightTokens line = (styledPieces (cut line)).paint :=
  rfl

/-! Copying the line. -/

section Copy
variable {line : Text}

theorem slice?_between {before text after : Text} {start stop : Nat}
    (whole : line = before ++ text ++ after) (first : Text.byteLength before = start)
    (last : Text.byteLength (before ++ text) = stop) :
    Text.slice? line start stop = some text :=
  Text.slice?_eq_some_iff.mpr ⟨before, after, whole, first, last⟩

theorem paintTokens?_cons {t : Token} {tokens : List Token} {last : Nat}
    {between lexeme rest : Text} (copied : Text.slice? line last t.span.start = some between)
    (sliced : Text.slice? line t.span.start t.span.stop = some lexeme)
    (painted : paintTokens? line t.span.stop tokens = some rest) :
    paintTokens? line last (t :: tokens) =
      some (between ++ t.kind.style.paint lexeme ++ rest) := by
  rw [paintTokens?, copied, sliced, painted]
  rfl

theorem paintTokens?_end (endLine : Nat) {before between : Text}
    (whole : line = before ++ between) :
    paintTokens? line (Text.byteLength before) [Token.eof endLine (Text.byteLength line)] =
      some between := by
  have copied : Text.slice? line (Text.byteLength before) (Text.byteLength line) = some between :=
    slice?_between (by rw [whole, List.append_nil]) rfl (by rw [whole])
  have nothing : Text.slice? line (Text.byteLength line) (Text.byteLength line) = some [] :=
    slice?_between (by rw [List.append_nil, List.append_nil]) rfl (by rw [List.append_nil])
  have behind : paintTokens? line (Text.byteLength line) [] = some [] := nothing
  have painted : paintTokens? line _ [Token.eof endLine (Text.byteLength line)] = _ :=
    paintTokens?_cons copied nothing behind
  rw [painted]
  change some (between ++ [] ++ []) = some between
  rw [List.append_nil, List.append_nil]

/-- When the copy has come to the end of `before`, the rest is what lies between there and the first
of the pieces, and the pieces in their styles. Pieces that are no tokens go to what lies between. -/
theorem paintTokens?_pieces (endLine : Nat) {pieces : List Piece} (before between : Text)
    (p : Position) (whole : line = before ++ between ++ pieces.flatMap Piece.text)
    (here : p.offset = Text.byteLength (before ++ between)) :
    paintTokens? line (Text.byteLength before)
        (tokensFrom p pieces ++ [Token.eof endLine (Text.byteLength line)]) =
      some (between ++ (styledPieces pieces).paint) := by
  induction pieces generalizing before between p with
  | nil =>
      rw [List.flatMap_nil, List.append_nil] at whole
      have painted := paintTokens?_end endLine whole
      rw [tokensFrom_nil, List.nil_append, painted]
      exact congrArg some (List.append_nil between).symm
  | cons piece pieces ih =>
      have whole' : line = before ++ between ++ piece.text ++ pieces.flatMap Piece.text := by
        rw [whole, List.flatMap_cons, List.append_assoc (before ++ between)]
      have there : (p.past piece.text).offset =
          Text.byteLength (before ++ between ++ piece.text) := by
        rw [Position.past_offset, here, ← Text.byteLength_append]
      rw [tokensFrom_cons, paint_styledPieces_cons]
      cases found : piece.token? p with
      | none =>
          have wider := ih before (between ++ piece.text) (p.past piece.text)
            (by rw [whole', List.append_assoc before]) (by rw [there, List.append_assoc])
          rw [Piece.style_of_silent found]
          simpa [Style.paint, Style.opening, Style.closing] using wider
      | some t =>
          have style := Piece.style_of_token? found
          obtain ⟨kind, literal, _, rfl⟩ := Piece.token?_eq_some_iff.mp found
          have copied : Text.slice? line (Text.byteLength before) p.offset = some between :=
            slice?_between (by rw [whole]) rfl here.symm
          have sliced : Text.slice? line p.offset (p.past piece.text).offset = some piece.text :=
            slice?_between whole' here.symm there.symm
          have behind := ih (before ++ between ++ piece.text) [] (p.past piece.text)
            (by rw [whole', List.append_nil]) (by rw [there, List.append_nil])
          rw [← there, List.nil_append] at behind
          rw [style, ← List.append_assoc]
          exact paintTokens?_cons copied sliced behind

theorem paintTokens?_scan (line : Text) :
    paintTokens? line 0 (scan line).tokens = some (highlightTokens line) := by
  have whole : line = [] ++ [] ++ (cut line).flatMap Piece.text := (flatMap_text_cut line).symm
  have painted := paintTokens?_pieces (endOf line).line [] [] Position.start whole rfl
  rw [scan_eq, tokensOf, endOf_offset, highlightTokens_eq]
  exact painted

end Copy

/-! The look of each character. -/

/-- A character of two texts in a row is in the first of them or in the second. -/
theorem split_at_char {s t before after : Text} {c : Char} (whole : s ++ t = before ++ c :: after) :
    (∃ back, s = before ++ c :: back) ∨ ∃ front, before = s ++ front ∧ t = front ++ c :: after := by
  rcases List.append_eq_append_iff.mp whole with ⟨front, split, rest⟩ | ⟨back, split, rest⟩
  · exact Or.inr ⟨front, split, rest⟩
  · cases back with
    | nil => exact Or.inr ⟨[], by simpa using split.symm, rest.symm⟩
    | cons d back =>
        obtain ⟨rfl, _⟩ := List.cons.inj rest
        exact Or.inl ⟨back, split⟩

/-- A character of a line stands in one of its pieces, behind the pieces before that one. -/
theorem exists_piece_at {pieces : List Piece} {before after : Text} {c : Char}
    (whole : pieces.flatMap Piece.text = before ++ c :: after) :
    ∃ earlier piece later front back, pieces = earlier ++ piece :: later ∧
      before = earlier.flatMap Piece.text ++ front ∧ piece.text = front ++ c :: back := by
  induction pieces generalizing before with
  | nil => cases before <;> cases whole
  | cons piece pieces ih =>
      rcases split_at_char whole with ⟨back, text⟩ | ⟨front, rfl, rest⟩
      · exact ⟨[], piece, pieces, before, back, rfl, rfl, text⟩
      · obtain ⟨earlier, here, later, front, back, rfl, rfl, text⟩ := ih rest
        refine ⟨piece :: earlier, here, later, front, back, rfl, ?_, text⟩
        rw [List.flatMap_cons, List.append_assoc]

theorem stop_le_offset {p : Position} {pieces : List Piece} {t : Token}
    (h : t ∈ tokensFrom p pieces) : t.span.stop ≤ (p.past (pieces.flatMap Piece.text)).offset := by
  obtain ⟨earlier, piece, later, rfl, found⟩ := exists_of_mem_tokensFrom _ _ h
  obtain ⟨_, _, _, rfl⟩ := Piece.token?_eq_some_iff.mp found
  simp only [Position.past_offset, List.flatMap_append, List.flatMap_cons, Text.byteLength_append]
  omega

section Look
variable {line : Text} {earlier later : List Piece} {piece : Piece} {t : Token}

theorem mem_tokens_iff (pieces : cut line = earlier ++ piece :: later) :
    t ∈ (scan line).tokens ↔
      t ∈ tokensFrom Position.start earlier ∨
      piece.token? (endOf (earlier.flatMap Piece.text)) = some t ∨
      t ∈ tokensFrom ((endOf (earlier.flatMap Piece.text)).past piece.text) later ∨
      t = Token.eof (endOf line).line (endOf line).offset := by
  rw [scan_eq, tokensOf, pieces, tokensFrom_append, tokensFrom_cons]
  simp [endOf]

/-- A token of the line ends before a piece, or is the token of the piece, or begins behind it. -/
theorem before_or_behind (pieces : cut line = earlier ++ piece :: later)
    (h : t ∈ (scan line).tokens) :
    t.span.stop ≤ Text.byteLength (earlier.flatMap Piece.text) ∨
      piece.token? (endOf (earlier.flatMap Piece.text)) = some t ∨
      Text.byteLength (earlier.flatMap Piece.text ++ piece.text) ≤ t.span.start := by
  have start := endOf_offset (earlier.flatMap Piece.text)
  rw [Text.byteLength_append, ← start]
  rcases (mem_tokens_iff pieces).mp h with h | h | h | rfl
  · exact Or.inl (stop_le_offset h)
  · exact Or.inr (Or.inl h)
  · exact Or.inr (Or.inr (offset_le_start _ _ h))
  · have whole := flatMap_text_cut line
    rw [pieces, List.flatMap_append, List.flatMap_cons] at whole
    have lengths := congrArg Text.byteLength whole
    simp only [Text.byteLength_append] at lengths
    right
    right
    change _ ≤ (endOf line).offset
    rw [start, endOf_offset]
    omega

/-- Inside a piece the look is that of its token, since all other tokens are before or behind. -/
theorem dressedAt_piece {front back : Text} {c : Char}
    (pieces : cut line = earlier ++ piece :: later) (text : piece.text = front ++ c :: back) :
    DressedAt (scan line).tokens (Text.byteLength (earlier.flatMap Piece.text ++ front))
      piece.style.look := by
  have size := c.utf8Size_pos
  have length := congrArg Text.byteLength text
  simp only [Text.byteLength_append, Text.byteLength_cons] at length ⊢
  constructor
  case inside =>
    rintro t member ⟨start, stop⟩
    rcases before_or_behind pieces member with ended | found | later
    · omega
    · rw [Piece.style_of_token? found]
    · rw [Text.byteLength_append] at later
      omega
  case outside =>
    intro uncovered
    cases found : piece.token? (endOf (earlier.flatMap Piece.text)) with
    | none =>
        rw [Piece.style_of_silent found]
        rfl
    | some t =>
        have member : t ∈ (scan line).tokens := (mem_tokens_iff pieces).mpr (Or.inr (Or.inl found))
        refine absurd ?_ (uncovered t member)
        obtain ⟨_, _, _, rfl⟩ := Piece.token?_eq_some_iff.mp found
        have here := endOf_offset (earlier.flatMap Piece.text)
        constructor
        · change (endOf (earlier.flatMap Piece.text)).offset ≤ _
          omega
        · change _ < (endOf (earlier.flatMap Piece.text)).offset + Text.byteLength piece.text
          omega

end Look

/-- The characters of some pieces, each in the style of its piece. -/
def shownPieces (pieces : List Piece) : List (Char × Look) :=
  pieces.flatMap fun piece => piece.text.map fun c => (c, piece.style.look)

theorem map_fst_shownPieces (pieces : List Piece) :
    (shownPieces pieces).map Prod.fst = pieces.flatMap Piece.text := by
  simp [shownPieces, List.map_flatMap, Function.comp_def]

theorem dressed_shownPieces (line : Text) : Dressed line (shownPieces (cut line)) := by
  have whole := flatMap_text_cut line
  constructor
  case characters => rw [map_fst_shownPieces, whole]
  case looks =>
    intro before c after split
    obtain ⟨earlier, piece, later, front, back, pieces, rfl, text⟩ :=
      exists_piece_at (whole.trans split)
    refine ⟨piece.style.look, ?_, dressedAt_piece pieces text⟩
    have passed : (shownPieces earlier).length = (earlier.flatMap Piece.text).length := by
      rw [← map_fst_shownPieces, List.length_map]
    have shown : shownPieces (cut line) = shownPieces earlier ++
        (front.map (fun d => (d, piece.style.look)) ++ (c, piece.style.look) ::
          (back.map (fun d => (d, piece.style.look)) ++ shownPieces later)) := by
      rw [pieces]
      simp [shownPieces, text]
    rw [shown, List.length_append, List.getElem?_append_right (by omega), passed,
      Nat.add_sub_cancel_left, List.getElem?_append_right (by rw [List.length_map]),
      List.length_map, Nat.sub_self]
    rfl

/-! The whole line. -/

theorem escape_not_mem_runs {line : Text} (noEscape : '\x1b' ∉ line) :
    ∀ run ∈ styledPieces (cut line), '\x1b' ∉ run.2 := by
  intro run member inside
  obtain ⟨piece, inCut, rfl⟩ := List.mem_map.mp member
  have inLine : '\x1b' ∈ (cut line).flatMap Piece.text :=
    List.mem_flatMap.mpr ⟨piece, inCut, inside⟩
  rw [flatMap_text_cut] at inLine
  exact noEscape inLine

theorem ofText_highlightTokens {line : Text} (noEscape : '\x1b' ∉ line) :
    Screen.ofText (highlightTokens line) = .showing .plain (shownPieces (cut line)) := by
  have runs := escape_not_mem_runs noEscape
  rw [highlightTokens_eq, Screen.ofText, Screen.read_runs runs, List.nil_append, styledPieces,
    List.flatMap_map]
  rfl

theorem uncolored_highlightTokens {line : Text} (noEscape : '\x1b' ∉ line) :
    Text.uncolored false (highlightTokens line) = line := by
  have runs := escape_not_mem_runs noEscape
  rw [highlightTokens_eq, Text.uncolored_runs runs, Styled.text, styledPieces, List.flatMap_map]
  exact flatMap_text_cut line

theorem uncolored_painted (s : Style) {line : Text} (noEscape : '\x1b' ∉ line) :
    Text.uncolored false (s.paint line) = line := by
  have painted := Text.uncolored_paint s noEscape []
  rwa [List.append_nil, Text.uncolored, List.append_nil] at painted

/-- A terminal shows of a highlighted line the characters of the line in order, each in the style of
the token it stands in and otherwise plainly, and of a command all of them in magenta; behind the
line it is plain again. The line can be coloured token by token, for no slice fails, and without the
colours it is what it was. -/
theorem highlight_shows {line : Text} (noEscape : '\x1b' ∉ line) :
    paintTokens? line 0 (scan line).tokens = some (highlightTokens line) ∧
    (∃ shown, Screen.ofText (highlightTokens line) = .showing .plain shown ∧ Dressed line shown) ∧
    (Command.parse? line = none → highlight line = highlightTokens line) ∧
    ((Command.parse? line).isSome → Screen.ofText (highlight line) =
      .showing .plain (line.map fun c => (c, ⟨some Color.magenta.code, false, false⟩))) ∧
    Text.uncolored false (highlightTokens line) = line ∧
    Text.uncolored false (highlight line) = line := by
  have uncolored := uncolored_highlightTokens noEscape
  refine ⟨paintTokens?_scan line, ?_, ?_, ?_, uncolored, ?_⟩
  · exact ⟨shownPieces (cut line), ofText_highlightTokens noEscape, dressed_shownPieces line⟩
  · intro noCommand
    rw [highlight, noCommand]
    rfl
  · intro command
    rw [highlight, if_pos command]
    exact Screen.read_paint (.colored .magenta) noEscape
  · by_cases command : (Command.parse? line).isSome
    · rw [highlight, if_pos command]
      exact uncolored_painted _ noEscape
    · rw [highlight, if_neg command]
      exact uncolored

/-- A keyword, a stray character of two bytes and a string. -/
def mixedLine : Text := "if é\"x\"".toList

theorem mixedLine_shown :
    let bold : Look := ⟨some 35, true, false⟩
    let green : Look := ⟨some 32, false, false⟩
    let magenta : Look := ⟨some 35, false, false⟩
    let shown := [('i', bold), ('f', bold), (' ', .plain), ('é', .plain), ('"', green),
      ('x', green), ('"', green)]
    ('\x1b' ∉ mixedLine ∧ Screen.ofText (highlight mixedLine) = .showing .plain shown ∧
      Dressed mixedLine shown ∧
      paintTokens? mixedLine 0 (scan mixedLine).tokens = some (highlight mixedLine) ∧
      Text.uncolored false (highlight mixedLine) = mixedLine) ∧
    (Command.parse? " .Q".toList).isSome ∧ Screen.ofText (highlight " .Q".toList) =
      .showing .plain [(' ', magenta), ('.', magenta), ('Q', magenta)] := by
  intro bold green magenta shown
  have noEscape : '\x1b' ∉ mixedLine := by decide
  have noCommand : Command.parse? mixedLine = none := by decide +kernel
  have command : (Command.parse? " .Q".toList).isSome := by decide +kernel
  obtain ⟨copied, ⟨others, ofText, dressed⟩, asTokens, _, _, uncolored⟩ := highlight_shows noEscape
  have noEscape' : '\x1b' ∉ " .Q".toList := by decide
  obtain ⟨_, _, _, asCommand, _, _⟩ := highlight_shows noEscape'
  have played : Screen.ofText (highlightTokens mixedLine) = .showing .plain shown := by
    decide +kernel
  obtain rfl : others = shown := congrArg Screen.shown (ofText.symm.trans played)
  rw [asTokens noCommand] at uncolored ⊢
  exact ⟨⟨noEscape, played, dressed, copied, uncolored⟩, command, asCommand command⟩

end LoxLexer

import LoxLexer.Proofs.Fit
import LoxLexer.Proofs.Walk

/-!
# Seams

A source is scanned in two parts as in one go where it is cut between two of its pieces: the second
part only has to be moved past the first (`scan_append_of_cut`). Either end of a token is such a
place (`scan_at_token_edge`). Other places may split a token, and are not spoken of here.
-/

namespace LoxLexer

section Starts
variable {p : Char → Bool} {s : Text}

theorem beginsWith_append (h : s ≠ []) (t : Text) : beginsWith p (s ++ t) = beginsWith p s := by
  obtain ⟨c, s, rfl⟩ := List.exists_cons_of_ne_nil h
  rfl

/-- Two characters tell whether a fraction begins. -/
theorem beginsFraction_append (h : 2 ≤ s.length) (t : Text) :
    beginsFraction (s ++ t) = beginsFraction s := by
  rcases s with _ | ⟨c, _ | ⟨d, s⟩⟩
  · simp at h
  · simp at h
  · rw [List.cons_append, beginsFraction_cons, beginsFraction_cons]
    rfl

end Starts

/-- What does not go on with the one text does not go on with the other: no operator, no word and no
number. -/
structure StopsLike (after other : Text) : Prop where
  starts : ∀ sort : Char → Bool, (∀ c, isLayout c → sort c = false) →
    beginsWith sort after = false → beginsWith sort other = false
  fraction : beginsFraction after = false → beginsFraction other = false

/-- The line is at its end. -/
def LineEnds (t : Text) : Prop := t = [] ∨ beginsWith (· == '\n') t

theorem isWordChar_of_isLayout {c : Char} (h : isLayout c) : isWordChar c = false := by
  refine Bool.eq_false_iff.mpr ?_
  intro wordChar
  exact Bool.false_ne_true ((Piece.of_isWordChar wordChar).1.symm.trans h)

theorem isDigit_of_isLayout {c : Char} (h : isLayout c) : c.isDigit = false := by
  have notWordChar := isWordChar_of_isLayout h
  rw [isWordChar, Bool.or_eq_false_iff] at notWordChar
  exact notWordChar.2

theorem beq_of_isLayout {d : Char} (hd : isLayout d = false) {c : Char} (h : isLayout c) :
    (c == d) = false := by
  refine beq_eq_false_iff_ne.mpr ?_
  rintro rfl
  exact Bool.false_ne_true (hd.symm.trans h)

/-- A piece fits before another text that stops it as well. A comment needs the end of a line there,
and an open string the end of all text. -/
theorem Piece.Fits.of_stopsLike {piece : Piece} {after other : Text} (fits : piece.Fits after)
    (stops : StopsLike after other)
    (comment : ∀ body, piece = .comment body → LineEnds after → LineEnds other)
    (openString : ∀ body, piece = .openString body → after = [] → other = []) :
    piece.Fits other := by
  cases piece with
  | operator o =>
      obtain ⟨short, single⟩ := fits
      constructor
      · intro longer
        exact stops.starts _ (fun _ => beq_of_isLayout rfl) (short longer)
      · intro slash
        exact stops.starts _ (fun _ => beq_of_isLayout rfl) (single slash)
  | word w =>
      obtain ⟨isWord, stop⟩ := fits
      exact ⟨isWord, stops.starts _ (fun _ => isWordChar_of_isLayout) stop⟩
  | number n =>
      obtain ⟨whole, fraction⟩ := n
      cases fraction with
      | none =>
          obtain ⟨digits, stop, noFraction⟩ := fits
          have stop' := stops.starts _ (fun _ => isDigit_of_isLayout) stop
          exact ⟨digits, stop', stops.fraction noFraction⟩
      | some fraction =>
          obtain ⟨digits, more, stop⟩ := fits
          exact ⟨digits, more, stops.starts _ (fun _ => isDigit_of_isLayout) stop⟩
  | string body => exact fits
  | comment body =>
      obtain ⟨oneLine, stop⟩ := fits
      exact ⟨oneLine, comment body rfl stop⟩
  | layout c => exact fits
  | unexpected c => exact fits
  | openString body =>
      obtain ⟨closed, ended⟩ := fits
      exact ⟨closed, openString body rfl ended⟩

/-- A text stops at its beginning what it stops as a whole. -/
theorem stopsLike_of_append (s t : Text) : StopsLike (s ++ t) s := by
  rcases s with _ | ⟨c, s⟩
  · exact ⟨fun _ _ _ => rfl, fun _ => rfl⟩
  · refine ⟨fun _ _ h => h, fun h => ?_⟩
    rcases s with _ | ⟨d, s⟩
    · rw [beginsFraction_cons, beginsWith_nil, Bool.and_false]
    · rwa [beginsFraction_append (Nat.le_add_left 2 _)] at h

/-! Pieces that follow each other before a text. -/

/-- Every piece fits before the texts of those that follow it and what comes after them all. -/
def FittingBefore (after : Text) : List Piece → Prop
  | [] => True
  | piece :: pieces =>
      piece.Fits (pieces.flatMap Piece.text ++ after) ∧ FittingBefore after pieces

theorem fittingBefore_nil {pieces : List Piece} : FittingBefore [] pieces ↔ Fitting pieces := by
  induction pieces with
  | nil => exact Iff.rfl
  | cons piece pieces ih => rw [FittingBefore, Fitting, ih, List.append_nil]

theorem fittingBefore_append {after : Text} {earlier later : List Piece} :
    FittingBefore after (earlier ++ later) ↔
      FittingBefore (later.flatMap Piece.text ++ after) earlier ∧ FittingBefore after later := by
  induction earlier with
  | nil => exact (and_iff_right trivial).symm
  | cons piece earlier ih =>
      rw [List.cons_append, FittingBefore, FittingBefore, ih, List.flatMap_append,
        List.append_assoc, and_assoc]

theorem fitting_append {earlier later : List Piece} :
    Fitting (earlier ++ later) ↔
      FittingBefore (later.flatMap Piece.text) earlier ∧ Fitting later := by
  rw [← fittingBefore_nil, fittingBefore_append, List.append_nil, fittingBefore_nil]

theorem LineEnds.append {after other : Text} (h : LineEnds after → LineEnds other) (s : Text) :
    LineEnds (s ++ after) → LineEnds (s ++ other) := by
  cases s with
  | nil => exact h
  | cons c s => exact fun ends => Or.inr (ends.resolve_left (List.cons_ne_nil _ _))

theorem FittingBefore.of_stopsLike {after other : Text} {pieces : List Piece}
    (fitting : FittingBefore after pieces) (stops : ∀ t, StopsLike (t ++ after) (t ++ other))
    (comment : ∀ body, .comment body ∈ pieces → LineEnds after → LineEnds other)
    (openString : ∀ body, .openString body ∈ pieces → after = [] → other = []) :
    FittingBefore other pieces := by
  induction pieces with
  | nil => exact trivial
  | cons piece pieces ih =>
      -- Between a piece and `after` stand the texts of the later pieces: hence every `t` in `stops`.
      obtain ⟨fits, fitting⟩ := fitting
      refine ⟨fits.of_stopsLike (stops _) ?_ ?_, ih fitting ?_ ?_⟩
      · rintro body rfl
        exact LineEnds.append (comment body List.mem_cons_self) _
      · rintro body rfl nothing
        obtain ⟨none, nothing⟩ := List.append_eq_nil_iff.mp nothing
        exact List.append_eq_nil_iff.mpr ⟨none, openString body List.mem_cons_self nothing⟩
      · exact fun body h => comment body (List.mem_cons_of_mem _ h)
      · exact fun body h => openString body (List.mem_cons_of_mem _ h)

/-- Without the text after them the pieces fit too. -/
theorem FittingBefore.fitting {after : Text} {pieces : List Piece}
    (fitting : FittingBefore after pieces) : Fitting pieces := by
  refine fittingBefore_nil.mp (fitting.of_stopsLike ?_ ?_ ?_)
  · intro t
    rw [List.append_nil]
    exact stopsLike_of_append t after
  · exact fun _ _ _ => Or.inl rfl
  · exact fun _ _ _ => rfl

/-- Pieces that fit before a text are cut off it. -/
theorem cut_flatMap_append {after : Text} {pieces : List Piece}
    (fitting : FittingBefore after pieces) :
    cut (pieces.flatMap Piece.text ++ after) = pieces ++ cut after := by
  have whole := flatMap_text_cut after
  refine cut_eq_iff.mpr ⟨by rw [List.flatMap_append, whole], fitting_append.mpr ⟨?_, ?_⟩⟩
  · rw [whole]
    exact fitting
  · exact fitting_cut after

/-- Between two pieces a cut falls apart into the cuts of both parts. -/
theorem cut_append_of_pieces {source : Text} {earlier later : List Piece}
    (pieces : cut source = earlier ++ later) :
    source = earlier.flatMap Piece.text ++ later.flatMap Piece.text ∧
      cut (earlier.flatMap Piece.text) = earlier ∧ cut (later.flatMap Piece.text) = later := by
  obtain ⟨whole, fitting⟩ := cut_eq_iff.mp pieces
  obtain ⟨before, after⟩ := fitting_append.mp fitting
  refine ⟨?_, cut_flatMap_text before.fitting, cut_flatMap_text after⟩
  rw [← whole, List.flatMap_append]

/-! Positions, and all that has one, so many bytes and lines further on. -/

def Position.moved (bytes lines : Nat) (p : Position) : Position :=
  ⟨p.offset + bytes, p.line + lines⟩

def Token.moved (bytes lines : Nat) (t : Token) : Token :=
  { t with
    line := t.line + lines
    span := ⟨t.span.start + bytes, t.span.stop + bytes⟩ }

def Diagnostic.moved (lines : Nat) (d : Diagnostic) : Diagnostic :=
  { d with line := d.line + lines }

section Moved
variable (bytes lines : Nat)

theorem Position.past_moved (p : Position) (t : Text) :
    (p.moved bytes lines).past t = (p.past t).moved bytes lines := by
  simp only [past, moved, Nat.add_right_comm]

theorem Piece.token?_moved (piece : Piece) (p : Position) :
    piece.token? (p.moved bytes lines) = (piece.token? p).map (Token.moved bytes lines) := by
  cases h : piece.reading with
  | token kind literal =>
      simp only [token?, h, Position.past_moved]
      rfl
  | skipped => simp only [token?, h, Option.map_none]
  | fault f => simp only [token?, h, Option.map_none]

theorem Piece.diagnostic?_moved (piece : Piece) (p : Position) :
    piece.diagnostic? (p.moved bytes lines) =
      (piece.diagnostic? p).map (Diagnostic.moved lines) := by
  cases h : piece.fault? with
  | some f =>
      simp only [diagnostic?, h, Position.past_moved]
      rfl
  | none => simp only [diagnostic?, h, Option.map_none]

theorem placed_moved (p : Position) (pieces : List Piece) :
    placed (p.moved bytes lines) pieces =
      (placed p pieces).map (Prod.map (Position.moved bytes lines) id) := by
  induction pieces generalizing p with
  | nil => rfl
  | cons piece pieces ih =>
      rw [placed, placed, Position.past_moved, ih]
      rfl

theorem tokensFrom_moved (p : Position) (pieces : List Piece) :
    tokensFrom (p.moved bytes lines) pieces =
      (tokensFrom p pieces).map (Token.moved bytes lines) := by
  rw [tokensFrom, tokensFrom, placed_moved, List.filterMap_map, List.map_filterMap]
  refine congrArg (List.filterMap · _) (funext ?_)
  rintro ⟨q, piece⟩
  exact piece.token?_moved bytes lines q

theorem diagnosticsFrom_moved (p : Position) (pieces : List Piece) :
    diagnosticsFrom (p.moved bytes lines) pieces =
      (diagnosticsFrom p pieces).map (Diagnostic.moved lines) := by
  rw [diagnosticsFrom, diagnosticsFrom, placed_moved, List.filterMap_map, List.map_filterMap]
  refine congrArg (List.filterMap · _) (funext ?_)
  rintro ⟨q, piece⟩
  exact piece.diagnostic?_moved bytes lines q

end Moved

section Append
variable (p : Position) (earlier later : List Piece)

theorem placed_append : placed p (earlier ++ later) =
    placed p earlier ++ placed (p.past (earlier.flatMap Piece.text)) later := by
  induction earlier generalizing p with
  | nil => rfl
  | cons piece earlier ih =>
      rw [List.cons_append, placed, placed, ih, List.flatMap_cons, Position.past_append,
        List.cons_append]

theorem tokensFrom_append : tokensFrom p (earlier ++ later) =
    tokensFrom p earlier ++ tokensFrom (p.past (earlier.flatMap Piece.text)) later := by
  rw [tokensFrom, placed_append, List.filterMap_append]
  rfl

theorem diagnosticsFrom_append : diagnosticsFrom p (earlier ++ later) =
    diagnosticsFrom p earlier ++ diagnosticsFrom (p.past (earlier.flatMap Piece.text)) later := by
  rw [diagnosticsFrom, placed_append, List.filterMap_append]
  rfl

end Append

theorem endOf_append (s t : Text) :
    endOf (s ++ t) = (endOf t).moved (Text.byteLength s) (Text.newlines s) := by
  rw [endOf, Position.past_append]
  exact Position.past_moved (Text.byteLength s) (Text.newlines s) Position.start t

namespace Scanned

/-- The tokens before the end. -/
def properTokens (found : Scanned) : List Token := found.tokens.filter fun t => t.kind ≠ .eof

/-- One scan and another behind it, so many bytes and lines further on. The end of the first is no
end any more. -/
def followedBy (first : Scanned) (bytes lines : Nat) (second : Scanned) : Scanned where
  tokens := first.properTokens ++ second.tokens.map (Token.moved bytes lines)
  diagnostics := first.diagnostics ++ second.diagnostics.map (Diagnostic.moved lines)

end Scanned

theorem properTokens_scan (source : Text) :
    (scan source).properTokens = tokensFrom Position.start (cut source) := by
  have proper : ∀ t ∈ tokensFrom Position.start (cut source), decide (t.kind ≠ .eof) = true :=
    fun t h => decide_eq_true (kind_ne_eof_of_mem _ _ h)
  rw [scan_eq, Scanned.properTokens, tokensOf, List.filter_append, List.filter_eq_self.mpr proper]
  exact List.append_nil _

/-- Where the pieces of a source are those of its two parts, so is all that is found in them. -/
theorem scan_append_of_cut {s t : Text} (pieces : cut (s ++ t) = cut s ++ cut t) :
    scan (s ++ t) =
      (scan s).followedBy (Text.byteLength s) (Text.newlines s) (scan t) := by
  have there : Position.start.past ((cut s).flatMap Piece.text) =
      Position.start.moved (Text.byteLength s) (Text.newlines s) := by
    rw [flatMap_text_cut]
    rfl
  have tokens : tokensOf (s ++ t) = (scan s).properTokens ++
      (tokensOf t).map (Token.moved (Text.byteLength s) (Text.newlines s)) := by
    rw [tokensOf, tokensOf, pieces, tokensFrom_append, there, tokensFrom_moved, endOf_append,
      properTokens_scan, List.map_append, List.append_assoc]
    rfl
  have diagnostics : diagnosticsOf (s ++ t) = diagnosticsOf s ++
      (diagnosticsOf t).map (Diagnostic.moved (Text.newlines s)) := by
    rw [diagnosticsOf, pieces, diagnosticsFrom_append, there, diagnosticsFrom_moved]
    rfl
  rw [scan_eq, tokens, diagnostics, Scanned.followedBy, scan_eq t, scan_eq s]

/-- Between any two pieces of a source there is a seam. -/
theorem scan_at_seam {source : Text} {earlier later : List Piece}
    (pieces : cut source = earlier ++ later) :
    ∃ before after, Text.splitAtByte? source (Text.byteLength (earlier.flatMap Piece.text)) =
        some (before, after) ∧
      scan source = (scan before).followedBy (Text.byteLength (earlier.flatMap Piece.text))
        (Text.newlines before) (scan after) := by
  obtain ⟨rfl, before, after⟩ := cut_append_of_pieces pieces
  refine ⟨_, _, Text.splitAtByte?_append _ _, scan_append_of_cut ?_⟩
  rw [before, after, pieces]

/-- A token starts and stops with its piece. -/
theorem edges_of_token? {earlier : List Piece} {piece : Piece} {t : Token}
    (token : piece.token? (Position.start.past (earlier.flatMap Piece.text)) = some t) :
    t.span.start = Text.byteLength (earlier.flatMap Piece.text) ∧
      t.span.stop = Text.byteLength ((earlier ++ [piece]).flatMap Piece.text) := by
  obtain ⟨kind, literal, _, rfl⟩ := Piece.token?_eq_some_iff.mp token
  refine ⟨endOf_offset _, ?_⟩
  rw [← Position.past_append, List.flatMap_append, List.flatMap_singleton]
  exact endOf_offset _

/-- Cut at either end of a token, a source is scanned as its two parts are. -/
theorem scan_at_token_edge (source : Text) {t : Token} (member : t ∈ (scan source).tokens)
    (proper : t.kind ≠ .eof) {c : Nat} (edge : c = t.span.start ∨ c = t.span.stop) :
    ∃ before after, Text.splitAtByte? source c = some (before, after) ∧
      scan source = (scan before).followedBy c (Text.newlines before) (scan after) := by
  have found : t ∈ tokensFrom Position.start (cut source) := by
    rw [← properTokens_scan]
    exact List.mem_filter.mpr ⟨member, decide_eq_true proper⟩
  obtain ⟨earlier, piece, later, pieces, token⟩ := exists_of_mem_tokensFrom _ _ found
  obtain ⟨start, stop⟩ := edges_of_token? token
  rcases edge with rfl | rfl
  · rw [start]
    exact scan_at_seam pieces
  · have through := pieces.trans (List.append_cons earlier piece later)
    rw [stop]
    exact scan_at_seam through

theorem scan_at_string_edge :
    let source := "a\"é\n\"12.@".toList
    let t : Token := ⟨.string, "\"é\n\"".toList, some (.string "é\n".toList), 2, ⟨1, 6⟩⟩
    (t ∈ (scan source).tokens ∧ t.kind ≠ .eof) ∧
      ∃ before after, Text.splitAtByte? source 6 = some (before, after) ∧
        scan source = (scan before).followedBy 6 (Text.newlines before) (scan after) := by
  intro source t
  have member : t ∈ (scan source).tokens := by decide +kernel
  have proper : t.kind ≠ .eof := by decide
  exact ⟨⟨member, proper⟩, scan_at_token_edge source member proper (Or.inr rfl)⟩

end LoxLexer

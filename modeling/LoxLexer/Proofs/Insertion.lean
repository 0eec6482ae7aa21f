import LoxLexer.Proofs.Adjacency
import LoxLexer.Proofs.Lookahead

/-!
# Layout put in

Blanks, line feeds and comments may be put before any token of a source, faulty or not. The scan
finds what it found before; only what stands behind them is so many bytes and lines further on
(`scan_insert_separator`). Layout put into a token, a comment or an open string is not spoken of.
-/

namespace LoxLexer

/-- Layout stops whatever any other text stopped. -/
theorem stopsLike_append_layout {other : Text} (layout : beginsWith isLayout other)
    (t after : Text) :
    StopsLike (t ++ after) (t ++ other) := by
  have stops : StopsLike [] other := stopsLike_layout (Or.inr layout)
  rcases t with _ | ⟨c, _ | ⟨d, t⟩⟩
  · exact ⟨fun sort notLayout _ => stops.starts sort notLayout rfl, fun _ => stops.fraction rfl⟩
  · -- A point at the end may have stood before a digit, and now stands before layout.
    have noDigit := stops.starts Char.isDigit (fun _ => isDigit_of_isLayout) rfl
    refine ⟨fun _ _ h => h, fun _ => ?_⟩
    rw [List.singleton_append, beginsFraction_cons, noDigit, Bool.and_false]
  · have two : 2 ≤ (c :: d :: t).length := Nat.le_add_left 2 _
    refine ⟨fun _ _ h => h, fun h => ?_⟩
    rwa [beginsFraction_append two] at h ⊢

/-- No token begins at the end of a line, so no comment stands right before one. -/
theorem not_lineEnds_of_token {piece : Piece} {p : Position} {k : Token} {after : Text}
    (token : piece.token? p = some k) (fits : piece.Fits after) :
    ¬ LineEnds (piece.text ++ after) := by
  rintro (nothing | newline)
  · exact List.append_ne_nil_of_left_ne_nil fits.text_ne_nil after nothing
  · obtain rfl := eq_layout_of_newline fits newline
    cases token

/-- Pieces before a text that is not at the end of a line fit before layout as well. -/
theorem FittingBefore.before_layout {after other : Text} {pieces : List Piece}
    (fitting : FittingBefore after pieces) (inLine : ¬ LineEnds after)
    (layout : beginsWith isLayout other) : FittingBefore other pieces := by
  refine fitting.of_stopsLike (fun t => stopsLike_append_layout layout t after) ?_ ?_
  · exact fun _ _ ended => absurd ended inLine
  · exact fun _ _ nothing => absurd (Or.inl nothing) inLine

namespace Trivia

/-- Trivia are cut off any text. -/
theorem cut_append {gap : Text} (trivia : Trivia gap) (after : Text) :
    cut (gap ++ after) = cut gap ++ cut after := by
  obtain ⟨pieces, rfl, _, fits⟩ := trivia.exists_pieces
  rw [cut_flatMap_append (fits after), cut_flatMap_text (fits after).fitting]

/-- In trivia there is nothing to find. -/
theorem scan_empty {gap : Text} (trivia : Trivia gap) :
    (scan gap).properTokens = [] ∧ (scan gap).diagnostics = [] := by
  obtain ⟨pieces, rfl, skipped, fits⟩ := trivia.exists_pieces
  obtain ⟨silent, clean⟩ := filterMap_of_skipped skipped
  have pieces := cut_flatMap_text (fits []).fitting
  constructor
  · rw [properTokens_scan, pieces]
    exact List.map_eq_nil_iff.mp ((map_tokensFrom _ _).trans silent)
  · rw [diagnostics_scan_eq_nil_iff, pieces]
    exact clean

end Trivia

/-- There is a seam before each token of a source, with the earlier tokens on its one side and no
end of a line on the other. -/
theorem exists_seam_before {source : Text} {earlier later : List Token} {k : Token}
    (tokens : (scan source).tokens = earlier ++ k :: later) (proper : k.kind ≠ .eof) :
    ∃ before after, Text.splitAtByte? source k.span.start = some (before, after) ∧
      cut source = cut before ++ cut after ∧ (scan before).properTokens = earlier ∧
      ¬ LineEnds after := by
  have found : (scan source).tokens[earlier.length]? = some k := by
    rw [tokens, List.getElem?_append_right le_rfl, Nat.sub_self]
    rfl
  obtain ⟨front, piece, back, pieces, count, token⟩ :=
    exists_of_getElem?_tokensFrom _ _ (getElem?_tokensFrom_cut found proper)
  obtain ⟨whole, cutFront, cutBack⟩ := cut_append_of_pieces pieces
  refine ⟨front.flatMap Piece.text, (piece :: back).flatMap Piece.text, ?_, ?_, ?_, ?_⟩
  · rw [whole, (edges_of_token? token).1]
    exact Text.splitAtByte?_append _ _
  · rw [cutFront, cutBack, pieces]
  · rw [scan_eq, tokensOf, pieces, tokensFrom_append, List.append_assoc] at tokens
    rw [properTokens_scan, cutFront]
    exact (List.append_inj tokens count).1
  · have fitting := fitting_cut ((piece :: back).flatMap Piece.text)
    rw [cutBack] at fitting
    exact not_lineEnds_of_token token fitting.1

section Moved
variable (bytes lines bytes' lines' : Nat)

theorem Token.moved_comm (t : Token) : (t.moved bytes lines).moved bytes' lines' =
    (t.moved bytes' lines').moved bytes lines := by
  simp only [moved, Nat.add_right_comm]

theorem Diagnostic.moved_comm (d : Diagnostic) :
    (d.moved lines).moved lines' = (d.moved lines').moved lines := by
  simp only [moved, Nat.add_right_comm]

theorem map_content_moved (tokens : List Token) :
    (tokens.map (Token.moved bytes lines)).map Token.content = tokens.map Token.content := by
  rw [List.map_map]
  rfl

theorem map_message_moved (ds : List Diagnostic) :
    (ds.map (Diagnostic.moved lines)).map Diagnostic.message = ds.map Diagnostic.message := by
  rw [List.map_map]
  rfl

end Moved

/-- Layout put in at a seam is scanned by itself, between the two parts of the source. -/
theorem scan_insert_at_seam {before after : Text}
    (pieces : cut (before ++ after) = cut before ++ cut after) (inLine : ¬ LineEnds after)
    (w : Separator) :
    scan (before ++ (w.text ++ after)) =
      (scan before).followedBy (Text.byteLength before) (Text.newlines before)
        ((scan w.text).followedBy (Text.byteLength w.text) (Text.newlines w.text)
          (scan after)) := by
  have alone : FittingBefore after (cut before) := by
    have fitting := fitting_cut (before ++ after)
    rw [pieces, fitting_append, flatMap_text_cut] at fitting
    exact fitting.1
  have spaced := cut_flatMap_append (alone.before_layout inLine (w.beginsWith_append after))
  rw [flatMap_text_cut] at spaced
  rw [scan_append_of_cut spaced, scan_append_of_cut (w.trivia.cut_append after)]

/-- Layout that is put in before a token moves it and all that comes behind it. The tokens are the
same otherwise, and so are the reports, those for the text behind with their lines moved. -/
theorem scan_insert_separator (w : Separator) {source : Text} {earlier later : List Token}
    {k : Token} (tokens : (scan source).tokens = earlier ++ k :: later) (proper : k.kind ≠ .eof) :
    ∃ before after, Text.splitAtByte? source k.span.start = some (before, after) ∧
      let bytes := Text.byteLength w.text
      let lines := Text.newlines w.text
      let spaced := scan (before ++ (w.text ++ after))
      let behind := (scan after).diagnostics.map (Diagnostic.moved (Text.newlines before))
      spaced.tokens = earlier ++ (k :: later).map (Token.moved bytes lines) ∧
      spaced.tokens.map Token.content = (scan source).tokens.map Token.content ∧
      (scan source).diagnostics = (scan before).diagnostics ++ behind ∧
      spaced.diagnostics = (scan before).diagnostics ++ behind.map (Diagnostic.moved lines) ∧
      spaced.diagnostics.map Diagnostic.message =
        (scan source).diagnostics.map Diagnostic.message := by
  obtain ⟨before, after, split, pieces, rfl, inLine⟩ := exists_seam_before tokens proper
  obtain ⟨rfl, _⟩ := Text.splitAtByte?_eq_some_iff.mp split
  refine ⟨before, after, split, ?_⟩
  intro bytes lines spaced behind
  have plain := scan_append_of_cut pieces
  have inserted : spaced = _ := scan_insert_at_seam pieces inLine w
  obtain ⟨noTokens, noReports⟩ := w.trivia.scan_empty
  have there : (scan after).tokens.map
      (Token.moved (Text.byteLength before) (Text.newlines before)) = k :: later := by
    rw [plain] at tokens
    exact List.append_cancel_left tokens
  have spacedTokens : spaced.tokens =
      (scan before).properTokens ++ (k :: later).map (Token.moved bytes lines) := by
    rw [inserted, ← there, Scanned.followedBy, Scanned.followedBy, noTokens, List.nil_append,
      List.map_map, List.map_map]
    refine congrArg (_ ++ List.map · _) (funext ?_)
    exact fun t => t.moved_comm _ _ _ _
  have spacedReports : spaced.diagnostics =
      (scan before).diagnostics ++ behind.map (Diagnostic.moved lines) := by
    rw [inserted, Scanned.followedBy, Scanned.followedBy, noReports, List.nil_append,
      List.map_map, List.map_map]
    refine congrArg (_ ++ List.map · _) (funext ?_)
    exact fun d => d.moved_comm _ _
  have sourceReports :
      (scan (before ++ after)).diagnostics = (scan before).diagnostics ++ behind := by
    rw [plain]
    rfl
  refine ⟨spacedTokens, ?_, sourceReports, spacedReports, ?_⟩
  · rw [spacedTokens, tokens, List.map_append, List.map_append, map_content_moved]
  · rw [spacedReports, sourceReports, List.map_append, List.map_append, map_message_moved]

/-- The end of a line and a line of comment. -/
def commentLine : Separator where
  text := "\n//\"é@\n".toList
  trivia := .blank (by decide) (@Trivia.comment "\"é@".toList [] (by decide) .nil)
  first := ⟨'\n', _, rfl, by decide⟩

/-- The point after a number goes to the third line. -/
theorem scan_insert_before_point :
    let source := "?12.x@".toList
    let number : Token :=
      ⟨.number, "12".toList, some (.number (Numeral.value ⟨"12".toList, none⟩)), 1, ⟨1, 3⟩⟩
    let point : Token := ⟨.operator .dot, ".".toList, none, 1, ⟨3, 4⟩⟩
    let word : Token := ⟨.identifier, "x".toList, none, 1, ⟨4, 5⟩⟩
    let found := scan source
    found.tokens = [number] ++ point :: [word, .eof 1 6] ∧ point.kind ≠ .eof ∧
      ∃ before after, Text.splitAtByte? source 3 = some (before, after) ∧
        let spaced := scan (before ++ (commentLine.text ++ after))
        spaced.tokens = [number] ++ [point, word, .eof 1 6].map (Token.moved 8 2) ∧
        spaced.diagnostics.map Diagnostic.message = found.diagnostics.map Diagnostic.message := by
  intro source number point word found
  have tokens : found.tokens = [number] ++ point :: [word, .eof 1 6] := by decide +kernel
  have proper : point.kind ≠ .eof := by decide
  obtain ⟨before, after, split, spaced, _, _, _, messages⟩ :=
    scan_insert_separator commentLine tokens proper
  exact ⟨tokens, proper, before, after, split, spaced, messages⟩

end LoxLexer

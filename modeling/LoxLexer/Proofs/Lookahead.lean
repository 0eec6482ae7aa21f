import LoxLexer.Proofs.Automaton
import LoxLexer.Proofs.Seam

/-!
# Lookahead

Text that is appended to a source changes no token behind which two more characters stand already,
and takes back no report of an unexpected character (`scan_append_stable`). Two are needed: a point
at the end of a number belongs to it if the next character is a digit.
-/

namespace LoxLexer

/-- More text behind two characters goes on with nothing that these two stop. -/
theorem stopsLike_append {s : Text} (two : 2 ≤ s.length) (t : Text) : StopsLike s (s ++ t) := by
  have nonempty : s ≠ [] := List.ne_nil_of_length_pos (by omega)
  refine ⟨fun sort _ h => ?_, fun h => ?_⟩
  · rwa [beginsWith_append nonempty]
  · rwa [beginsFraction_append two]

/-- Pieces before two characters fit there still when more text is appended. -/
theorem FittingBefore.append {after : Text} {pieces : List Piece}
    (fitting : FittingBefore after pieces) (two : 2 ≤ after.length) (q : Text) :
    FittingBefore (after ++ q) pieces := by
  have nonempty : after ≠ [] := List.ne_nil_of_length_pos (by omega)
  refine fitting.of_stopsLike ?_ ?_ ?_
  · intro t
    have longer : 2 ≤ (t ++ after).length := by
      rw [List.length_append]
      omega
    rw [← List.append_assoc]
    exact stopsLike_append longer q
  · intro _ _ ends
    refine Or.inr ?_
    rw [beginsWith_append nonempty]
    exact ends.resolve_left nonempty
  · exact fun _ _ nothing => absurd nothing nonempty

/-- At least two more characters stand behind the token. -/
def TwoBehind (source : Text) (t : Token) : Prop :=
  ∃ before after, Text.splitAtByte? source t.span.stop = some (before, after) ∧ 2 ≤ after.length

theorem getElem?_tokensFrom_cut {source : Text} {i : Nat} {t : Token}
    (found : (scan source).tokens[i]? = some t) (proper : t.kind ≠ .eof) :
    (tokensFrom Position.start (cut source))[i]? = some t := by
  rw [scan_eq] at found
  by_cases inside : i < (tokensFrom Position.start (cut source)).length
  · exact (List.getElem?_append_left inside).symm.trans found
  · have atEnd := (List.getElem?_append_right (Nat.le_of_not_lt inside)).symm.trans found
    obtain rfl := List.mem_singleton.mp (List.mem_of_getElem? atEnd)
    exact absurd rfl proper

/-- The rest of a source behind a token starts with the pieces after the token's own. -/
theorem TwoBehind.two_le {source : Text} {t : Token} (behind : TwoBehind source t)
    {earlier later : List Piece} {piece : Piece}
    (whole : source = (earlier ++ [piece]).flatMap Piece.text ++ later.flatMap Piece.text)
    (token : piece.token? (Position.start.past (earlier.flatMap Piece.text)) = some t) :
    2 ≤ (later.flatMap Piece.text).length := by
  obtain ⟨before, after, cutThere, two⟩ := behind
  obtain ⟨rfl, stop⟩ := Text.splitAtByte?_eq_some_iff.mp cutThere
  obtain ⟨_, same⟩ := Text.append_inj_of_byteLength whole (stop.trans (edges_of_token? token).2)
  exact same ▸ two

theorem getElem?_scan_append {p q : Text} {i : Nat} {t : Token}
    (found : (scan p).tokens[i]? = some t) (proper : t.kind ≠ .eof) (behind : TwoBehind p t) :
    (scan (p ++ q)).tokens[i]? = some t := by
  obtain ⟨earlier, piece, later, pieces, count, token⟩ :=
    exists_of_getElem?_tokensFrom _ _ (getElem?_tokensFrom_cut found proper)
  -- The token's own piece has to stay too, so the source is cut behind it.
  have through := pieces.trans (List.append_cons earlier piece later)
  obtain ⟨whole, -, -⟩ := cut_append_of_pieces through
  have before : FittingBefore (later.flatMap Piece.text) (earlier ++ [piece]) :=
    (fitting_append.mp (through ▸ fitting_cut p)).1
  have fitting := before.append (behind.two_le whole token) q
  have longer : cut (p ++ q) = earlier ++ piece :: cut (later.flatMap Piece.text ++ q) := by
    have appended := cut_flatMap_append fitting
    rw [← List.append_assoc, ← whole, List.append_assoc] at appended
    exact appended
  rw [scan_eq, tokensOf, longer, tokensFrom_append, tokensFrom_cons, token, ← count]
  simp

/-- The diagnostic is for an unexpected character. -/
def Diagnostic.isUnexpected (d : Diagnostic) : Bool :=
  "Unexpected character: ".toList.isPrefixOf d.message

theorem isUnexpected_of_mem_reportsFrom {before t : Text} {d : Diagnostic}
    (h : d ∈ reportsFrom before t) : d.isUnexpected := by
  induction t generalizing before with
  | nil => cases h
  | cons c t ih =>
      rcases List.mem_append.mp h with here | there
      · rw [Option.mem_toList, report?] at here
        split at here
        · obtain rfl := Option.some.inj here
          exact List.isPrefixOf_iff_prefix.mpr (List.prefix_append _ _)
        · cases here
      · exact ih there

/-- Only what is reported at the end is of another sort. -/
theorem filter_isUnexpected_reports (source : Text) :
    (reports source).filter Diagnostic.isUnexpected = reportsFrom [] source := by
  have last : (lastReport? source).toList.filter Diagnostic.isUnexpected = [] := by
    rw [lastReport?]
    split
    · rfl
    · rfl
  rw [reports, List.filter_append, last, List.append_nil, List.filter_eq_self]
  exact fun _ h => isUnexpected_of_mem_reportsFrom h

/-- Appended text leaves the tokens as they were up to the last two characters, and all reports of
unexpected characters. -/
theorem scan_append_stable (p q : Text) :
    (∀ (i : Nat) (t : Token), (scan p).tokens[i]? = some t → t.kind ≠ .eof → TwoBehind p t →
      (scan (p ++ q)).tokens[i]? = some t) ∧
    (scan p).diagnostics.filter Diagnostic.isUnexpected <+: (scan (p ++ q)).diagnostics := by
  refine ⟨fun i t => getElem?_scan_append, ?_⟩
  have same : ∀ source, (scan source).diagnostics = reports source := by
    intro source
    rw [scan_eq, diagnosticsOf_eq_reports]
  rw [same, same, filter_isUnexpected_reports, reports, reportsFrom_append, List.append_assoc]
  exact List.prefix_append _ _

theorem scan_append_two_points :
    let p := "?12..".toList
    let q := "5".toList
    let t : Token :=
      ⟨.number, "12".toList, some (.number (Numeral.value ⟨"12".toList, none⟩)), 1, ⟨1, 3⟩⟩
    ((scan p).tokens[0]? = some t ∧ t.kind ≠ .eof ∧ TwoBehind p t) ∧
      (scan (p ++ q)).tokens[0]? = some t ∧
      (scan p).diagnostics.filter Diagnostic.isUnexpected <+: (scan (p ++ q)).diagnostics := by
  intro p q t
  have found : (scan p).tokens[0]? = some t := by decide +kernel
  have proper : t.kind ≠ .eof := by decide
  have behind : TwoBehind p t := ⟨"?12".toList, "..".toList, by decide, by decide⟩
  obtain ⟨tokens, diagnostics⟩ := scan_append_stable p q
  exact ⟨⟨found, proper, behind⟩, tokens 0 t found proper behind, diagnostics⟩

/-- With one character behind it a token may still change. -/
example : (scan "12.".toList).tokens[0]? ≠ (scan "12.5".toList).tokens[0]? := by decide +kernel

end LoxLexer

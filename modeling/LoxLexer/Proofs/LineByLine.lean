import LoxLexer.Proofs.Automaton
import LoxLexer.Proofs.Seam

/-!
# Line by line

A line feed ends whatever stands before it, unless that is a string. So a source may be scanned up
to a line feed and from behind it on, and this is just as the scan of the whole exactly if no string
is open at the end of the first part (`scan_newline_iff`).
-/

namespace LoxLexer

theorem beginsWith_append_newline {sort : Char → Bool} (h : sort '\n' = false) (s t : Text) :
    beginsWith sort (s ++ '\n' :: t) = beginsWith sort s := by
  cases s with
  | nil => exact h
  | cons c s => rfl

theorem beginsFraction_append_newline (s t : Text) :
    beginsFraction (s ++ '\n' :: t) = beginsFraction s := by
  cases s with
  | nil => rfl
  | cons c s =>
      rw [List.cons_append, beginsFraction_cons, beginsFraction_cons,
        beginsWith_append_newline (by decide)]

/-- A line feed goes on with nothing. -/
theorem stopsLike_newline (s t : Text) : StopsLike s (s ++ '\n' :: t) := by
  refine ⟨fun sort notLayout h => ?_, fun h => ?_⟩
  · rwa [beginsWith_append_newline (notLayout '\n' rfl)]
  · rwa [beginsFraction_append_newline]

theorem cut_newline {s : Text} (closed : ∀ body, .openString body ∉ cut s) (t : Text) :
    cut (s ++ '\n' :: t) = cut s ++ .layout '\n' :: cut t := by
  have alone : FittingBefore [] (cut s) := fittingBefore_nil.mpr (fitting_cut s)
  have fitting : FittingBefore ('\n' :: t) (cut s) := by
    refine alone.of_stopsLike ?_ ?_ ?_
    · intro u
      rw [List.append_nil]
      exact stopsLike_newline u t
    · exact fun _ _ _ => Or.inr rfl
    · exact fun body member => absurd member (closed body)
  have through := cut_flatMap_append fitting
  rw [flatMap_text_cut, cut_cons, Piece.next_layout rfl] at through
  exact through

/-- The line feed adds nothing to what has been found before it. -/
theorem scan_newline {s : Text} (closed : ∀ body, .openString body ∉ cut s) :
    (scan (s ++ ['\n'])).properTokens = (scan s).properTokens ∧
      (scan (s ++ ['\n'])).diagnostics = (scan s).diagnostics := by
  have pieces : cut (s ++ ['\n']) = cut s ++ [.layout '\n'] := by
    rw [cut_newline closed, cut_nil]
  constructor
  · rw [properTokens_scan, properTokens_scan, pieces, tokensFrom_append]
    exact List.append_nil _
  · rw [scan_eq, scan_eq, diagnosticsOf, diagnosticsOf, pieces, diagnosticsFrom_append]
    exact List.append_nil _

/-- Every open string is reported. -/
theorem not_mem_cut_of_diagnostics {source : Text}
    (closed : ∀ d ∈ (scan source).diagnostics, d.message ≠ "Unterminated string".toList)
    (body : Text) : .openString body ∉ cut source := by
  intro member
  have fault : Fault.unterminatedString ∈ (cut source).filterMap Piece.fault? :=
    List.mem_filterMap.mpr ⟨_, member, rfl⟩
  have message := List.mem_map_of_mem (f := Fault.message) fault
  rw [← map_message_diagnosticsFrom Position.start] at message
  obtain ⟨d, reported, same⟩ := List.mem_map.mp message
  rw [scan_eq] at closed
  exact closed d reported same

theorem line_of_unterminated {source : Text} {d : Diagnostic} (h : d ∈ (scan source).diagnostics)
    (message : d.message = "Unterminated string".toList) : d.line = 1 + Text.newlines source := by
  have reported : d ∈ reports source := by
    rw [← diagnosticsOf_eq_reports]
    rw [scan_eq] at h
    exact h
  rcases List.mem_append.mp reported with inside | last
  · exact absurd message (message_of_mem_reportsFrom inside)
  · rw [Option.mem_toList, lastReport?] at last
    split at last
    · obtain rfl := Option.some.inj last
      rfl
    · cases last

/-- Two sources with a line feed between them are scanned as each of them is, if and only if no
string is open at the end of the first. -/
theorem scan_newline_iff (a b : Text) :
    scan (a ++ '\n' :: b) =
        (scan a).followedBy (Text.byteLength a + 1) (Text.newlines a + 1) (scan b) ↔
      ∀ d ∈ (scan a).diagnostics, d.message ≠ "Unterminated string".toList := by
  constructor
  · -- An open string is reported on the last line of its source, which is not that of the whole.
    intro same d member message
    have longer : d ∈ (scan (a ++ '\n' :: b)).diagnostics := by
      rw [same]
      exact List.mem_append_left _ member
    have before := line_of_unterminated member message
    have through := line_of_unterminated longer message
    have more : Text.newlines ('\n' :: b) = Text.newlines b + 1 := List.count_cons_self
    rw [before, Text.newlines_append, more] at through
    omega
  · intro closed
    have closed := not_mem_cut_of_diagnostics closed
    obtain ⟨tokens, diagnostics⟩ := scan_newline closed
    have pieces : cut (a ++ ['\n'] ++ b) = cut (a ++ ['\n']) ++ cut b := by
      rw [List.append_assoc, cut_newline closed, List.singleton_append, cut_newline closed,
        cut_nil, List.append_assoc]
      rfl
    have bytes : Text.byteLength (a ++ ['\n']) = Text.byteLength a + 1 :=
      Text.byteLength_append a ['\n']
    have lines : Text.newlines (a ++ ['\n']) = Text.newlines a + 1 :=
      Text.newlines_append a ['\n']
    have glued := scan_append_of_cut pieces
    rw [List.append_assoc, bytes, lines, Scanned.followedBy, tokens, diagnostics] at glued
    exact glued

end LoxLexer

import LoxLexer.Proofs.Cursor
import Mathlib.Data.List.Forall2

/-!
# Tiling

The tokens of a source lie side by side in it, and between them is nothing but layout, comments
and what has been reported (`spans_tile`). All bounds are checked: the scanner that slices its
texts out of the source by byte offsets never asks for a slice that is not there.
-/

namespace LoxLexer

/-- A text that holds no token, before `after`, with the faults in it. A comment ends before the
line does, and only at the very end can a string be open. -/
inductive Gap : Text → Text → List Fault → Prop
  | nil {after : Text} : Gap [] after []
  | blank {c : Char} {text after : Text} {faults : List Fault}
      (blank : c ∈ [' ', '\t', '\r', '\n']) (more : Gap text after faults) :
      Gap (c :: text) after faults
  | comment {body text after : Text} {faults : List Fault} (oneLine : '\n' ∉ body)
      (stop : text ++ after = [] ∨ ∃ rest, text ++ after = '\n' :: rest)
      (more : Gap text after faults) : Gap ('/' :: '/' :: body ++ text) after faults
  | stray {c : Char} {text after : Text} {faults : List Fault} (more : Gap text after faults) :
      Gap (c :: text) after (.unexpectedCharacter c :: faults)
  | openString {body : Text} (closed : '"' ∉ body) :
      Gap ('"' :: body) [] [.unterminatedString]

/-- There is a gap between these byte positions of the source. -/
def GapAt (source : Text) (span : Span) (faults : List Fault) : Prop :=
  ∃ before text after, source = before ++ text ++ after ∧
    Text.byteLength before = span.start ∧ Text.byteLength (before ++ text) = span.stop ∧
    Gap text after faults

/-- What is left out before the first token, from an offset on, and then between each token and
the next. -/
def gapsFrom (offset : Nat) : List Token → List Span
  | [] => []
  | t :: tokens => ⟨offset, t.span.start⟩ :: gapsFrom t.span.stop tokens

/-- Tokens and gaps make up the whole source, and each diagnostic is for a fault in a gap. -/
structure Tiled (source : Text) (found : Scanned) : Prop where
  sliced : ∀ t ∈ found.tokens, Text.slice? source t.span.start t.span.stop = some t.lexeme
  nonempty : ∀ t ∈ found.tokens, t.kind ≠ .eof → t.span.start < t.span.stop
  ordered : found.tokens.Pairwise fun s t => s.span.stop ≤ t.span.start
  ended : ∃ tokens line, found.tokens = tokens ++ [Token.eof line (Text.byteLength source)] ∧
    ∀ t ∈ tokens, t.kind ≠ .eof
  gaps : ∃ faults : List (List Fault),
    List.Forall₂ (GapAt source) (gapsFrom 0 found.tokens) faults ∧
    faults.flatten.map Fault.message = found.diagnostics.map Diagnostic.message ∧
    faults.flatten.length = found.diagnostics.length
  clean : found.diagnostics = [] → ∀ span ∈ gapsFrom 0 found.tokens, GapAt source span []

/-! A piece that is no token widens the gap after it, and adds its own fault. -/

theorem Gap.widen {piece : Piece} {p : Position} {text after : Text} {faults : List Fault}
    (fits : piece.Fits (text ++ after)) (silent : piece.token? p = none)
    (gap : Gap text after faults) :
    Gap (piece.text ++ text) after (piece.fault?.toList ++ faults) := by
  cases piece with
  | operator o => cases silent
  | word w => cases silent
  | number n => cases silent
  | string body => cases silent
  | comment body =>
      obtain ⟨oneLine, stop⟩ := fits
      refine .comment oneLine ?_ gap
      rcases stop with ended | newline
      · exact Or.inl ended
      · cases rest : text ++ after with
        | nil => exact Or.inl rfl
        | cons c rest' =>
            rw [rest] at newline
            obtain rfl : c = '\n' := by simpa using newline
            exact Or.inr ⟨rest', rfl⟩
  | layout c => exact .blank (isLayout_iff_mem.mp fits) gap
  | unexpected c => exact .stray gap
  | openString body =>
      obtain ⟨closed, ended⟩ := fits
      obtain ⟨rfl, rfl⟩ := List.append_eq_nil_iff.mp ended
      cases gap
      rw [List.append_nil]
      exact .openString closed

theorem GapAt.widen {source before rest : Text} {piece : Piece} {p : Position} {stop : Nat}
    {faults : List Fault} (whole : source = before ++ piece.text ++ rest) (fits : piece.Fits rest)
    (here : p.offset = Text.byteLength before) (silent : piece.token? p = none)
    (gap : GapAt source ⟨(p.past piece.text).offset, stop⟩ faults) :
    GapAt source ⟨p.offset, stop⟩ (piece.fault?.toList ++ faults) := by
  obtain ⟨upTo, text, after, whole', start, ends, gap⟩ := gap
  have sameStart : Text.byteLength (before ++ piece.text) = Text.byteLength upTo := by
    rw [start, Text.byteLength_append, Position.past_offset, here]
  rw [List.append_assoc] at whole'
  obtain ⟨rfl, rfl⟩ := Text.append_inj_of_byteLength (whole.symm.trans whole') sameStart
  refine ⟨before, piece.text ++ text, after, ?_, here.symm, ?_, gap.widen fits silent⟩
  · simpa using whole
  · simpa using ends

theorem GapAt.empty {source before rest : Text} (whole : source = before ++ rest) :
    GapAt source ⟨Text.byteLength before, Text.byteLength before⟩ [] :=
  ⟨before, [], rest, by simpa using whole, rfl, by rw [List.append_nil], .nil⟩

/-- What is skipped before some tokens goes into the gap before the first of them. -/
theorem widen_gapsFrom {source before rest : Text} {piece : Piece} {p : Position}
    {tokens : List Token} {faults : List (List Fault)}
    (whole : source = before ++ piece.text ++ rest) (fits : piece.Fits rest)
    (here : p.offset = Text.byteLength before) (silent : piece.token? p = none)
    (nonempty : tokens ≠ [])
    (gaps : List.Forall₂ (GapAt source) (gapsFrom (p.past piece.text).offset tokens) faults) :
    ∃ more, List.Forall₂ (GapAt source) (gapsFrom p.offset tokens) more ∧
      more.flatten = piece.fault?.toList ++ faults.flatten := by
  obtain ⟨t, tokens, rfl⟩ := List.exists_cons_of_ne_nil nonempty
  cases gaps with
  | cons first others =>
      refine ⟨_, .cons (first.widen whole fits here silent) others, ?_⟩
      rw [List.flatten_cons, List.flatten_cons, List.append_assoc]

/-- From any place on, the gaps hold just the faults that are reported from there on. -/
theorem gaps_tokensFrom {source : Text} (line : Nat) {pieces : List Piece}
    (fitting : Fitting pieces) :
    ∀ (before : Text) (p : Position), source = before ++ pieces.flatMap Piece.text →
      p.offset = Text.byteLength before →
      ∃ faults, List.Forall₂ (GapAt source)
          (gapsFrom p.offset (tokensFrom p pieces ++ [Token.eof line (Text.byteLength source)]))
          faults ∧
        faults.flatten = pieces.filterMap Piece.fault? := by
  induction pieces with
  | nil =>
      intro before p whole here
      obtain rfl : source = before := by simpa using whole
      refine ⟨[[]], .cons ?_ .nil, rfl⟩
      rw [here]
      exact GapAt.empty whole
  | cons piece pieces ih =>
      intro before p whole here
      obtain ⟨fits, fitting⟩ := fitting
      rw [List.flatMap_cons] at whole
      have whole' := whole.trans (List.append_assoc before piece.text _).symm
      obtain ⟨faults, gaps, same⟩ := ih fitting (before ++ piece.text) (p.past piece.text) whole'
        (by simp [here])
      rw [tokensFrom_cons]
      cases found : piece.token? p with
      | some t =>
          obtain ⟨kind, literal, reading, rfl⟩ := Piece.token?_eq_some_iff.mp found
          refine ⟨[] :: faults, .cons ?_ gaps, ?_⟩
          · rw [here]
            exact GapAt.empty whole
          · simp [same, Piece.fault?, reading]
      | none =>
          obtain ⟨more, widened, all⟩ := widen_gapsFrom whole' fits here found
            (List.append_ne_nil_of_right_ne_nil _ (List.cons_ne_nil _ [])) gaps
          refine ⟨more, widened, ?_⟩
          rw [all, same]
          cases fault : piece.fault? <;> simp [fault]

/-- A token takes up the text of its piece, and the end takes up nothing. -/
theorem sliced_of_mem_tokensOf {source : Text} {t : Token} (h : t ∈ tokensOf source) :
    Text.slice? source t.span.start t.span.stop = some t.lexeme ∧
      (t.kind ≠ .eof → t.span.start < t.span.stop) := by
  rcases exists_of_mem_tokensOf h with ⟨before, piece, after, whole, nonempty, found⟩ | rfl
  · obtain ⟨kind, literal, _, rfl⟩ := Piece.token?_eq_some_iff.mp found
    have start := endOf_offset before
    refine ⟨Text.slice?_eq_some_iff.mpr ⟨before, after, whole, start.symm, ?_⟩, ?_⟩
    · rw [Text.byteLength_append, Position.past_offset, start]
    · intro _
      exact Nat.lt_add_of_pos_right (Text.byteLength_pos nonempty)
  · have stop := endOf_offset source
    refine ⟨Text.slice?_eq_some_iff.mpr ⟨source, [], ?_, stop.symm, ?_⟩, ?_⟩
    · simp [Token.eof]
    · rw [Token.eof, List.append_nil, stop]
    · intro notEnd
      exact absurd rfl notEnd

theorem pairwise_tokensFrom (p : Position) (pieces : List Piece) :
    (tokensFrom p pieces).Pairwise fun s t => s.span.stop ≤ t.span.start := by
  induction pieces generalizing p with
  | nil => exact .nil
  | cons piece pieces ih =>
      rw [tokensFrom_cons]
      cases found : piece.token? p with
      | none => exact ih _
      | some t =>
          refine .cons ?_ (ih _)
          intro later h
          obtain ⟨_, _, _, rfl⟩ := Piece.token?_eq_some_iff.mp found
          exact offset_le_start _ _ h

theorem stop_le_of_mem_tokensOf {source : Text} {t : Token} (h : t ∈ tokensOf source) :
    t.span.stop ≤ Text.byteLength source := by
  obtain ⟨sliced, _⟩ := sliced_of_mem_tokensOf h
  obtain ⟨before, after, whole, _, stop⟩ := Text.slice?_eq_some_iff.mp sliced
  rw [whole, Text.byteLength_append, stop]
  exact Nat.le_add_right _ _

theorem ordered_tokensOf (source : Text) :
    (tokensOf source).Pairwise fun s t => s.span.stop ≤ t.span.start := by
  refine List.pairwise_append.mpr ⟨pairwise_tokensFrom _ _, List.pairwise_singleton _ _, ?_⟩
  intro t h last atEnd
  obtain rfl := List.mem_singleton.mp atEnd
  have inside := stop_le_of_mem_tokensOf (List.mem_append_left _ h)
  rwa [← endOf_offset source] at inside

theorem forall_gapAt_nil {source : Text} {spans : List Span} {faults : List (List Fault)}
    (gaps : List.Forall₂ (GapAt source) spans faults) (none : faults.flatten = []) :
    ∀ span ∈ spans, GapAt source span [] := by
  induction gaps with
  | nil => exact fun _ h => nomatch h
  | cons first _ ih =>
      obtain ⟨rfl, none⟩ := List.append_eq_nil_iff.mp none
      intro span h
      rcases List.mem_cons.mp h with rfl | h
      · exact first
      · exact ih none span h

theorem tiled_scan (source : Text) : Tiled source (scan source) := by
  obtain ⟨faults, gaps, same⟩ := gaps_tokensFrom (endOf source).line (fitting_cut source) []
    Position.start (flatMap_text_cut source).symm rfl
  have messages : faults.flatten.map Fault.message =
      (diagnosticsOf source).map Diagnostic.message := by
    rw [same, diagnosticsOf, map_message_diagnosticsFrom]
  have counted : faults.flatten.length = (diagnosticsOf source).length := by
    have lengths := congrArg List.length messages
    rwa [List.length_map, List.length_map] at lengths
  rw [← endOf_offset source] at gaps
  rw [scan_eq]
  constructor
  case sliced =>
    intro t h
    exact (sliced_of_mem_tokensOf h).1
  case nonempty =>
    intro t h
    exact (sliced_of_mem_tokensOf h).2
  case ordered => exact ordered_tokensOf source
  case ended =>
    refine ⟨tokensFrom Position.start (cut source), (endOf source).line, ?_, ?_⟩
    · rw [← endOf_offset source]
      rfl
    · exact fun _ h => kind_ne_eof_of_mem _ _ h
  case gaps => exact ⟨faults, gaps, messages, counted⟩
  case clean =>
    intro none
    refine forall_gapAt_nil gaps (List.eq_nil_of_length_eq_zero ?_)
    rw [counted, List.length_eq_zero_iff]
    exact none

/-- Slicing a source by byte offsets never fails, and the tokens and gaps found tile it. -/
theorem spans_tile (source : Text) :
    (∀ (σ : Type) (o : Observer σ) (s : σ),
      Cursor.scan? o source s = some (scanObserved o source s)) ∧
    Tiled source (scan source) :=
  ⟨fun _ o s => Cursor.scan?_eq o source s, tiled_scan source⟩

end LoxLexer

import LoxLexer.Proofs.Cursor

/-!
# Lines

The line of a token counts the line feeds of all that the scan has read when it finds the token,
wherever they stand (`tokens_onLine`). The line of a diagnostic is not spoken of here.
-/

namespace LoxLexer

/-- The token carries the line on which its span stops. -/
def OnLine (source : Text) (t : Token) : Prop :=
  ∃ before after, Text.splitAtByte? source t.span.stop = some (before, after) ∧
    t.line = 1 + Text.newlines before

/-- The token carries the line of a quote that ends its span. -/
def OnQuoteLine (source : Text) (t : Token) : Prop :=
  ∃ before after, source = before ++ '"' :: after ∧ Text.byteLength before + 1 = t.span.stop ∧
    t.line = 1 + Text.newlines before

theorem onLine_of_token? {source before after : Text} {piece : Piece} {t : Token}
    (whole : source = before ++ piece.text ++ after)
    (found : piece.token? (endOf before) = some t) : OnLine source t := by
  obtain ⟨kind, literal, _, rfl⟩ := Piece.token?_eq_some_iff.mp found
  refine ⟨before ++ piece.text, after, Text.splitAtByte?_eq_some_iff.mpr ⟨whole, ?_⟩, ?_⟩
  · rw [Text.byteLength_append, Position.past_offset, endOf_offset]
  · rw [Text.newlines_append, Position.past_line, endOf_line, Nat.add_assoc]

theorem onLine_eof (source : Text) :
    OnLine source (Token.eof (endOf source).line (endOf source).offset) := by
  refine ⟨source, [], Text.splitAtByte?_eq_some_iff.mpr ⟨?_, ?_⟩, endOf_line source⟩
  · exact (List.append_nil source).symm
  · exact (endOf_offset source).symm

theorem onLine_of_mem_tokensOf {source : Text} {t : Token} (h : t ∈ tokensOf source) :
    OnLine source t := by
  rcases exists_of_mem_tokensOf h with ⟨before, piece, after, whole, _, found⟩ | rfl
  · exact onLine_of_token? whole found
  · exact onLine_eof source

/-- Tokens with a value come from strings and from numbers. -/
theorem string_or_number {piece : Piece} {p : Position} {t : Token}
    (found : piece.token? p = some t) (literal : t.kind.isLiteral) :
    (t.kind = .string ∧ ∃ body, piece = .string body) ∨
      (t.kind = .number ∧ ∃ n, piece = .number n) := by
  obtain ⟨kind, value, reading, rfl⟩ := Piece.token?_eq_some_iff.mp found
  cases piece with
  | string body =>
      cases reading
      exact Or.inl ⟨rfl, body, rfl⟩
  | number n =>
      cases reading
      exact Or.inr ⟨rfl, n, rfl⟩
  | operator o => cases reading; cases literal
  | word w =>
      obtain ⟨rfl, _⟩ := Reading.token.inj reading
      change (Kind.ofWord w).isLiteral at literal
      rw [Kind.ofWord] at literal
      cases h : Keyword.ofSpelling? w <;> rw [h] at literal <;> cases literal
  | _ => cases reading

theorem onQuoteLine_of_mem_tokensOf {source : Text} {t : Token} (h : t ∈ tokensOf source)
    (string : t.kind = .string) : OnQuoteLine source t := by
  rcases exists_of_mem_tokensOf h with ⟨before, piece, after, whole, _, found⟩ | rfl
  · have literal : t.kind.isLiteral := string ▸ rfl
    rcases string_or_number found literal with ⟨_, body, rfl⟩ | ⟨number, _⟩
    case inr => cases string.symm.trans number
    obtain ⟨kind, literal, _, rfl⟩ := Piece.token?_eq_some_iff.mp found
    have closing : Text.newlines (Piece.string body).text = Text.newlines ('"' :: body) := by
      rw [Piece.text, Text.newlines_append]
      rfl
    refine ⟨before ++ '"' :: body, after, ?_, ?_, ?_⟩
    · simpa [Piece.text] using whole
    · rw [Position.past_offset, endOf_offset, Piece.text, Text.byteLength_append,
        Text.byteLength_append _ ['"'], Nat.add_assoc]
      rfl
    · rw [Text.newlines_append, Position.past_line, endOf_line, closing, Nat.add_assoc]
  · cases string

/-- Every token carries the line on which it stops, a string that of its closing quote, and the
end the line of the end of the source. The scanner with the byte cursor counts no line otherwise. -/
theorem tokens_onLine (source : Text) :
    (∀ t ∈ (scan source).tokens, OnLine source t ∧
      (t.kind = .string → OnQuoteLine source t) ∧
      (t.kind = .eof → t.line = 1 + Text.newlines source)) ∧
    (∃ t ∈ (scan source).tokens, t.kind = .eof) ∧
    ∀ (σ : Type) (o : Observer σ) (s : σ),
      ∃ observed, Cursor.scan? o source s = some ((scan source).tokens, observed) := by
  rw [scan_eq]
  refine ⟨?_, ?_, ?_⟩
  · intro t h
    refine ⟨onLine_of_mem_tokensOf h, onQuoteLine_of_mem_tokensOf h, ?_⟩
    intro ended
    rcases exists_of_mem_tokensOf h with ⟨_, piece, _, _, _, found⟩ | rfl
    · exact absurd ended (Piece.kind_ne_eof found)
    · exact endOf_line source
  · exact ⟨_, List.mem_append_right _ (List.mem_singleton.mpr rfl), rfl⟩
  · intro σ o s
    rw [Cursor.scan?_eq, scanObserved_eq]
    exact ⟨_, rfl⟩

end LoxLexer

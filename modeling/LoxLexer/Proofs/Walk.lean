import LoxLexer.Scan

/-!
# The walk over the pieces

What a scan finds is read off the pieces of the source, each at its own position. The observer
sees the diagnostics go by in order and has no say in the tokens (`scanObserved_eq`).
-/

namespace LoxLexer

namespace Position
variable (p : Position) (t : Text)

@[simp] theorem past_offset : (p.past t).offset = p.offset + Text.byteLength t := rfl

@[simp] theorem past_line : (p.past t).line = p.line + Text.newlines t := rfl

end Position

/-- Kind, text and value of a token, wherever it stands. -/
abbrev Content := Kind × Text × Option Literal

def Token.content (t : Token) : Content := (t.kind, t.lexeme, t.literal)

namespace Piece

/-- The token of a piece that starts at a position. -/
def token? (p : Position) (piece : Piece) : Option Token :=
  match piece.reading with
  | .token kind literal =>
      some ⟨kind, piece.text, literal, (p.past piece.text).line,
        ⟨p.offset, (p.past piece.text).offset⟩⟩
  | .skipped | .fault _ => none

def fault? (piece : Piece) : Option Fault :=
  match piece.reading with
  | .fault f => some f
  | .skipped | .token _ _ => none

/-- What a piece that starts at a position has to be reported for. -/
def diagnostic? (p : Position) (piece : Piece) : Option Diagnostic :=
  piece.fault?.map fun f => ⟨(p.past piece.text).line, f.message⟩

theorem token?_eq_some_iff {p : Position} {piece : Piece} {t : Token} :
    piece.token? p = some t ↔ ∃ kind literal, piece.reading = .token kind literal ∧
      t = ⟨kind, piece.text, literal, (p.past piece.text).line,
        ⟨p.offset, (p.past piece.text).offset⟩⟩ := by
  constructor
  · intro h
    cases found : piece.reading with
    | token kind literal =>
        rw [token?, found] at h
        exact ⟨kind, literal, rfl, (Option.some.inj h).symm⟩
    | skipped =>
        rw [token?, found] at h
        cases h
    | fault f =>
        rw [token?, found] at h
        cases h
  · rintro ⟨kind, literal, found, rfl⟩
    rw [token?, found]

/-- Only strings and numerals stand for a value. -/
theorem string_or_number_of_literal {p : Position} {piece : Piece} {t : Token} {value : Literal}
    (found : piece.token? p = some t) (literal : t.literal = some value) :
    (∃ body, piece = .string body ∧ value = .string body) ∨
      ∃ n, piece = .number n ∧ value = .number n.value := by
  obtain ⟨kind, _, reading, rfl⟩ := token?_eq_some_iff.mp found
  obtain rfl := literal
  cases piece with
  | string body =>
      cases reading
      exact Or.inl ⟨body, rfl, rfl⟩
  | number n =>
      cases reading
      exact Or.inr ⟨n, rfl, rfl⟩
  | _ => cases reading

theorem kind_ne_eof {p : Position} {piece : Piece} {t : Token} (h : piece.token? p = some t) :
    t.kind ≠ .eof := by
  obtain ⟨kind, literal, found, rfl⟩ := token?_eq_some_iff.mp h
  cases piece with
  | word w =>
      cases found
      change Kind.ofWord w ≠ .eof
      rw [Kind.ofWord]
      cases Keyword.ofSpelling? w <;> exact Kind.noConfusion
  | operator o => cases found; exact Kind.noConfusion
  | number n => cases found; exact Kind.noConfusion
  | string body => cases found; exact Kind.noConfusion
  | _ => cases found

end Piece

/-- Pieces that follow each other, with the position where each one starts. -/
def placed (p : Position) : List Piece → List (Position × Piece)
  | [] => []
  | piece :: pieces => (p, piece) :: placed (p.past piece.text) pieces

def tokensFrom (p : Position) (pieces : List Piece) : List Token :=
  (placed p pieces).filterMap fun (p, piece) => piece.token? p

def diagnosticsFrom (p : Position) (pieces : List Piece) : List Diagnostic :=
  (placed p pieces).filterMap fun (p, piece) => piece.diagnostic? p

section From
variable (p : Position) (piece : Piece) (pieces : List Piece)

@[simp] theorem tokensFrom_nil : tokensFrom p [] = [] := rfl

@[simp] theorem diagnosticsFrom_nil : diagnosticsFrom p [] = [] := rfl

theorem tokensFrom_cons : tokensFrom p (piece :: pieces) =
    (piece.token? p).toList ++ tokensFrom (p.past piece.text) pieces := by
  cases h : piece.token? p <;> simp [tokensFrom, placed, h]

theorem diagnosticsFrom_cons : diagnosticsFrom p (piece :: pieces) =
    (piece.diagnostic? p).toList ++ diagnosticsFrom (p.past piece.text) pieces := by
  cases h : piece.diagnostic? p <;> simp [diagnosticsFrom, placed, h]

theorem map_message_diagnosticsFrom : (diagnosticsFrom p pieces).map Diagnostic.message =
    (pieces.filterMap Piece.fault?).map Fault.message := by
  induction pieces generalizing p with
  | nil => rfl
  | cons piece pieces ih =>
      rw [diagnosticsFrom_cons, List.map_append, ih]
      cases h : piece.fault? <;> simp [Piece.diagnostic?, h]

/-- A token comes after as many tokens as the pieces before its own hold. -/
theorem exists_of_getElem?_tokensFrom {i : Nat} {t : Token}
    (h : (tokensFrom p pieces)[i]? = some t) :
    ∃ earlier piece later, pieces = earlier ++ piece :: later ∧
      (tokensFrom p earlier).length = i ∧
      piece.token? (p.past (earlier.flatMap Piece.text)) = some t := by
  induction pieces generalizing p i with
  | nil => simp at h
  | cons piece pieces ih =>
      rw [tokensFrom_cons] at h
      cases found : piece.token? p with
      | none =>
          rw [found] at h
          obtain ⟨earlier, here, later, rfl, count, token⟩ := ih _ h
          refine ⟨piece :: earlier, here, later, rfl, ?_, by simpa using token⟩
          rw [tokensFrom_cons, found]
          exact count
      | some first =>
          rw [found] at h
          cases i with
          | zero =>
              obtain rfl : first = t := Option.some.inj h
              exact ⟨[], piece, pieces, rfl, rfl, found⟩
          | succ i =>
              obtain ⟨earlier, here, later, rfl, count, token⟩ := ih _ h
              refine ⟨piece :: earlier, here, later, rfl, ?_, by simpa using token⟩
              rw [tokensFrom_cons, found, List.length_append, count]
              exact Nat.add_comm 1 i

/-- A token belongs to one of the pieces, and starts after the texts of those before it. -/
theorem exists_of_mem_tokensFrom {t : Token} (h : t ∈ tokensFrom p pieces) :
    ∃ earlier piece later, pieces = earlier ++ piece :: later ∧
      piece.token? (p.past (earlier.flatMap Piece.text)) = some t := by
  obtain ⟨i, there⟩ := List.getElem?_of_mem h
  obtain ⟨earlier, piece, later, split, _, token⟩ := exists_of_getElem?_tokensFrom p pieces there
  exact ⟨earlier, piece, later, split, token⟩

theorem kind_ne_eof_of_mem {t : Token} (h : t ∈ tokensFrom p pieces) : t.kind ≠ .eof := by
  obtain ⟨_, piece, _, _, found⟩ := exists_of_mem_tokensFrom p pieces h
  exact Piece.kind_ne_eof found

theorem offset_le_start {t : Token} (h : t ∈ tokensFrom p pieces) : p.offset ≤ t.span.start := by
  obtain ⟨earlier, piece, later, _, found⟩ := exists_of_mem_tokensFrom p pieces h
  obtain ⟨_, _, _, rfl⟩ := Piece.token?_eq_some_iff.mp found
  exact Nat.le_add_right _ _

end From

/-- What an observer makes of one diagnostic. -/
def Observer.take {σ : Type} (o : Observer σ) (s : σ) (d : Diagnostic) : σ :=
  o.report (o.log s (.malformedInput d)) d

namespace Progress
variable {σ : Type} (o : Observer σ)

theorem step_eq (p : Progress σ) (piece : Piece) :
    p.step o piece =
      ⟨p.position.past piece.text,
        p.tokens ++ (piece.token? p.position).toArray,
        p.reported + (piece.diagnostic? p.position).toList.length,
        (piece.diagnostic? p.position).toList.foldl o.take p.observed⟩ := by
  cases h : piece.reading with
  | token kind literal => simp [step, Piece.token?, Piece.diagnostic?, Piece.fault?, h]
  | skipped => simp [step, Piece.token?, Piece.diagnostic?, Piece.fault?, h]
  | fault f => simp [step, Piece.token?, Piece.diagnostic?, Piece.fault?, h, Observer.take]

theorem foldl_step (pieces : List Piece) (p : Progress σ) :
    pieces.foldl (step o) p =
      ⟨p.position.past (pieces.flatMap Piece.text),
        p.tokens ++ (tokensFrom p.position pieces).toArray,
        p.reported + (diagnosticsFrom p.position pieces).length,
        (diagnosticsFrom p.position pieces).foldl o.take p.observed⟩ := by
  induction pieces generalizing p with
  | nil => simp
  | cons piece pieces ih =>
      rw [List.foldl_cons, ih, step_eq, tokensFrom_cons, diagnosticsFrom_cons]
      cases piece.token? p.position <;> cases piece.diagnostic? p.position <;>
        simp [Nat.add_assoc, Nat.add_comm 1]

end Progress

/-- The position after the whole source. -/
def endOf (source : Text) : Position := Position.start.past source

theorem endOf_line (source : Text) : (endOf source).line = 1 + Text.newlines source := rfl

theorem endOf_offset (source : Text) : (endOf source).offset = Text.byteLength source :=
  Nat.zero_add _

/-- The tokens of a source, the end included. -/
def tokensOf (source : Text) : List Token :=
  tokensFrom Position.start (cut source) ++ [Token.eof (endOf source).line (endOf source).offset]

def diagnosticsOf (source : Text) : List Diagnostic := diagnosticsFrom Position.start (cut source)

/-- A token of a source belongs to a piece, between the text before it and the text after it, or
is the end. -/
theorem exists_of_mem_tokensOf {source : Text} {t : Token} (h : t ∈ tokensOf source) :
    (∃ (before : Text) (piece : Piece) (after : Text), source = before ++ piece.text ++ after ∧
      piece.text ≠ [] ∧ piece.token? (endOf before) = some t) ∨
    t = Token.eof (endOf source).line (endOf source).offset := by
  rcases List.mem_append.mp h with h | h
  · obtain ⟨earlier, piece, later, split, found⟩ := exists_of_mem_tokensFrom _ _ h
    have whole := flatMap_text_cut source
    rw [split, List.flatMap_append, List.flatMap_cons, ← List.append_assoc] at whole
    have member : piece ∈ cut source := by simp [split]
    exact Or.inl ⟨_, piece, _, whole.symm, text_ne_nil_of_mem_cut member, found⟩
  · exact Or.inr (List.mem_singleton.mp h)

/-- Any observer is shown the same diagnostics and the same last word, and tokens are as with
any other. -/
theorem scanObserved_eq {σ : Type} (o : Observer σ) (source : Text) (s : σ) :
    scanObserved o source s =
      (tokensOf source, o.log ((diagnosticsOf source).foldl o.take s)
        (.scanComplete (tokensOf source).length (endOf source).line
          (diagnosticsOf source).length)) := by
  simp [scanObserved, Progress.finish, Progress.foldl_step, Progress.start, tokensOf,
    diagnosticsOf, endOf, flatMap_text_cut]

theorem foldl_take_gather (ds : List Diagnostic) (kept : Array Diagnostic) :
    ds.foldl Observer.gather.take kept = kept ++ ds.toArray := by
  induction ds generalizing kept with
  | nil => simp
  | cons d ds ih =>
      rw [List.foldl_cons, ih]
      simp [Observer.take, Observer.gather, Observer.ofReport]

theorem scan_eq (source : Text) : scan source = ⟨tokensOf source, diagnosticsOf source⟩ := by
  rw [scan, scanObserved_eq, foldl_take_gather]
  simp [Observer.gather, Observer.ofReport]

/-- What is reported is the fault of a piece. -/
theorem exists_fault {source : Text} {d : Diagnostic} (h : d ∈ (scan source).diagnostics) :
    ∃ piece ∈ cut source, ∃ f, piece.fault? = some f ∧ d.message = f.message := by
  rw [scan_eq] at h
  have message : d.message ∈ (diagnosticsOf source).map Diagnostic.message :=
    List.mem_map_of_mem h
  rw [diagnosticsOf, map_message_diagnosticsFrom] at message
  obtain ⟨f, fault, same⟩ := List.mem_map.mp message
  obtain ⟨piece, member, found⟩ := List.mem_filterMap.mp fault
  exact ⟨piece, member, f, found, same.symm⟩

end LoxLexer

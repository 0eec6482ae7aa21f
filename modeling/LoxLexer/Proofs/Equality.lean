import LoxLexer.Proofs.Reporting
import LoxLexer.Proofs.Tiling

/-!
# Equality of what is found

Results of scans are compared with numbers taken as numbers. In general this is no equality: there
are two zeros, and what is not a number differs from itself. The numbers that a scan finds are never
of this sort, so two scans that compare equal have found the same to the last bit, and then their
sources are alike in outline (`scan_equality`). Layout and comments may still differ.
-/

namespace LoxLexer

/-! Numbers and literals. -/

theorem Binary64.toBits_injective {x y : Binary64} (same : x.toBits = y.toBits) : x = y := by
  rw [← ofBits_toBits x, same, ofBits_toBits]

/-- Two zeros are equal with other bits, and what is not a number is not equal with the same. -/
example :
    let zero : Binary64 := ⟨false, 0, by decide⟩
    let negativeZero : Binary64 := ⟨true, 0, by decide⟩
    let noNumber : Binary64 := ⟨false, Binary64.infinityCode + 1, by decide⟩
    zero.equal negativeZero ∧ zero.toBits ≠ negativeZero.toBits ∧ ¬ noNumber.equal noNumber := by
  decide

/-- A number, or infinity, without a sign. -/
structure Binary64.IsUnsigned (x : Binary64) : Prop where
  nonnegative : x.negative = false
  number : x.isNaN = false

theorem Binary64.equal_iff_eq {x y : Binary64} (hx : x.IsUnsigned) (hy : y.IsUnsigned) :
    x.equal y ↔ x = y := by
  constructor
  · intro same
    simp only [equal, hx.number, hy.number, isZero, Bool.not_false, Bool.true_and, Bool.or_eq_true,
      Bool.and_eq_true, beq_iff_eq, decide_eq_true_eq] at same
    rcases same with same | ⟨zeroX, zeroY⟩
    · exact same
    · -- Without a sign there is one zero only.
      apply Binary64.ext
      · rw [hx.nonnegative, hy.nonnegative]
      · rw [zeroX, zeroY]
  · rintro rfl
    exact equal_self_iff.mpr hx.number

theorem Numeral.isUnsigned_value (n : Numeral) : n.value.IsUnsigned :=
  ⟨rfl, Binary64.isNaN_nearest _ _⟩

/-- The same value or none on both sides, numbers bit by bit. -/
inductive Literal.SameBits : Option Literal → Option Literal → Prop
  | none : SameBits none none
  | number {x y : Binary64} (bits : x.toBits = y.toBits) :
      SameBits (some (.number x)) (some (.number y))
  | string (value : Text) : SameBits (some (.string value)) (some (.string value))

theorem Literal.sameBits_iff {l m : Option Literal} : SameBits l m ↔ l = m := by
  constructor
  · rintro (_ | bits | value)
    · rfl
    · rw [Binary64.toBits_injective bits]
    · rfl
  · rintro rfl
    rcases l with _ | _ | value
    · exact .none
    · exact .number rfl
    · exact .string value

/-- The value, if it is a number, is one without a sign. -/
def Literal.IsUnsigned (l : Option Literal) : Prop := ∀ x, l = some (.number x) → x.IsUnsigned

theorem Literal.equalOption_iff {l m : Option Literal} (hl : IsUnsigned l) (hm : IsUnsigned m) :
    equalOption l m ↔ l = m := by
  rcases l with _ | x | s
  · cases m <;> simp [equalOption]
  · rcases m with _ | y | t
    · simp [equalOption]
    · simpa [equalOption, equal] using Binary64.equal_iff_eq (hl x rfl) (hm y rfl)
    · simp [equalOption, equal]
  · rcases m with _ | y | t
    · simp [equalOption]
    · simp [equalOption, equal]
    · simp [equalOption, equal]

/-! Tokens. -/

/-- Alike in every field, numbers bit by bit. -/
structure Token.Identical (s t : Token) : Prop where
  kind : s.kind = t.kind
  lexeme : s.lexeme = t.lexeme
  literal : Literal.SameBits s.literal t.literal
  line : s.line = t.line
  span : s.span = t.span

theorem Token.identical_iff {s t : Token} : s.Identical t ↔ s = t := by
  obtain ⟨kind, lexeme, literal, line, span⟩ := s
  obtain ⟨kind', lexeme', literal', line', span'⟩ := t
  constructor
  · rintro ⟨rfl, rfl, same, rfl, rfl⟩
    obtain rfl : literal = literal' := Literal.sameBits_iff.mp same
    rfl
  · rintro ⟨⟩
    exact ⟨rfl, rfl, Literal.sameBits_iff.mpr rfl, rfl, rfl⟩

theorem Token.equal_iff_eq {s t : Token} (hs : Literal.IsUnsigned s.literal)
    (ht : Literal.IsUnsigned t.literal) : s.equal t ↔ s = t := by
  obtain ⟨kind, lexeme, literal, line, span⟩ := s
  obtain ⟨kind', lexeme', literal', line', span'⟩ := t
  have literals : Literal.equalOption literal literal' ↔ literal = literal' :=
    Literal.equalOption_iff hs ht
  simp [equal, literals, and_assoc]

/-- Numbers are found in numerals only. -/
theorem isUnsigned_of_mem_tokensOf {source : Text} {t : Token} (member : t ∈ tokensOf source) :
    Literal.IsUnsigned t.literal := by
  intro x value
  rcases exists_of_mem_tokensOf member with ⟨before, piece, after, _, _, found⟩ | rfl
  · rcases Piece.string_or_number_of_literal found value with ⟨_, _, string⟩ | ⟨n, _, number⟩
    · cases string
    · cases number
      exact n.isUnsigned_value
  · cases value

/-! What scans have found. -/

namespace Scanned

/-- Token by token and report by report alike in every field. -/
structure Identical (a b : Scanned) : Prop where
  tokens : List.Forall₂ Token.Identical a.tokens b.tokens
  diagnostics : a.diagnostics = b.diagnostics

theorem identical_iff {a b : Scanned} : a.Identical b ↔ a = b := by
  obtain ⟨tokens, diagnostics⟩ := a
  obtain ⟨tokens', diagnostics'⟩ := b
  have same : List.Forall₂ Token.Identical tokens tokens' ↔ tokens = tokens' := by
    have alike : Token.Identical = Eq := by
      funext s t
      exact propext Token.identical_iff
    rw [alike, List.forall₂_eq_eq_eq]
  constructor
  · rintro ⟨alike, rfl⟩
    rw [same.mp alike]
  · rintro ⟨⟩
    exact ⟨same.mpr rfl, rfl⟩

/-- As many tokens, and each equal to the one in its place. -/
theorem tokensEqual_iff {a b : Scanned} :
    a.tokensEqual b ↔ List.Forall₂ (fun s t => s.equal t) a.tokens b.tokens := by
  rw [tokensEqual, List.forall₂_iff_zip]
  simp

end Scanned

theorem tokensEqual_scan_iff {a b : Text} :
    (scan a).tokensEqual (scan b) ↔ (scan a).tokens = (scan b).tokens := by
  -- Place by place, since the two equalities agree only for tokens that were found.
  rw [Scanned.tokensEqual_iff, tokens_scan, tokens_scan, ← List.forall₂_eq_eq_eq,
    List.forall₂_iff_zip, List.forall₂_iff_zip]
  apply and_congr_right
  intro length
  have each : ∀ {s t : Token}, (s, t) ∈ (tokensOf a).zip (tokensOf b) → (s.equal t ↔ s = t) := by
    intro s t pair
    obtain ⟨inA, inB⟩ := List.of_mem_zip pair
    exact Token.equal_iff_eq (isUnsigned_of_mem_tokensOf inA) (isUnsigned_of_mem_tokensOf inB)
  constructor
  · intro all s t pair
    exact (each pair).mp (all pair)
  · intro all s t pair
    exact (each pair).mpr (all pair)

theorem equal_scan_iff {a b : Text} : (scan a).equal (scan b) ↔ scan a = scan b := by
  rw [Scanned.equal, Bool.and_eq_true, tokensEqual_scan_iff, beq_iff_eq]
  obtain ⟨tokens, diagnostics⟩ := scan a
  obtain ⟨tokens', diagnostics'⟩ := scan b
  simp

/-! What they tell of their sources. -/

/-- As long in bytes and lines, and the same text wherever a token stands. -/
structure SameOutline (a b : Text) : Prop where
  byteLength : Text.byteLength a = Text.byteLength b
  newlines : Text.newlines a = Text.newlines b
  texts : ∀ t ∈ (scan a).tokens,
    Text.slice? a t.span.start t.span.stop = some t.lexeme ∧
      Text.slice? b t.span.start t.span.stop = some t.lexeme

/-- The end tells how long the source is. -/
theorem sameOutline_of_scan_eq {a b : Text} (same : scan a = scan b) : SameOutline a b := by
  have tokens : tokensOf a = tokensOf b := by
    rw [← tokens_scan, same, tokens_scan]
  have last := congrArg List.getLast? tokens
  rw [tokensOf, tokensOf, List.getLast?_concat, List.getLast?_concat, endOf_line, endOf_line,
    endOf_offset, endOf_offset] at last
  obtain ⟨line, offset⟩ : 1 + Text.newlines a = 1 + Text.newlines b ∧
      Text.byteLength a = Text.byteLength b := by
    simpa [Token.eof] using last
  refine ⟨offset, Nat.add_left_cancel line, ?_⟩
  intro t member
  rw [tokens_scan] at member
  exact ⟨(sliced_of_mem_tokensOf member).1, (sliced_of_mem_tokensOf (tokens ▸ member)).1⟩

/-- For what scans find, to compare equal is to be identical in every field and bit, so each scan
equals itself, and equality goes both ways and on. Sources whose scans are equal are as long as each
other in bytes and lines, and hold the same text wherever a token stands. -/
theorem scan_equality :
    (Equivalence fun a b : Text => (scan a).equal (scan b) = true) ∧
    ∀ a b : Text,
      ((scan a).equal (scan b) ↔ (scan a).Identical (scan b)) ∧
      ((scan a).equal (scan b) → SameOutline a b) := by
  constructor
  · simp only [equal_scan_iff]
    exact ⟨fun _ => rfl, Eq.symm, Eq.trans⟩
  · intro a b
    rw [Scanned.identical_iff, equal_scan_iff]
    exact ⟨Iff.rfl, sameOutline_of_scan_eq⟩

/-- A number beyond all finite ones, with a space or a tab behind it, and a fault. -/
theorem infinite_number_equal :
    let digits : Text := List.replicate 310 '9'
    let a := digits ++ " \n@".toList
    let b := digits ++ "\t\n@".toList
    let infinity : Binary64 := ⟨false, Binary64.infinityCode, by decide⟩
    (scan a).tokens = [⟨.number, digits, some (.number infinity), 1, ⟨0, 310⟩⟩, Token.eof 2 313] ∧
      (scan a).equal (scan b) ∧ (scan a).Identical (scan b) ∧ SameOutline a b ∧
      (scan a).equal (scan a) := by
  intro digits a b infinity
  obtain ⟨equivalence, pairs⟩ := scan_equality
  obtain ⟨identical, outline⟩ := pairs a b
  have found : (scan a).tokens =
      [⟨.number, digits, some (.number infinity), 1, ⟨0, 310⟩⟩, Token.eof 2 313] := by
    decide +kernel
  have same : (scan a).equal (scan b) := by decide +kernel
  exact ⟨found, same, identical.mp same, outline same, equivalence.refl a⟩

end LoxLexer

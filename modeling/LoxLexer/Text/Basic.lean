/-!
# Text and its byte positions

Text is a list of characters. Positions in it count the bytes of its UTF-8 form, so a position may
fall outside the text or inside a character; `splitAtByte?` answers only for the others.
-/

namespace LoxLexer

abbrev Text := List Char

namespace Text

/-- Number of bytes of the UTF-8 form. -/
def byteLength : Text → Nat
  | [] => 0
  | c :: t => c.utf8Size + byteLength t

/-- Number of line feeds. -/
def newlines (t : Text) : Nat := t.count '\n'

/-- Cuts the text after its first `n` bytes, unless that is outside it or inside a character. -/
def splitAtByte? : Text → Nat → Option (Text × Text)
  | t, 0 => some ([], t)
  | [], _ + 1 => none
  | c :: t, n + 1 =>
      if c.utf8Size ≤ n + 1 then
        (splitAtByte? t (n + 1 - c.utf8Size)).map fun (before, after) => (c :: before, after)
      else none

/-- The text between two byte positions. -/
def slice? (t : Text) (start stop : Nat) : Option Text := do
  let (before, _) ← splitAtByte? t stop
  let (_, between) ← splitAtByte? before start
  pure between

@[simp] theorem byteLength_nil : byteLength [] = 0 := rfl

@[simp] theorem byteLength_cons (c : Char) (t : Text) :
    byteLength (c :: t) = c.utf8Size + byteLength t := rfl

@[simp] theorem byteLength_append (s t : Text) :
    byteLength (s ++ t) = byteLength s + byteLength t := by
  induction s with
  | nil => simp
  | cons c s ih => simp [ih, Nat.add_assoc]

@[simp] theorem newlines_append (s t : Text) : newlines (s ++ t) = newlines s + newlines t := by
  simp [newlines]

theorem byteLength_pos {t : Text} (h : t ≠ []) : 0 < byteLength t := by
  obtain ⟨c, t, rfl⟩ := List.exists_cons_of_ne_nil h
  exact Nat.add_pos_left c.utf8Size_pos _

theorem splitAtByte?_append (s t : Text) : splitAtByte? (s ++ t) (byteLength s) = some (s, t) := by
  induction s with
  | nil => cases t <;> rfl
  | cons c s ih =>
      obtain ⟨n, hn⟩ : ∃ n, c.utf8Size + byteLength s = n + 1 :=
        ⟨c.utf8Size + byteLength s - 1, by have := c.utf8Size_pos; omega⟩
      have hle : c.utf8Size ≤ n + 1 := by omega
      have hrest : n + 1 - c.utf8Size = byteLength s := by omega
      simp [hn, splitAtByte?, hle, hrest, ih]

/-- A cut is found exactly at the byte lengths of the text's own beginnings. -/
theorem splitAtByte?_eq_some_iff {t before after : Text} {n : Nat} :
    splitAtByte? t n = some (before, after) ↔ t = before ++ after ∧ byteLength before = n := by
  constructor
  · intro h
    induction t generalizing n before with
    | nil =>
        cases n with
        | zero => simp_all [splitAtByte?]
        | succ n => simp [splitAtByte?] at h
    | cons c t ih =>
        cases n with
        | zero => simp_all [splitAtByte?]
        | succ n =>
            rw [splitAtByte?] at h
            split at h
            · obtain ⟨⟨b, a⟩, hb, he⟩ := Option.map_eq_some_iff.mp h
              cases he
              obtain ⟨ht, hn⟩ := ih hb
              subst ht
              exact ⟨rfl, by simp; omega⟩
            · simp at h
  · rintro ⟨rfl, rfl⟩
    exact splitAtByte?_append before after

/-- A text is cut after so many bytes in one way only. -/
theorem append_inj_of_byteLength {s t before after : Text} (whole : s ++ t = before ++ after)
    (h : byteLength s = byteLength before) : s = before ∧ t = after := by
  have cut := splitAtByte?_append s t
  rw [whole, h, splitAtByte?_append] at cut
  cases cut
  exact ⟨rfl, rfl⟩

/-- A slice is found exactly between the byte lengths of two of the text's own beginnings. -/
theorem slice?_eq_some_iff {t between : Text} {start stop : Nat} :
    slice? t start stop = some between ↔
      ∃ before after, t = before ++ between ++ after ∧ byteLength before = start ∧
        byteLength (before ++ between) = stop := by
  constructor
  · intro h
    obtain ⟨⟨upTo, after⟩, hstop, h⟩ := Option.bind_eq_some_iff.mp h
    obtain ⟨⟨before, found⟩, hstart, h⟩ := Option.bind_eq_some_iff.mp h
    cases h
    obtain ⟨rfl, rfl⟩ := splitAtByte?_eq_some_iff.mp hstop
    obtain ⟨rfl, rfl⟩ := splitAtByte?_eq_some_iff.mp hstart
    exact ⟨before, after, rfl, rfl, rfl⟩
  · rintro ⟨before, after, rfl, rfl, rfl⟩
    simp only [slice?, splitAtByte?_append, Option.bind_eq_bind, Option.bind_some]
    rfl

end Text

end LoxLexer

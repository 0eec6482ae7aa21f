import LoxLexer.Token.Kind
import LoxLexer.Number.Decimal

/-!
# Pieces of a source text

A source text is cut from left to right into pieces: operators, words, numbers, strings, comments,
single characters of layout, and what fits none of these. Every piece keeps its text, and the
texts of the pieces in order are the source (`flatMap_text_cut`).
-/

namespace LoxLexer

/-- Letters are the ASCII ones, and the underscore counts as a letter. -/
def isWordStart (c : Char) : Bool := c.isAlpha || c == '_'

def isWordChar (c : Char) : Bool := isWordStart c || c.isDigit

def isLayout (c : Char) : Bool := c == ' ' || c == '\r' || c == '\t' || c == '\n'

namespace Operator

/-- The operator that is spelled with this one character. -/
def ofChar? (c : Char) : Option Operator := all.find? fun o => o.spelling == [c]

/-- The operator spelled like this one with an equals sign after it. -/
def withEqual? (o : Operator) : Option Operator :=
  all.find? fun long => long.spelling == o.spelling ++ ['=']

end Operator

inductive Piece where
  | operator (o : Operator)
  | word (text : Text)
  | number (numeral : Numeral)
  | string (body : Text)
  | comment (body : Text)
  | layout (c : Char)
  | unexpected (c : Char)
  | openString (body : Text)
  deriving DecidableEq

namespace Piece

def text : Piece → Text
  | operator o => o.spelling
  | word text => text
  | number numeral => numeral.text
  | string body => '"' :: body ++ ['"']
  | comment body => '/' :: '/' :: body
  | layout c => [c]
  | unexpected c => [c]
  | openString body => '"' :: body

/-- After its first character, an operator takes an equals sign if that makes an operator too. -/
def takeOperator (o : Operator) (rest : Text) : Piece × Text :=
  match o.withEqual?, rest with
  | some long, '=' :: after => (operator long, after)
  | _, _ => (operator o, rest)

def takeWord (c : Char) (rest : Text) : Piece × Text :=
  (word (c :: rest.takeWhile isWordChar), rest.dropWhile isWordChar)

/-- A point belongs to a number only if a digit follows it. -/
def takeNumber (c : Char) (rest : Text) : Piece × Text :=
  let whole := c :: rest.takeWhile Char.isDigit
  match rest.dropWhile Char.isDigit with
  | '.' :: d :: more =>
      if d.isDigit then
        (number ⟨whole, some (d :: more.takeWhile Char.isDigit)⟩, more.dropWhile Char.isDigit)
      else (number ⟨whole, none⟩, '.' :: d :: more)
  | after => (number ⟨whole, none⟩, after)

/-- A string runs to the next quote, over line ends too; without one it takes all the rest. -/
def takeString (rest : Text) : Piece × Text :=
  match rest.dropWhile (· != '"') with
  | [] => (openString rest, [])
  | _ :: after => (string (rest.takeWhile (· != '"')), after)

/-- A comment runs up to the end of the line, which is not part of it. -/
def takeComment (rest : Text) : Piece × Text :=
  (comment (rest.takeWhile (· != '\n')), rest.dropWhile (· != '\n'))

/-- The first piece of the text `c :: rest`, and the text after it. -/
def next (c : Char) (rest : Text) : Piece × Text :=
  if c = '"' then takeString rest
  else if c = '/' ∧ rest.head? = some '/' then takeComment rest.tail
  else if c.isDigit then takeNumber c rest
  else if isWordStart c then takeWord c rest
  else if isLayout c then (layout c, rest)
  else
    match Operator.ofChar? c with
    | some o => takeOperator o rest
    | none => (unexpected c, rest)

end Piece

namespace Operator

theorem spelling_ne_nil (o : Operator) : o.spelling ≠ [] := by cases o <;> simp [spelling]

theorem spelling_of_ofChar? {c : Char} {o : Operator} (h : ofChar? c = some o) :
    o.spelling = [c] := by
  have := List.find?_some h
  simpa using this

theorem spelling_of_withEqual? {o long : Operator} (h : o.withEqual? = some long) :
    long.spelling = o.spelling ++ ['='] := by
  have := List.find?_some h
  simpa using this

end Operator

namespace Piece

theorem text_append_takeOperator (o : Operator) (rest : Text) :
    (takeOperator o rest).1.text ++ (takeOperator o rest).2 = o.spelling ++ rest := by
  unfold takeOperator
  split
  · rename_i long after h
    simp [text, Operator.spelling_of_withEqual? h]
  · rfl

theorem text_append_takeNumber (c : Char) (rest : Text) :
    (takeNumber c rest).1.text ++ (takeNumber c rest).2 = c :: rest := by
  have whole := List.takeWhile_append_dropWhile (p := Char.isDigit) (l := rest)
  unfold takeNumber
  split
  · rename_i d more h
    rw [h] at whole
    split
    · simp [text, Numeral.text, whole, List.takeWhile_append_dropWhile]
    · simp [text, Numeral.text, whole]
  · simp [text, Numeral.text, whole]

theorem text_append_takeString (rest : Text) :
    (takeString rest).1.text ++ (takeString rest).2 = '"' :: rest := by
  have body := List.takeWhile_append_dropWhile (p := (· != '"')) (l := rest)
  unfold takeString
  split
  · simp [text]
  · rename_i q after h
    have hq : q = '"' := by
      have := List.head?_dropWhile_not (· != '"') rest
      simpa [h] using this
    subst hq
    rw [h] at body
    simp [text, body]

/-- The first piece and what follows it are the whole text. -/
theorem text_append_next (c : Char) (rest : Text) :
    (next c rest).1.text ++ (next c rest).2 = c :: rest := by
  unfold next
  split
  · rename_i h
    rw [text_append_takeString, h]
  · split
    · rename_i h
      obtain ⟨hc, hrest⟩ := h
      cases rest with
      | nil => simp at hrest
      | cons d rest =>
          simp only [List.head?_cons, Option.some.injEq] at hrest
          subst hc hrest
          simp [takeComment, text, List.takeWhile_append_dropWhile]
    · split
      · exact text_append_takeNumber c rest
      · split
        · simp [takeWord, text, List.takeWhile_append_dropWhile]
        · split
          · rfl
          · split
            · rename_i o h
              rw [text_append_takeOperator, Operator.spelling_of_ofChar? h]
              rfl
            · rfl

theorem text_takeOperator_ne_nil (o : Operator) (rest : Text) :
    (takeOperator o rest).1.text ≠ [] := by
  unfold takeOperator
  split
  · exact Operator.spelling_ne_nil _
  · exact Operator.spelling_ne_nil _

theorem text_takeNumber_ne_nil (c : Char) (rest : Text) : (takeNumber c rest).1.text ≠ [] := by
  unfold takeNumber
  split
  · split <;> simp [text, Numeral.text]
  · simp [text, Numeral.text]

theorem text_next_ne_nil (c : Char) (rest : Text) : (next c rest).1.text ≠ [] := by
  unfold next
  split
  · unfold takeString
    split <;> simp [text]
  · split
    · simp [takeComment, text]
    · split
      · exact text_takeNumber_ne_nil c rest
      · split
        · simp [takeWord, text]
        · split
          · simp [text]
          · split
            · exact text_takeOperator_ne_nil _ rest
            · simp [text]

theorem length_next_le (c : Char) (rest : Text) : (next c rest).2.length ≤ rest.length := by
  have whole := congrArg List.length (text_append_next c rest)
  have := List.length_pos_iff.mpr (text_next_ne_nil c rest)
  simp only [List.length_append, List.length_cons] at whole
  omega

end Piece

/-- The pieces of a source text, from left to right. -/
def cut : Text → List Piece
  | [] => []
  | c :: rest => (Piece.next c rest).1 :: cut (Piece.next c rest).2
termination_by source => source.length
decreasing_by
  have := Piece.length_next_le c rest
  simp only [List.length_cons]
  omega

@[simp] theorem cut_nil : cut [] = [] := by rw [cut]

theorem cut_cons (c : Char) (rest : Text) :
    cut (c :: rest) = (Piece.next c rest).1 :: cut (Piece.next c rest).2 := by rw [cut]

/-- Cutting loses nothing. -/
theorem flatMap_text_cut (source : Text) : (cut source).flatMap Piece.text = source := by
  fun_induction cut source with
  | case1 => rfl
  | case2 c rest ih => rw [List.flatMap_cons, ih, Piece.text_append_next]

theorem text_ne_nil_of_mem_cut {source : Text} {piece : Piece} (h : piece ∈ cut source) :
    piece.text ≠ [] := by
  fun_induction cut source with
  | case1 => cases h
  | case2 c rest ih =>
      rcases List.mem_cons.mp h with rfl | later
      · exact Piece.text_next_ne_nil c rest
      · exact ih later

end LoxLexer

import LoxLexer.Style

/-!
# What a terminal shows

A terminal reads text one character at a time. From the escape character on it reads a control
sequence; a sequence of renditions ends with the letter `m` and changes the look of what comes after
it. All other characters are shown, each in the look of the moment. Painted text is shown in its
style and leaves the look as it was (`Screen.read_paint`).

Cursor movements are no part of this: a sequence that ends otherwise is read and does nothing.
-/

namespace LoxLexer

/-- How a character looks. Without a foreground colour it has the one of the terminal. -/
structure Look where
  foreground : Option Nat
  bold : Bool
  dimmed : Bool
  deriving DecidableEq

namespace Look

def plain : Look := ⟨none, false, false⟩

/-- The look after a rendition. Numbers of other renditions leave it as it is. -/
def rendered (l : Look) (code : Nat) : Look :=
  if code = 0 then plain
  else if code = 1 then { l with bold := true }
  else if code = 2 then { l with dimmed := true }
  else if code = 39 then { l with foreground := none }
  else if 30 ≤ code ∧ code ≤ 37 ∨ 90 ≤ code ∧ code ≤ 97 then { l with foreground := some code }
  else l

theorem rendered_reset (l : Look) : l.rendered 0 = plain := rfl

theorem rendered_color (l : Look) (c : Color) :
    l.rendered c.code = { l with foreground := some c.code } := by
  cases c <;> rfl

end Look

def Style.look : Style → Look
  | plain => .plain
  | colored c => ⟨some c.code, false, false⟩
  | bold c => ⟨some c.code, true, false⟩
  | dimmed => ⟨none, false, true⟩

/-- How much of a control sequence has been read. -/
inductive Sequence where
  | none
  | begun
  | numbered (digits : Text)
  deriving DecidableEq

/-- A terminal that has read some text: the characters it shows, each in its look. -/
structure Screen where
  sequence : Sequence
  look : Look
  shown : List (Char × Look)
  deriving DecidableEq

namespace Screen

def read (s : Screen) (c : Char) : Screen :=
  match s.sequence with
  | .none =>
      if c = '\x1b' then { s with sequence := .begun }
      else { s with shown := s.shown ++ [(c, s.look)] }
  | .begun => { s with sequence := if c = '[' then .numbered [] else .none }
  | .numbered digits =>
      if c.isDigit then { s with sequence := .numbered (digits ++ [c]) }
      else if c = 'm' then
        { s with sequence := .none, look := s.look.rendered (natOfDigits digits) }
      else { s with sequence := .none }

/-- Outside of control sequences. -/
def showing (l : Look) (shown : List (Char × Look)) : Screen := ⟨.none, l, shown⟩

/-- What a terminal shows of a text, from a plain start. -/
def ofText (t : Text) : Screen := t.foldl read (showing .plain [])

variable {l : Look} {shown : List (Char × Look)}

theorem read_digits {digits : Text} (inside : ∀ c ∈ digits, c.isDigit) (before : Text) :
    digits.foldl read ⟨.numbered before, l, shown⟩ = ⟨.numbered (before ++ digits), l, shown⟩ := by
  induction digits generalizing before with
  | nil => rw [List.append_nil]; rfl
  | cons c digits ih =>
      obtain ⟨digit, others⟩ := List.forall_mem_cons.mp inside
      have first : read ⟨.numbered before, l, shown⟩ c = ⟨.numbered (before ++ [c]), l, shown⟩ :=
        if_pos digit
      rw [List.foldl_cons, first, ih others, List.append_assoc, List.singleton_append]

/-- A rendition changes the look and is not shown itself. -/
theorem read_rendition (code : Nat) :
    (rendition code).foldl read (showing l shown) = showing (l.rendered code) shown := by
  have begun : (rendition code).foldl read (showing l shown) =
      (digitsOfNat code ++ ['m']).foldl read ⟨.numbered [], l, shown⟩ := rfl
  rw [begun, List.foldl_append, read_digits fun _ => isDigit_of_mem_digitsOfNat, List.nil_append]
  have number := natOfDigits_digitsOfNat code
  change Screen.mk .none (l.rendered (natOfDigits (digitsOfNat code))) shown = _
  rw [number]
  rfl

/-- Text without the escape character is shown as it is. -/
theorem read_text {t : Text} (noEscape : '\x1b' ∉ t) :
    t.foldl read (showing l shown) = showing l (shown ++ t.map fun c => (c, l)) := by
  induction t generalizing shown with
  | nil => rw [List.map_nil, List.append_nil]; rfl
  | cons c t ih =>
      obtain ⟨notEscape, others⟩ := List.ne_and_not_mem_of_not_mem_cons noEscape
      have first : read (showing l shown) c = showing l (shown ++ [(c, l)]) :=
        if_neg (Ne.symm notEscape)
      rw [List.foldl_cons, first, ih others, List.append_assoc]
      rfl

theorem read_opening (s : Style) :
    s.opening.foldl read (showing .plain shown) = showing s.look shown := by
  cases s with
  | plain => rfl
  | colored c =>
      rw [Style.opening, read_rendition, Look.rendered_color]
      rfl
  | bold c =>
      rw [Style.opening, List.foldl_append, read_rendition, read_rendition, Look.rendered_color]
      rfl
  | dimmed => exact read_rendition 2

theorem read_closing (s : Style) :
    s.closing.foldl read (showing s.look shown) = showing .plain shown := by
  cases s with
  | plain => rfl
  | colored c => exact read_rendition 39
  | bold c =>
      rw [Style.closing, List.foldl_append, read_rendition, read_rendition, Look.rendered_reset]
  | dimmed => exact read_rendition 0

/-- Painted text is shown in its style, and what follows it is plain again. -/
theorem read_paint (s : Style) {t : Text} (noEscape : '\x1b' ∉ t) :
    (s.paint t).foldl read (showing .plain shown) =
      showing .plain (shown ++ t.map fun c => (c, s.look)) := by
  rw [Style.paint, List.foldl_append, List.foldl_append, read_opening, read_text noEscape,
    read_closing]

theorem read_runs {runs : Styled} (noEscape : ∀ run ∈ runs, '\x1b' ∉ run.2) :
    (Styled.paint runs).foldl read (showing .plain shown) =
      showing .plain (shown ++ runs.flatMap fun run => run.2.map fun c => (c, run.1.look)) := by
  induction runs generalizing shown with
  | nil => rw [List.flatMap_nil, List.append_nil]; rfl
  | cons run runs ih =>
      obtain ⟨first, others⟩ := List.forall_mem_cons.mp noEscape
      rw [Styled.paint_cons, List.foldl_append, read_paint run.1 first, ih others, List.flatMap_cons,
        List.append_assoc]

end Screen

/-! Taking the colours out. -/

namespace Text

/-- The text without its control sequences, each from an escape character to the next `m`. -/
def uncolored (inSequence : Bool) : Text → Text
  | [] => []
  | c :: t =>
      if inSequence then uncolored (c != 'm') t
      else if c = '\x1b' then uncolored true t
      else c :: uncolored false t

theorem uncolored_append {s : Text} (noEscape : '\x1b' ∉ s) (t : Text) :
    uncolored false (s ++ t) = s ++ uncolored false t := by
  induction s with
  | nil => rfl
  | cons c s ih =>
      obtain ⟨notEscape, others⟩ := List.ne_and_not_mem_of_not_mem_cons noEscape
      have first : uncolored false (c :: (s ++ t)) = c :: uncolored false (s ++ t) :=
        if_neg (Ne.symm notEscape)
      rw [List.cons_append, first, ih others, List.cons_append]

theorem uncolored_sequence {s : Text} (inside : 'm' ∉ s) (t : Text) :
    uncolored true (s ++ 'm' :: t) = uncolored false t := by
  induction s with
  | nil => rfl
  | cons c s ih =>
      obtain ⟨notEnd, others⟩ := List.ne_and_not_mem_of_not_mem_cons inside
      have goesOn : (c != 'm') = true := bne_iff_ne.mpr (Ne.symm notEnd)
      have first : uncolored true (c :: (s ++ 'm' :: t)) = uncolored (c != 'm') (s ++ 'm' :: t) :=
        rfl
      rw [List.cons_append, first, goesOn, ih others]

theorem uncolored_rendition (code : Nat) (t : Text) :
    uncolored false (rendition code ++ t) = uncolored false t := by
  have inside : 'm' ∉ '[' :: digitsOfNat code := by
    intro member
    rcases List.mem_cons.mp member with bracket | digit
    · exact absurd bracket (by decide)
    · exact absurd (isDigit_of_mem_digitsOfNat digit) (by decide)
  have text : rendition code ++ t = '\x1b' :: ('[' :: digitsOfNat code ++ 'm' :: t) := by
    simp [rendition]
  rw [text]
  exact uncolored_sequence inside t

theorem uncolored_opening (s : Style) (t : Text) :
    uncolored false (s.opening ++ t) = uncolored false t := by
  cases s with
  | plain => rfl
  | colored c => exact uncolored_rendition c.code t
  | bold c =>
      rw [Style.opening, List.append_assoc, uncolored_rendition, uncolored_rendition]
  | dimmed => exact uncolored_rendition 2 t

theorem uncolored_closing (s : Style) (t : Text) :
    uncolored false (s.closing ++ t) = uncolored false t := by
  cases s with
  | plain => rfl
  | colored c => exact uncolored_rendition 39 t
  | bold c =>
      rw [Style.closing, List.append_assoc, uncolored_rendition, uncolored_rendition]
  | dimmed => exact uncolored_rendition 0 t

theorem uncolored_paint (s : Style) {t : Text} (noEscape : '\x1b' ∉ t) (rest : Text) :
    uncolored false (s.paint t ++ rest) = t ++ uncolored false rest := by
  rw [Style.paint, List.append_assoc, List.append_assoc, uncolored_opening,
    uncolored_append noEscape, uncolored_closing]

/-- Colours hide nothing and add nothing. -/
theorem uncolored_runs_append {runs : Styled} (noEscape : ∀ run ∈ runs, '\x1b' ∉ run.2)
    (rest : Text) :
    uncolored false (Styled.paint runs ++ rest) = Styled.text runs ++ uncolored false rest := by
  induction runs with
  | nil => rfl
  | cons run runs ih =>
      obtain ⟨first, others⟩ := List.forall_mem_cons.mp noEscape
      have text : Styled.text (run :: runs) = run.2 ++ Styled.text runs := rfl
      rw [Styled.paint_cons, List.append_assoc, uncolored_paint run.1 first, ih others, text,
        List.append_assoc]

theorem uncolored_runs {runs : Styled} (noEscape : ∀ run ∈ runs, '\x1b' ∉ run.2) :
    uncolored false (Styled.paint runs) = Styled.text runs := by
  have all := uncolored_runs_append noEscape []
  rwa [List.append_nil, uncolored, List.append_nil] at all

end Text

end LoxLexer

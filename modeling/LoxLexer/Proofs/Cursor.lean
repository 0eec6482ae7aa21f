import LoxLexer.Proofs.Fit
import LoxLexer.Proofs.Walk

/-!
# Scanning with a byte cursor

This scanner knows no pieces. It takes one character after the other off the source, looks at most
two ahead, counts lines where it meets line feeds, and slices texts out of the source between byte
offsets of its own. A slice that is out of range or inside a character fails, and so does the whole
scan. No scan fails, and each finds what the walk over the pieces finds (`scan?_eq`).
-/

namespace LoxLexer

/-- The characters of a text with the byte offsets where they start. -/
def charOffsets (offset : Nat) : Text → List (Nat × Char)
  | [] => []
  | c :: t => (offset, c) :: charOffsets (offset + c.utf8Size) t

/-- The difference, unless it is negative. -/
def minus? (a b : Nat) : Option Nat := if b ≤ a then some (a - b) else none

theorem minus?_add (a b : Nat) : minus? (a + b) b = some a := by
  simp [minus?]

/-- The characters to come, where the text at hand starts, how far it goes, and the line. -/
structure Cursor where
  chars : List (Nat × Char)
  start : Nat
  current : Nat
  line : Nat

namespace Cursor

/-- What has been found from one start. -/
inductive Step where
  | emit (kind : Kind) (literal : Option Literal)
  | skip
  | malformed (message : Text)

def advance? (k : Cursor) : Option (Char × Cursor) :=
  match k.chars with
  | [] => none
  | (offset, c) :: chars => some (c, { k with chars, current := offset + c.utf8Size })

def peek? (k : Cursor) : Option Char := k.chars.head?.map Prod.snd

def peekNext? (k : Cursor) : Option Char := k.chars.tail.head?.map Prod.snd

def nextLine (k : Cursor) : Cursor := { k with line := k.line + 1 }

theorem length_advance? {k ahead : Cursor} {c : Char} (h : k.advance? = some (c, ahead)) :
    ahead.chars.length + 1 = k.chars.length := by
  obtain ⟨chars, start, current, line⟩ := k
  cases chars with
  | nil => cases h
  | cons first chars =>
      cases h
      rfl

/-- Takes the next character if it is the expected one. -/
def takeIf (expected : Char) (k : Cursor) : Option Cursor :=
  match k.advance? with
  | some (c, ahead) => if c = expected then some ahead else none
  | none => none

def skipWhile (sort : Char → Bool) (k : Cursor) : Cursor :=
  match _h : k.advance? with
  | some (c, ahead) => if sort c then skipWhile sort ahead else k
  | none => k
termination_by k.chars.length
decreasing_by exact Nat.le_of_eq (length_advance? _h)

/-- Goes past the next quote and tells whether there is one. -/
def skipString (k : Cursor) : Bool × Cursor :=
  match _h : k.advance? with
  | some (c, ahead) =>
      if c = '"' then (true, ahead)
      else if c = '\n' then skipString ahead.nextLine
      else skipString ahead
  | none => (false, k)
termination_by k.chars.length
decreasing_by
  all_goals
    have shorter := length_advance? _h
    exact Nat.le_of_eq shorter

section Loops
variable {k ahead : Cursor} {c : Char}

theorem skipWhile_of_some (sort : Char → Bool) (h : k.advance? = some (c, ahead)) :
    k.skipWhile sort = if sort c then ahead.skipWhile sort else k := by
  rw [skipWhile]
  split
  · rename_i h'
    cases h.symm.trans h'
    rfl
  · rename_i h'
    cases h.symm.trans h'

theorem skipWhile_of_none (sort : Char → Bool) (h : k.advance? = none) :
    k.skipWhile sort = k := by
  rw [skipWhile]
  split
  · rename_i h'
    cases h.symm.trans h'
  · rfl

theorem skipString_of_some (h : k.advance? = some (c, ahead)) :
    k.skipString =
      if c = '"' then (true, ahead)
      else if c = '\n' then skipString ahead.nextLine
      else ahead.skipString := by
  rw [skipString]
  split
  · rename_i h'
    cases h.symm.trans h'
    rfl
  · rename_i h'
    cases h.symm.trans h'

theorem skipString_of_none (h : k.advance? = none) : k.skipString = (false, k) := by
  rw [skipString]
  split
  · rename_i h'
    cases h.symm.trans h'
  · rfl

end Loops

/-- The text at hand. -/
def slice? (source : Text) (k : Cursor) : Option Text := Text.slice? source k.start k.current

def either (k : Cursor) (long short : Operator) : Step × Cursor :=
  match k.takeIf '=' with
  | some ahead => (.emit (.operator long) none, ahead)
  | none => (.emit (.operator short) none, k)

def scanString (source : Text) (k : Cursor) : Option (Step × Cursor) :=
  match k.skipString with
  | (true, ahead) => do
      let stop ← minus? ahead.current 1
      let value ← Text.slice? source (ahead.start + 1) stop
      some (.emit .string (some (.string value)), ahead)
  | (false, ahead) => some (.malformed "Unterminated string".toList, ahead)

/-- Digits, and a point with digits after it. -/
def skipNumber (k : Cursor) : Cursor :=
  let whole := k.skipWhile Char.isDigit
  if whole.peek? = some '.' ∧ whole.peekNext?.any Char.isDigit then
    match whole.advance? with
    | some (_, ahead) => ahead.skipWhile Char.isDigit
    | none => whole
  else whole

def scanNumber (source : Text) (k : Cursor) : Option (Step × Cursor) := do
  let ahead := k.skipNumber
  let text ← ahead.slice? source
  match Numeral.ofText? text with
  | some n => some (.emit .number (some (.number n.value)), ahead)
  | none => some (.malformed ("Invalid number: ".toList ++ text), ahead)

def scanWord (source : Text) (k : Cursor) : Option (Step × Cursor) := do
  let ahead := k.skipWhile isWordChar
  let text ← ahead.slice? source
  some (.emit (Kind.ofWord text) none, ahead)

def scanToken (source : Text) (c : Char) (k : Cursor) : Option (Step × Cursor) :=
  match c with
  | '(' => some (.emit (.operator .leftParen) none, k)
  | ')' => some (.emit (.operator .rightParen) none, k)
  | '{' => some (.emit (.operator .leftBrace) none, k)
  | '}' => some (.emit (.operator .rightBrace) none, k)
  | ',' => some (.emit (.operator .comma) none, k)
  | '.' => some (.emit (.operator .dot) none, k)
  | '-' => some (.emit (.operator .minus) none, k)
  | '+' => some (.emit (.operator .plus) none, k)
  | ';' => some (.emit (.operator .semicolon) none, k)
  | '*' => some (.emit (.operator .star) none, k)
  | '!' => some (k.either .bangEqual .bang)
  | '=' => some (k.either .equalEqual .equal)
  | '<' => some (k.either .lessEqual .less)
  | '>' => some (k.either .greaterEqual .greater)
  | '/' =>
      match k.takeIf '/' with
      | some ahead => some (.skip, ahead.skipWhile (· != '\n'))
      | none => some (.emit (.operator .slash) none, k)
  | ' ' | '\r' | '\t' => some (.skip, k)
  | '\n' => some (.skip, k.nextLine)
  | '"' => k.scanString source
  | _ =>
      if c.isDigit then k.scanNumber source
      else if isWordStart c then k.scanWord source
      else some (.malformed ("Unexpected character: ".toList ++ [c]), k)

/-- The tokens so far, how often it was reported, and what was made of the reports. -/
structure Found (σ : Type) where
  tokens : Array Token
  reported : Nat
  observed : σ

def record {σ : Type} (o : Observer σ) (source : Text) (k : Cursor) (found : Found σ) :
    Step → Option (Found σ)
  | .emit kind literal => do
      let lexeme ← k.slice? source
      let token : Token := ⟨kind, lexeme, literal, k.line, ⟨k.start, k.current⟩⟩
      some { found with tokens := found.tokens.push token }
  | .skip => some found
  | .malformed message =>
      let d : Diagnostic := ⟨k.line, message⟩
      some { found with
        reported := found.reported + 1
        observed := o.report (o.log found.observed (.malformedInput d)) d }

/-- Scans on to the end, in fewer turns than these. -/
def run {σ : Type} (o : Observer σ) (source : Text) :
    Nat → Cursor → Found σ → Option (List Token × σ)
  | 0, _, _ => none
  | turns + 1, k, found =>
      match k.advance? with
      | none =>
          let tokens := found.tokens.push (Token.eof k.line (Text.byteLength source))
          some (tokens.toList,
            o.log found.observed (.scanComplete tokens.size k.line found.reported))
      | some (c, ahead) => do
          let start ← minus? ahead.current c.utf8Size
          let (step, after) ← scanToken source c { ahead with start }
          let found ← record o source after found step
          run o source turns after found

/-- A source of `n` characters is scanned in `n` turns at most, and one to see the end. -/
def scan? {σ : Type} (o : Observer σ) (source : Text) (s : σ) : Option (List Token × σ) :=
  run o source (source.length + 1) ⟨charOffsets 0 source, 0, 0, 1⟩ ⟨#[], 0, s⟩

/-! A cursor that has read `before` and has `rest` to come. -/

def reached (start line : Nat) (before rest : Text) : Cursor :=
  ⟨charOffsets (Text.byteLength before) rest, start, Text.byteLength before, line⟩

section Reached
variable {start line : Nat} {before : Text}

theorem advance?_reached (c : Char) (rest : Text) :
    (reached start line before (c :: rest)).advance? =
      some (c, reached start line (before ++ [c]) rest) := by
  simp [reached, advance?, charOffsets]

theorem advance?_reached_nil : (reached start line before []).advance? = none := rfl

theorem nextLine_reached (rest : Text) :
    (reached start line before rest).nextLine = reached start (line + 1) before rest := rfl

theorem peek?_reached (rest : Text) : (reached start line before rest).peek? = rest.head? := by
  cases rest <;> rfl

theorem peekNext?_reached (rest : Text) :
    (reached start line before rest).peekNext? = rest.tail.head? := by
  cases rest with
  | nil => rfl
  | cons c rest => cases rest <;> rfl

theorem takeIf_reached (c : Char) (rest : Text) :
    (reached start line before (c :: rest)).takeIf c =
      some (reached start line (before ++ [c]) rest) := by
  simp [takeIf, advance?_reached]

theorem takeIf_reached_eq_none {c : Char} {rest : Text} (h : beginsWith (· == c) rest = false) :
    (reached start line before rest).takeIf c = none := by
  cases rest with
  | nil => rfl
  | cons d rest =>
      have different : d ≠ c := by simpa using h
      simp [takeIf, advance?_reached, different]

theorem skipWhile_reached (sort : Char → Bool) (rest : Text) :
    (reached start line before rest).skipWhile sort =
      reached start line (before ++ rest.takeWhile sort) (rest.dropWhile sort) := by
  induction rest generalizing before with
  | nil =>
      rw [skipWhile_of_none sort advance?_reached_nil]
      simp
  | cons c rest ih =>
      rw [skipWhile_of_some sort (advance?_reached c rest)]
      by_cases h : sort c
      · simp [h, ih]
      · simp [h]

/-- Inside a string every line feed counts. -/
theorem skipString_body {body : Text} (closed : '"' ∉ body) (rest : Text) :
    (reached start line before (body ++ rest)).skipString =
      (reached start (line + Text.newlines body) (before ++ body) rest).skipString := by
  induction body generalizing before line with
  | nil => simp [Text.newlines]
  | cons c body ih =>
      obtain ⟨notQuote, inside⟩ : c ≠ '"' ∧ '"' ∉ body := by
        simpa [eq_comm] using closed
      rw [List.cons_append, skipString_of_some (advance?_reached c _), if_neg notQuote]
      by_cases newline : c = '\n'
      · subst newline
        rw [if_pos rfl, nextLine_reached, ih inside]
        simp [Text.newlines, Nat.add_assoc, Nat.add_comm 1]
      · rw [if_neg newline, ih inside]
        simp [Text.newlines, newline]

theorem skipString_closed {body : Text} (closed : '"' ∉ body) (rest : Text) :
    (reached start line before (body ++ '"' :: rest)).skipString =
      (true, reached start (line + Text.newlines body) (before ++ body ++ ['"']) rest) := by
  rw [skipString_body closed, skipString_of_some (advance?_reached '"' rest)]
  rfl

theorem skipString_open {body : Text} (closed : '"' ∉ body) :
    (reached start line before body).skipString =
      (false, reached start (line + Text.newlines body) (before ++ body) []) := by
  have read := @skipString_body start line before body closed []
  rw [List.append_nil, skipString_of_none advance?_reached_nil] at read
  exact read

/-- What has been read since the start is sliced out of the source. -/
theorem slice?_reached {source text rest : Text} (whole : source = before ++ text ++ rest) :
    (reached (Text.byteLength before) line (before ++ text) rest).slice? source = some text :=
  Text.slice?_eq_some_iff.mpr ⟨before, rest, whole, rfl, rfl⟩

theorem either_long (long short : Operator) (after : Text) :
    (reached start line before ('=' :: after)).either long short =
      (.emit (.operator long) none, reached start line (before ++ ['=']) after) := by
  rw [either, takeIf_reached]

theorem either_short (long short : Operator) {after : Text}
    (h : beginsWith (· == '=') after = false) :
    (reached start line before after).either long short =
      (.emit (.operator short) none, reached start line before after) := by
  rw [either, takeIf_reached_eq_none h]

end Reached

end Cursor

namespace Piece

def step (piece : Piece) : Cursor.Step :=
  match piece.reading with
  | .token kind literal => .emit kind literal
  | .skipped => .skip
  | .fault f => .malformed f.message

end Piece

namespace Cursor

section Token
variable {source before after : Text} {line : Nat} {c : Char} {rest : Text}

theorem scanToken_operator {o : Operator} (fits : (Piece.operator o).Fits after)
    (cut : o.spelling ++ after = c :: rest) :
    scanToken source c (reached (Text.byteLength before) line (before ++ [c]) rest) =
      some (.emit (.operator o) none,
        reached (Text.byteLength before) line (before ++ o.spelling) after) := by
  obtain ⟨short, single⟩ := fits
  cases o with
  | bangEqual | equalEqual | greaterEqual | lessEqual =>
      cases cut
      simp [scanToken, either_long, Operator.spelling]
  | bang | equal | greater | less =>
      cases cut
      simp [scanToken, either_short _ _ (short rfl), Operator.spelling]
  | slash =>
      cases cut
      simp [scanToken, takeIf_reached_eq_none (single rfl), Operator.spelling]
  | _ =>
      cases cut
      rfl

/-- Characters without an arm of their own start a number or a word, or are not expected. -/
theorem scanToken_other (layout : isLayout c = false) (quote : c ≠ '"')
    (other : Operator.ofChar? c = none) (k : Cursor) :
    scanToken source c k =
      if c.isDigit then k.scanNumber source
      else if isWordStart c then k.scanWord source
      else some (.malformed ("Unexpected character: ".toList ++ [c]), k) := by
  rw [scanToken]
  all_goals rintro rfl
  any_goals cases other
  any_goals cases layout
  exact quote rfl

theorem scanToken_digit (digit : c.isDigit) (k : Cursor) :
    scanToken source c k = k.scanNumber source := by
  obtain ⟨layout, quote, other⟩ := Piece.of_isWordChar (c := c) (by simp [isWordChar, digit])
  rw [scanToken_other layout quote other, if_pos digit]

theorem scanToken_wordStart (start : isWordStart c) (k : Cursor) :
    scanToken source c k = k.scanWord source := by
  obtain ⟨layout, quote, other⟩ := Piece.of_isWordChar (c := c) (by simp [isWordChar, start])
  have digit := Piece.not_isDigit_of_isWordStart start
  rw [scanToken_other layout quote other, if_neg (by simp [digit]), if_pos start]

theorem newlines_eq_zero {t : Text} {sort : Char → Bool} (inside : ∀ d ∈ t, sort d)
    (notNewline : sort '\n' = false) : Text.newlines t = 0 := by
  refine List.count_eq_zero.mpr ?_
  intro h
  have := inside _ h
  simp [notNewline] at this

theorem scanToken_word {w : Text} (fits : (Piece.word w).Fits after) (cut : w ++ after = c :: rest)
    (whole : source = before ++ w ++ after) :
    scanToken source c (reached (Text.byteLength before) line (before ++ [c]) rest) =
      some (.emit (Kind.ofWord w) none,
        reached (Text.byteLength before) (line + Text.newlines w) (before ++ w) after) := by
  obtain ⟨isWord, stop⟩ := fits
  have sameLine := newlines_eq_zero isWord.2 (by decide)
  obtain ⟨d, run, rfl, start, inside⟩ := isWord.exists_cons
  obtain ⟨rfl, rfl⟩ : d = c ∧ run ++ after = rest := by simpa using cut
  have joined : before ++ [d] ++ run = before ++ d :: run := by simp
  rw [scanToken_wordStart start, scanWord, skipWhile_reached, takeWhile_run inside stop,
    dropWhile_run inside stop, joined, slice?_reached whole, sameLine]
  rfl

theorem peeks_fraction_iff (start line : Nat) (before t : Text) :
    ((reached start line before t).peek? = some '.' ∧
      (reached start line before t).peekNext?.any Char.isDigit) ↔ beginsFraction t := by
  rw [peek?_reached, peekNext?_reached]
  cases t with
  | nil => simp [beginsFraction]
  | cons d t => simp [beginsFraction_cons, beginsWith]

theorem skipNumber_integer {start : Nat} {run : Text} (inside : ∀ d ∈ run, d.isDigit)
    (stop : beginsWith Char.isDigit after = false) (noFraction : beginsFraction after = false) :
    (reached start line before (run ++ after)).skipNumber =
      reached start line (before ++ run) after := by
  have noPoint := (not_congr (peeks_fraction_iff start line (before ++ run) after)).mpr
    (by simp [noFraction])
  rw [skipNumber, skipWhile_reached, takeWhile_run inside stop, dropWhile_run inside stop]
  exact if_neg noPoint

theorem skipNumber_decimal {start : Nat} {run fraction : Text} (inside : ∀ d ∈ run, d.isDigit)
    (digits : IsDigits fraction) (stop : beginsWith Char.isDigit after = false) :
    (reached start line before (run ++ '.' :: (fraction ++ after))).skipNumber =
      reached start line (before ++ (run ++ '.' :: fraction)) after := by
  have stopAtPoint : beginsWith Char.isDigit ('.' :: (fraction ++ after)) = false := rfl
  have begins : beginsFraction ('.' :: (fraction ++ after)) := by
    obtain ⟨d, more, rfl, digit, _⟩ := digits.exists_cons
    exact digit
  have point := (peeks_fraction_iff start line (before ++ run) _).mpr begins
  rw [skipNumber, skipWhile_reached, takeWhile_run inside stopAtPoint,
    dropWhile_run inside stopAtPoint]
  refine (if_pos point).trans ?_
  rw [advance?_reached]
  simp only
  rw [skipWhile_reached, takeWhile_run digits.2 stop, dropWhile_run digits.2 stop]
  simp

/-- From the first digit on, a number that fits is all that is skipped. -/
theorem skipNumber_of_fits {start : Nat} {n : Numeral} (fits : (Piece.number n).Fits after)
    (cut : n.text ++ after = c :: rest) :
    c.isDigit ∧ (reached start line (before ++ [c]) rest).skipNumber =
      reached start line (before ++ n.text) after := by
  obtain ⟨digits, fraction⟩ := n
  cases fraction with
  | none =>
      obtain ⟨isDigits, stop, noFraction⟩ := fits
      obtain ⟨d, run, rfl, digit, inside⟩ := isDigits.exists_cons
      obtain ⟨rfl, rfl⟩ : d = c ∧ run ++ after = rest := by simpa [Numeral.text] using cut
      refine ⟨digit, ?_⟩
      rw [skipNumber_integer inside stop noFraction]
      simp [Numeral.text]
  | some fraction =>
      obtain ⟨isDigits, fractionDigits, stop⟩ := fits
      obtain ⟨d, run, rfl, digit, inside⟩ := isDigits.exists_cons
      obtain ⟨rfl, rfl⟩ : d = c ∧ run ++ '.' :: (fraction ++ after) = rest := by
        simpa [Numeral.text] using cut
      refine ⟨digit, ?_⟩
      rw [skipNumber_decimal inside fractionDigits stop]
      simp [Numeral.text]

theorem newlines_number {n : Numeral} (fits : (Piece.number n).Fits after) :
    Text.newlines n.text = 0 := by
  obtain ⟨digits, fraction⟩ := n
  cases fraction with
  | none => exact newlines_eq_zero fits.1.2 (by decide)
  | some fraction =>
      obtain ⟨⟨_, digits⟩, ⟨_, more⟩, _⟩ := fits
      have whole := newlines_eq_zero digits (by decide)
      have rest := newlines_eq_zero more (by decide)
      simpa [Numeral.text, Text.newlines] using And.intro whole rest

theorem scanToken_number {n : Numeral} (fits : (Piece.number n).Fits after)
    (cut : n.text ++ after = c :: rest) (whole : source = before ++ n.text ++ after) :
    scanToken source c (reached (Text.byteLength before) line (before ++ [c]) rest) =
      some (.emit .number (some (.number n.value)),
        reached (Text.byteLength before) (line + Text.newlines n.text) (before ++ n.text)
          after) := by
  obtain ⟨digit, skipped⟩ := skipNumber_of_fits fits cut
  rw [scanToken_digit digit, scanNumber, skipped, slice?_reached whole, newlines_number fits]
  simp [n.ofText?_text fits]

theorem scanToken_quote (k : Cursor) : scanToken source '"' k = k.scanString source := rfl

theorem scanToken_string {body : Text} (closed : '"' ∉ body)
    (whole : source = before ++ ('"' :: body ++ ['"']) ++ after) :
    scanToken source '"'
        (reached (Text.byteLength before) line (before ++ ['"']) (body ++ '"' :: after)) =
      some (.emit .string (some (.string body)),
        reached (Text.byteLength before) (line + Text.newlines ('"' :: body ++ ['"']))
          (before ++ ('"' :: body ++ ['"'])) after) := by
  have joined : before ++ ['"'] ++ body ++ ['"'] = before ++ ('"' :: body ++ ['"']) := by simp
  have counted : Text.newlines ('"' :: body ++ ['"']) = Text.newlines body := by
    simp [Text.newlines]
  have stop : minus? (Text.byteLength (before ++ ['"'] ++ body ++ ['"'])) 1 =
      some (Text.byteLength (before ++ ['"'] ++ body)) := by
    rw [Text.byteLength_append _ ['"']]
    exact minus?_add _ 1
  have value : Text.slice? source (Text.byteLength before + 1)
      (Text.byteLength (before ++ ['"'] ++ body)) = some body :=
    Text.slice?_eq_some_iff.mpr
      ⟨before ++ ['"'], '"' :: after, by simp [whole], Text.byteLength_append _ _, rfl⟩
  rw [scanToken_quote, scanString, skipString_closed closed, counted, ← joined]
  simp only [reached, stop, value, Option.bind_eq_bind, Option.bind_some]

/-- From one start the cursor finds the piece that fits, and goes on behind it. -/
theorem scanToken_of_fits {piece : Piece} (fits : piece.Fits after)
    (cut : piece.text ++ after = c :: rest) (whole : source = before ++ piece.text ++ after) :
    scanToken source c (reached (Text.byteLength before) line (before ++ [c]) rest) =
      some (piece.step,
        reached (Text.byteLength before) (line + Text.newlines piece.text) (before ++ piece.text)
          after) := by
  cases piece with
  | operator o =>
      have sameLine : Text.newlines o.spelling = 0 := by cases o <;> rfl
      rw [scanToken_operator fits cut, Piece.text, sameLine]
      rfl
  | word w => exact scanToken_word fits cut whole
  | number n => exact scanToken_number fits cut whole
  | string body =>
      obtain ⟨rfl, rfl⟩ : '"' = c ∧ body ++ '"' :: after = rest := by simpa [Piece.text] using cut
      exact scanToken_string fits whole
  | comment body =>
      obtain ⟨oneLine, stop⟩ := fits
      obtain ⟨rfl, rfl⟩ : '/' = c ∧ '/' :: (body ++ after) = rest := by
        simpa [Piece.text] using cut
      obtain ⟨taken, dropped⟩ := run_until oneLine stop
      have sameLine : Text.newlines ('/' :: '/' :: body) = 0 := by
        simpa [Text.newlines, List.count_eq_zero] using oneLine
      simp [scanToken, takeIf_reached, skipWhile_reached, taken, dropped, sameLine, Piece.text,
        Piece.step, Piece.reading]
  | layout d =>
      obtain ⟨rfl, rfl⟩ : d = c ∧ after = rest := by simpa [Piece.text] using cut
      simp only [Piece.Fits, isLayout, Bool.or_eq_true, beq_iff_eq] at fits
      rcases fits with ((rfl | rfl) | rfl) | rfl <;> rfl
  | unexpected d =>
      obtain ⟨rfl, rfl⟩ : d = c ∧ after = rest := by simpa [Piece.text] using cut
      have unexpected : isUnexpected d := fits
      simp only [Piece.Fits, isUnexpected, Bool.and_eq_true, bne_iff_ne, Bool.not_eq_true',
        Option.isNone_iff_eq_none] at fits
      obtain ⟨⟨⟨⟨quote, digit⟩, start⟩, layout⟩, other⟩ := fits
      have sameLine : Text.newlines (Piece.unexpected d).text = 0 :=
        Piece.newlines_of_isUnexpected unexpected
      rw [scanToken_other layout quote other, if_neg (by simp [digit]), if_neg (by simp [start]),
        sameLine]
      rfl
  | openString body =>
      obtain ⟨closed, rfl⟩ := fits
      obtain ⟨rfl, rfl⟩ : '"' = c ∧ body = rest := by simpa [Piece.text] using cut
      have counted : Text.newlines (Piece.openString body).text = Text.newlines body := by
        simp [Piece.text, Text.newlines]
      have joined : before ++ ['"'] ++ body = before ++ (Piece.openString body).text := by
        simp [Piece.text]
      rw [scanToken_quote, scanString, skipString_open closed, counted, joined]
      rfl

end Token

section Run
variable {σ : Type} (o : Observer σ) {source : Text}

def Found.ofProgress (p : Progress σ) : Found σ := ⟨p.tokens, p.reported, p.observed⟩

theorem record_step {before after : Text} {piece : Piece} {p : Progress σ}
    (whole : source = before ++ piece.text ++ after)
    (here : p.position.offset = Text.byteLength before) :
    record o source
        (reached (Text.byteLength before) (p.position.line + Text.newlines piece.text)
          (before ++ piece.text) after)
        (.ofProgress p) piece.step =
      some (.ofProgress (p.step o piece)) := by
  have sliced : slice? source
      (reached (Text.byteLength before) (p.position.line + Text.newlines piece.text)
        (before ++ piece.text) after) = _ := slice?_reached whole
  cases h : piece.reading with
  | token kind literal =>
      simp only [Piece.step, h, record, sliced, Progress.step]
      simp [Found.ofProgress, reached, here]
  | skipped => simp [Piece.step, h, record, Progress.step, Found.ofProgress]
  | fault f => simp [Piece.step, h, record, Progress.step, Found.ofProgress, reached]

theorem start_of_advance (start line : Nat) (before : Text) (c : Char) (rest : Text) :
    minus? (reached start line (before ++ [c]) rest).current c.utf8Size =
      some (Text.byteLength before) := by
  simp [reached, minus?_add]

/-- Where the walk is and what it has found, there is the cursor, and it has found the same. -/
theorem run_reached (rest : Text) :
    ∀ (before : Text) (turns : Nat) (p : Progress σ) (start : Nat), source = before ++ rest →
      rest.length < turns → p.position.offset = Text.byteLength before →
      run o source turns (reached start p.position.line before rest) (.ofProgress p) =
        some (((cut rest).foldl (Progress.step o) p).finish o) := by
  fun_induction cut rest with
  | case1 =>
      intro before turns p start whole enough here
      obtain ⟨turns, rfl⟩ := Nat.exists_eq_add_one.mpr enough
      have atEnd : Text.byteLength source = p.position.offset := by
        rw [whole, List.append_nil, here]
      rw [run, advance?_reached_nil]
      simp only [atEnd]
      rfl
  | case2 c rest ih =>
      intro before turns p start whole enough here
      obtain ⟨turns, rfl⟩ := Nat.exists_eq_add_one.mpr (Nat.zero_lt_of_lt enough)
      have cutAgain := Piece.text_append_next c rest
      have whole' : source =
          before ++ (Piece.next c rest).1.text ++ (Piece.next c rest).2 := by
        rw [whole, List.append_assoc, cutAgain]
      have token : scanToken source c
          (reached (Text.byteLength before) p.position.line (before ++ [c]) rest) = _ :=
        scanToken_of_fits (Piece.fits_next c rest) cutAgain whole'
      have shorter := Piece.length_next_le c rest
      have ahead := ih (before ++ (Piece.next c rest).1.text) turns
        (p.step o (Piece.next c rest).1) (Text.byteLength before) whole'
        (by simp only [List.length_cons] at enough; omega)
        (by simp [Progress.step_eq, here])
      rw [run, advance?_reached]
      simp only [start_of_advance, Option.bind_eq_bind, Option.bind_some]
      change (scanToken source c
        (reached (Text.byteLength before) p.position.line (before ++ [c]) rest)).bind _ = _
      rw [token, Option.bind_some, record_step o whole' here, Option.bind_some, List.foldl_cons,
        ← ahead]
      simp [Progress.step_eq]

theorem scan?_eq (source : Text) (s : σ) : scan? o source s = some (scanObserved o source s) :=
  run_reached o source [] _ (Progress.start s) 0 rfl (Nat.lt_succ_self _) rfl

end Run

end Cursor

end LoxLexer

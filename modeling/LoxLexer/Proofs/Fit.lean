import LoxLexer.Piece
import Mathlib.Data.List.TakeWhile

/-!
# Pieces in their place

A piece fits before a text if its own text is of its sort and nothing at the start of the text
after it belongs to it. The first piece of a text is the one that fits (`next_eq_iff`), and a text
is cut into exactly those pieces whose texts make it up and which all fit (`cut_eq_iff`). What is
known about a cut is read off its pieces; how it was made plays no part.
-/

namespace LoxLexer

/-- The text starts with a character of this sort. -/
def beginsWith (p : Char → Bool) (t : Text) : Bool := t.head?.any p

section Runs
variable {p : Char → Bool}

@[simp] theorem beginsWith_nil : beginsWith p [] = false := rfl

@[simp] theorem beginsWith_cons (c : Char) (t : Text) : beginsWith p (c :: t) = p c := rfl

theorem beginsWith_dropWhile (t : Text) : beginsWith p (t.dropWhile p) = false := by
  have stop := List.head?_dropWhile_not p t
  cases h : t.dropWhile p with
  | nil => rfl
  | cons c rest =>
      rw [h] at stop
      exact (beginsWith_cons c rest).trans (by simpa using stop)

theorem takeWhile_eq_nil {t : Text} (h : beginsWith p t = false) : t.takeWhile p = [] := by
  cases t with
  | nil => rfl
  | cons c t => exact List.takeWhile_cons_of_neg (by simpa using h)

theorem dropWhile_eq_self {t : Text} (h : beginsWith p t = false) : t.dropWhile p = t := by
  cases t with
  | nil => rfl
  | cons c t => exact List.dropWhile_cons_of_neg (by simpa using h)

/-- A run of characters of one sort ends where the text stops being of that sort. -/
theorem takeWhile_run {run after : Text} (inside : ∀ c ∈ run, p c)
    (stop : beginsWith p after = false) : (run ++ after).takeWhile p = run := by
  rw [List.takeWhile_append_of_pos inside, takeWhile_eq_nil stop, List.append_nil]

theorem dropWhile_run {run after : Text} (inside : ∀ c ∈ run, p c)
    (stop : beginsWith p after = false) : (run ++ after).dropWhile p = after := by
  rw [List.dropWhile_append_of_pos inside, dropWhile_eq_self stop]

/-- A run without a character ends at that character, or with the text. -/
theorem run_until {d : Char} {run after : Text} (inside : d ∉ run)
    (stop : after = [] ∨ beginsWith (· == d) after) :
    (run ++ after).takeWhile (· != d) = run ∧ (run ++ after).dropWhile (· != d) = after := by
  have different : ∀ c ∈ run, c != d := by
    intro c hc
    exact bne_iff_ne.mpr fun e => inside (e ▸ hc)
  have stops : beginsWith (· != d) after = false := by
    rcases stop with rfl | stop
    · rfl
    · cases after with
      | nil => rfl
      | cons e after => simpa using stop
  exact ⟨takeWhile_run different stops, dropWhile_run different stops⟩

theorem of_mem_takeWhile {t : Text} {c : Char} (h : c ∈ t.takeWhile p) : p c :=
  List.all_eq_true.mp List.all_takeWhile c h

end Runs

/-- Letters and digits, a letter first. -/
def IsWord (t : Text) : Prop := beginsWith isWordStart t ∧ ∀ c ∈ t, isWordChar c

theorem IsWord.exists_cons {t : Text} (h : IsWord t) :
    ∃ c run, t = c :: run ∧ isWordStart c ∧ ∀ d ∈ run, isWordChar d := by
  obtain ⟨start, inside⟩ := h
  cases t with
  | nil => simp at start
  | cons c run => exact ⟨c, run, rfl, start, (List.forall_mem_cons.mp inside).2⟩

theorem IsDigits.exists_cons {t : Text} (h : IsDigits t) :
    ∃ c run, t = c :: run ∧ c.isDigit ∧ ∀ d ∈ run, d.isDigit := by
  obtain ⟨nonempty, inside⟩ := h
  obtain ⟨c, run, rfl⟩ := List.exists_cons_of_ne_nil nonempty
  exact ⟨c, run, rfl, List.forall_mem_cons.mp inside⟩

theorem IsDigits.ne_point {t : Text} (h : IsDigits t) : ∀ c ∈ t, c != '.' := by
  intro c hc
  refine bne_iff_ne.mpr ?_
  rintro rfl
  exact absurd (h.2 _ hc) (by decide)

theorem isLayout_iff_mem {c : Char} : isLayout c ↔ c ∈ [' ', '\t', '\r', '\n'] := by
  simp [isLayout, or_assoc, or_left_comm]

theorem isWordStart_iff {c : Char} :
    isWordStart c ↔ ('a' ≤ c ∧ c ≤ 'z') ∨ ('A' ≤ c ∧ c ≤ 'Z') ∨ c = '_' := by
  have upper : c.isUpper ↔ 'A' ≤ c ∧ c ≤ 'Z' := decide_eq_true_iff
  have lower : c.isLower ↔ 'a' ≤ c ∧ c ≤ 'z' := by
    change (decide ('a' ≤ c) && decide (c ≤ 'z')) = true ↔ _
    rw [Bool.and_eq_true, decide_eq_true_iff, decide_eq_true_iff]
  have alpha : c.isAlpha = (c.isUpper || c.isLower) := rfl
  rw [isWordStart, alpha, Bool.or_eq_true, Bool.or_eq_true, beq_iff_eq, upper, lower, or_assoc,
    or_left_comm]

/-- The text starts with a point that a digit follows. -/
def beginsFraction : Text → Bool
  | '.' :: t => beginsWith Char.isDigit t
  | _ => false

theorem beginsFraction_cons (c : Char) (t : Text) :
    beginsFraction (c :: t) = (c == '.' && beginsWith Char.isDigit t) := by
  by_cases point : c = '.'
  · subst point
    rfl
  · have other : (c == '.') = false := beq_eq_false_iff_ne.mpr point
    rw [other, Bool.false_and, beginsFraction]
    intro more same
    exact point (List.cons.inj same).1

/-- No piece but this very character starts with it. -/
def isUnexpected (c : Char) : Bool :=
  c != '"' && !c.isDigit && !isWordStart c && !isLayout c && (Operator.ofChar? c).isNone

/-- An operator that ends in an equals sign takes no other. -/
theorem Operator.withEqual?_long {o long : Operator} (h : o.withEqual? = some long) :
    long.withEqual? = none ∧ long ≠ .slash := by
  cases o <;> cases h <;> decide

/-- An operator is one character, or another operator of one character with an equals sign. -/
theorem Operator.one_or_two (o : Operator) :
    (∃ c, o.spelling = [c] ∧ ofChar? c = some o) ∨
    ∃ c short, o.spelling = [c, '='] ∧ ofChar? c = some short ∧ short.withEqual? = some o ∧
      c ≠ '/' := by
  cases o with
  | bangEqual | equalEqual | greaterEqual | lessEqual =>
      exact Or.inr ⟨_, _, rfl, rfl, rfl, by decide⟩
  | _ => exact Or.inl ⟨_, rfl, rfl⟩

namespace Piece

def Fits (after : Text) : Piece → Prop
  | operator o =>
      (o.withEqual?.isSome → beginsWith (· == '=') after = false) ∧
      (o = .slash → beginsWith (· == '/') after = false)
  | word text => IsWord text ∧ beginsWith isWordChar after = false
  | number ⟨whole, none⟩ =>
      IsDigits whole ∧ beginsWith Char.isDigit after = false ∧ beginsFraction after = false
  | number ⟨whole, some fraction⟩ =>
      IsDigits whole ∧ IsDigits fraction ∧ beginsWith Char.isDigit after = false
  | string body => '"' ∉ body
  | comment body => '\n' ∉ body ∧ (after = [] ∨ beginsWith (· == '\n') after)
  | layout c => isLayout c
  | unexpected c => isUnexpected c
  | openString body => '"' ∉ body ∧ after = []

theorem not_isDigit_of_isWordStart {c : Char} (h : isWordStart c) : c.isDigit = false := by
  refine Bool.eq_false_iff.mpr ?_
  intro digit
  obtain ⟨_, digit⟩ := Char.isDigit_iff_toNat.mp digit
  rcases isWordStart_iff.mp h with ⟨lower, _⟩ | ⟨upper, _⟩ | rfl
  · have le : 'a'.toNat ≤ c.toNat := lower
    exact absurd (le.trans digit) (by decide)
  · have le : 'A'.toNat ≤ c.toNat := upper
    exact absurd (le.trans digit) (by decide)
  · exact absurd digit (by decide)

/-- Letters and digits start nothing but words and numbers. -/
theorem of_isWordChar {c : Char} (h : isWordChar c) :
    isLayout c = false ∧ c ≠ '"' ∧ Operator.ofChar? c = none := by
  refine ⟨?_, ?_, ?_⟩
  · refine Bool.eq_false_iff.mpr ?_
    intro layout
    simp only [isLayout, Bool.or_eq_true, beq_iff_eq] at layout
    rcases layout with ((rfl | rfl) | rfl) | rfl <;> cases h
  · rintro rfl
    cases h
  · refine Option.eq_none_iff_forall_not_mem.mpr ?_
    intro o ho
    cases o <;> cases Operator.spelling_of_ofChar? ho <;> cases h

theorem newlines_of_isUnexpected {c : Char} (h : isUnexpected c) : Text.newlines [c] = 0 := by
  refine List.count_eq_zero.mpr ?_
  intro newline
  cases List.mem_singleton.mp newline
  cases h

/-! Each sort of piece is taken at the characters that it can start with. -/

theorem next_quote (rest : Text) : next '"' rest = takeString rest := rfl

theorem next_comment (rest : Text) : next '/' ('/' :: rest) = takeComment rest := rfl

theorem next_digit {c : Char} (h : c.isDigit) (rest : Text) :
    next c rest = takeNumber c rest := by
  have quote : c ≠ '"' := by rintro rfl; simp at h
  have slash : c ≠ '/' := by rintro rfl; simp at h
  simp [next, quote, slash, h]

theorem next_wordStart {c : Char} (h : isWordStart c) (rest : Text) :
    next c rest = takeWord c rest := by
  have quote : c ≠ '"' := by rintro rfl; simp [isWordStart] at h
  have slash : c ≠ '/' := by rintro rfl; simp [isWordStart] at h
  simp [next, quote, slash, not_isDigit_of_isWordStart h, h]

theorem next_layout {c : Char} (h : isLayout c) (rest : Text) :
    next c rest = (layout c, rest) := by
  simp only [isLayout, Bool.or_eq_true, beq_iff_eq] at h
  rcases h with ((rfl | rfl) | rfl) | rfl <;> rfl

theorem next_operator {c : Char} {o : Operator} (h : Operator.ofChar? c = some o) {rest : Text}
    (notComment : ¬ (c = '/' ∧ rest.head? = some '/')) : next c rest = takeOperator o rest := by
  have spelled := Operator.spelling_of_ofChar? h
  by_cases slash : o = .slash
  · subst slash
    cases spelled
    have single : rest.head? ≠ some '/' := fun second => notComment ⟨rfl, second⟩
    simp [next, single, isWordStart, isLayout, h]
  · cases o with
    | slash => exact absurd rfl slash
    | _ => cases spelled <;> rfl

theorem next_unexpected {c : Char} (h : isUnexpected c) (rest : Text) :
    next c rest = (unexpected c, rest) := by
  simp only [isUnexpected, Bool.and_eq_true, bne_iff_ne, Bool.not_eq_true',
    Option.isNone_iff_eq_none] at h
  obtain ⟨⟨⟨⟨quote, digit⟩, start⟩, layout⟩, other⟩ := h
  have slash : c ≠ '/' := by rintro rfl; cases other
  simp [next, quote, digit, start, layout, other, slash]

/-! Taking stops exactly where the text stops being of the sort. -/

theorem takeOperator_long {o long : Operator} (h : o.withEqual? = some long) (after : Text) :
    takeOperator o ('=' :: after) = (operator long, after) := by
  simp [takeOperator, h]

theorem takeOperator_short {o : Operator} {after : Text}
    (h : o.withEqual?.isSome → beginsWith (· == '=') after = false) :
    takeOperator o after = (operator o, after) := by
  rw [takeOperator]
  rintro long rest hlong rfl
  simp [hlong] at h

theorem takeWord_run (c : Char) {run after : Text} (inside : ∀ d ∈ run, isWordChar d)
    (stop : beginsWith isWordChar after = false) :
    takeWord c (run ++ after) = (word (c :: run), after) := by
  simp only [takeWord, takeWhile_run inside stop, dropWhile_run inside stop]

theorem takeNumber_integer (c : Char) {run after : Text} (inside : ∀ d ∈ run, d.isDigit)
    (stop : beginsWith Char.isDigit after = false) (noFraction : beginsFraction after = false) :
    takeNumber c (run ++ after) = (number ⟨c :: run, none⟩, after) := by
  simp only [takeNumber, takeWhile_run inside stop, dropWhile_run inside stop]
  split
  · rename_i d more
    have notDigit : d.isDigit = false := noFraction
    simp [notDigit]
  · rfl

theorem takeNumber_decimal (c : Char) {run fraction after : Text} (inside : ∀ d ∈ run, d.isDigit)
    (digits : IsDigits fraction) (stop : beginsWith Char.isDigit after = false) :
    takeNumber c (run ++ '.' :: (fraction ++ after)) =
      (number ⟨c :: run, some fraction⟩, after) := by
  obtain ⟨d, more, rfl, digit, digits⟩ := digits.exists_cons
  have point : beginsWith Char.isDigit ('.' :: (d :: more ++ after)) = false := rfl
  simp only [takeNumber, takeWhile_run inside point, dropWhile_run inside point]
  simp [digit, takeWhile_run digits stop, dropWhile_run digits stop]

theorem takeString_closed {body : Text} (h : '"' ∉ body) (after : Text) :
    takeString (body ++ '"' :: after) = (string body, after) := by
  have stop : beginsWith (· == '"') ('"' :: after) := rfl
  obtain ⟨taken, dropped⟩ := run_until h (Or.inr stop)
  simp [takeString, taken, dropped]

theorem takeString_open {body : Text} (h : '"' ∉ body) :
    takeString body = (openString body, []) := by
  have dropped := (run_until h (Or.inl rfl)).2
  rw [List.append_nil] at dropped
  simp [takeString, dropped]

theorem takeComment_run {body after : Text} (h : '\n' ∉ body)
    (stop : after = [] ∨ beginsWith (· == '\n') after) :
    takeComment (body ++ after) = (comment body, after) := by
  obtain ⟨taken, dropped⟩ := run_until h stop
  rw [takeComment, taken, dropped]

/-! What is taken fits before the rest. -/

theorem isDigits_run {c : Char} (hc : c.isDigit) (rest : Text) :
    IsDigits (c :: rest.takeWhile Char.isDigit) := by
  refine ⟨List.cons_ne_nil _ _, ?_⟩
  rintro d (_ | ⟨_, hd⟩)
  · exact hc
  · exact of_mem_takeWhile hd

theorem fits_takeOperator {c : Char} {o : Operator} (h : Operator.ofChar? c = some o) {rest : Text}
    (notComment : ¬ (c = '/' ∧ rest.head? = some '/')) :
    (takeOperator o rest).1.Fits (takeOperator o rest).2 := by
  by_cases longer : o.withEqual?.isSome ∧ beginsWith (· == '=') rest
  · obtain ⟨hlong, equals⟩ := longer
    obtain ⟨long, hlong⟩ := Option.isSome_iff_exists.mp hlong
    cases rest with
    | nil => simp at equals
    | cons d rest =>
        obtain rfl : d = '=' := by simpa using equals
        rw [takeOperator_long hlong]
        obtain ⟨longest, notSlash⟩ := Operator.withEqual?_long hlong
        exact ⟨by simp [longest], fun slash => (notSlash slash).elim⟩
  · have short : o.withEqual?.isSome → beginsWith (· == '=') rest = false := by
      simpa using longer
    rw [takeOperator_short short]
    refine ⟨short, ?_⟩
    rintro rfl
    cases Operator.spelling_of_ofChar? h
    cases rest with
    | nil => rfl
    | cons d rest => simpa using notComment

theorem fits_takeNumber {c : Char} (hc : c.isDigit) (rest : Text) :
    (takeNumber c rest).1.Fits (takeNumber c rest).2 := by
  have stop := beginsWith_dropWhile (p := Char.isDigit) rest
  rw [takeNumber]
  split
  · rename_i d more h
    split
    · rename_i hd
      exact ⟨isDigits_run hc rest, isDigits_run hd more, beginsWith_dropWhile more⟩
    · rename_i hd
      exact ⟨isDigits_run hc rest, h ▸ stop, by simpa [beginsFraction] using hd⟩
  · rename_i h
    refine ⟨isDigits_run hc rest, stop, ?_⟩
    rw [beginsFraction.eq_def]
    split
    · rename_i t e
      cases t with
      | nil => rfl
      | cons d more => exact (h d more e).elim
    · rfl

theorem fits_takeString (rest : Text) : (takeString rest).1.Fits (takeString rest).2 := by
  rw [takeString]
  split
  · rename_i h
    have open' := List.dropWhile_eq_nil_iff.mp h
    exact ⟨fun hq => by simpa using open' _ hq, rfl⟩
  · exact fun hq => by simpa using of_mem_takeWhile hq

theorem fits_takeComment (rest : Text) : (takeComment rest).1.Fits (takeComment rest).2 := by
  refine ⟨fun hn => by simpa using of_mem_takeWhile hn, ?_⟩
  have stop := beginsWith_dropWhile (p := (· != '\n')) rest
  cases h : rest.dropWhile (· != '\n') with
  | nil => exact Or.inl h
  | cons d after =>
      rw [h] at stop
      exact Or.inr (by simpa [takeComment, h] using stop)

theorem fits_next (c : Char) (rest : Text) : (next c rest).1.Fits (next c rest).2 := by
  by_cases quote : c = '"'
  · subst quote
    exact fits_takeString rest
  by_cases comment : c = '/' ∧ rest.head? = some '/'
  · obtain ⟨rfl, second⟩ := comment
    cases rest with
    | nil => cases second
    | cons d rest =>
        cases second
        exact fits_takeComment rest
  by_cases digit : c.isDigit
  · rw [next_digit digit]
    exact fits_takeNumber digit rest
  by_cases start : isWordStart c
  · rw [next_wordStart start]
    refine ⟨⟨start, ?_⟩, beginsWith_dropWhile rest⟩
    rintro d (_ | ⟨_, hd⟩)
    · simp [isWordChar, start]
    · exact of_mem_takeWhile hd
  by_cases blank : isLayout c
  · rw [next_layout blank]
    exact blank
  cases h : Operator.ofChar? c with
  | some o =>
      rw [next_operator h comment]
      exact fits_takeOperator h comment
  | none =>
      have none_of_these : isUnexpected c := by simp [isUnexpected, quote, digit, start, blank, h]
      rw [next_unexpected none_of_these]
      exact none_of_these

/-! And what fits is taken. -/

theorem next_operator_of_fits {o : Operator} {after : Text} {c : Char} {rest : Text}
    (fits : (operator o).Fits after) (whole : o.spelling ++ after = c :: rest) :
    next c rest = (operator o, after) := by
  obtain ⟨short, single⟩ := fits
  rcases o.one_or_two with ⟨d, spelled, h⟩ | ⟨d, shorter, spelled, h, longer, notSlash⟩
  · obtain ⟨rfl, rfl⟩ : d = c ∧ after = rest := by simpa [spelled] using whole
    have notComment : ¬ (d = '/' ∧ after.head? = some '/') := by
      rintro ⟨rfl, second⟩
      cases after with
      | nil => cases second
      | cons e after =>
          cases second
          cases h
          simp at single
    rw [next_operator h notComment, takeOperator_short short]
  · obtain ⟨rfl, rfl⟩ : d = c ∧ '=' :: after = rest := by simpa [spelled] using whole
    rw [next_operator h (fun comment => notSlash comment.1), takeOperator_long longer]

theorem next_number_of_fits {n : Numeral} {after : Text} {c : Char} {rest : Text}
    (fits : (number n).Fits after) (whole : n.text ++ after = c :: rest) :
    next c rest = (number n, after) := by
  obtain ⟨digits, fraction⟩ := n
  cases fraction with
  | none =>
      obtain ⟨isDigits, stop, noFraction⟩ := fits
      obtain ⟨d, run, rfl, digit, inside⟩ := isDigits.exists_cons
      obtain ⟨rfl, rfl⟩ : d = c ∧ run ++ after = rest := by simpa [Numeral.text] using whole
      rw [next_digit digit]
      exact takeNumber_integer d inside stop noFraction
  | some fraction =>
      obtain ⟨isDigits, fractionDigits, stop⟩ := fits
      obtain ⟨d, run, rfl, digit, inside⟩ := isDigits.exists_cons
      obtain ⟨rfl, rfl⟩ : d = c ∧ run ++ '.' :: (fraction ++ after) = rest := by
        simpa [Numeral.text] using whole
      rw [next_digit digit]
      exact takeNumber_decimal d inside fractionDigits stop

theorem next_of_fits {piece : Piece} {after : Text} {c : Char} {rest : Text}
    (fits : piece.Fits after) (whole : piece.text ++ after = c :: rest) :
    next c rest = (piece, after) := by
  cases piece with
  | operator o => exact next_operator_of_fits fits whole
  | word w =>
      obtain ⟨isWord, stop⟩ := fits
      obtain ⟨d, run, rfl, start, inside⟩ := isWord.exists_cons
      obtain ⟨rfl, rfl⟩ : d = c ∧ run ++ after = rest := by simpa [text] using whole
      rw [next_wordStart start]
      exact takeWord_run d inside stop
  | number n => exact next_number_of_fits fits whole
  | string body =>
      obtain ⟨rfl, rfl⟩ : '"' = c ∧ body ++ '"' :: after = rest := by simpa [text] using whole
      exact takeString_closed fits after
  | comment body =>
      obtain ⟨rfl, rfl⟩ : '/' = c ∧ '/' :: (body ++ after) = rest := by simpa [text] using whole
      exact takeComment_run fits.1 fits.2
  | layout d =>
      obtain ⟨rfl, rfl⟩ : d = c ∧ after = rest := by simpa [text] using whole
      exact next_layout fits after
  | unexpected d =>
      obtain ⟨rfl, rfl⟩ : d = c ∧ after = rest := by simpa [text] using whole
      exact next_unexpected fits after
  | openString body =>
      obtain ⟨closed, rfl⟩ := fits
      obtain ⟨rfl, rfl⟩ : '"' = c ∧ body = rest := by simpa [text] using whole
      exact takeString_open closed

theorem next_eq_iff {c : Char} {rest after : Text} {piece : Piece} :
    next c rest = (piece, after) ↔ piece.text ++ after = c :: rest ∧ piece.Fits after := by
  constructor
  · intro h
    have whole := text_append_next c rest
    have fits := fits_next c rest
    rw [h] at whole fits
    exact ⟨whole, fits⟩
  · rintro ⟨whole, fits⟩
    exact next_of_fits fits whole

end Piece

/-- A numeral of digits is read back from its text. -/
theorem Numeral.ofText?_text (n : Numeral) {after : Text} (fits : (Piece.number n).Fits after) :
    ofText? n.text = some n := by
  obtain ⟨whole, fraction⟩ := n
  cases fraction with
  | none =>
      have digits : IsDigits whole := fits.1
      simp [ofText?, text, List.dropWhile_eq_nil_iff.mpr digits.ne_point, digits]
  | some fraction =>
      obtain ⟨digits, more, _⟩ : IsDigits whole ∧ IsDigits fraction ∧ _ := fits
      have stop : beginsWith (· != '.') ('.' :: fraction) = false := rfl
      simp [ofText?, text, takeWhile_run digits.ne_point stop,
        dropWhile_run digits.ne_point stop, digits, more]

/-- Every piece fits before the texts of those that follow it. -/
def Fitting : List Piece → Prop
  | [] => True
  | piece :: pieces => piece.Fits (pieces.flatMap Piece.text) ∧ Fitting pieces

theorem fitting_cut (source : Text) : Fitting (cut source) := by
  fun_induction cut source with
  | case1 => exact trivial
  | case2 c rest ih =>
      refine ⟨?_, ih⟩
      rw [flatMap_text_cut]
      exact Piece.fits_next c rest

theorem Piece.Fits.text_ne_nil {piece : Piece} {after : Text} (fits : piece.Fits after) :
    piece.text ≠ [] := by
  cases piece with
  | operator o => exact o.spelling_ne_nil
  | word w =>
      rintro rfl
      simp [Fits, IsWord] at fits
  | number n =>
      obtain ⟨digits, fraction⟩ := n
      cases fraction with
      | none => exact fits.1.1
      | some fraction => simp [text, Numeral.text]
  | _ => simp [text]

theorem cut_flatMap_text {pieces : List Piece} (h : Fitting pieces) :
    cut (pieces.flatMap Piece.text) = pieces := by
  induction pieces with
  | nil => exact cut_nil
  | cons piece pieces ih =>
      obtain ⟨fits, fitting⟩ := h
      obtain ⟨c, rest, whole⟩ := List.exists_cons_of_ne_nil
        (List.append_ne_nil_of_left_ne_nil fits.text_ne_nil (pieces.flatMap Piece.text))
      rw [List.flatMap_cons, whole, cut_cons, Piece.next_of_fits fits whole, ih fitting]

theorem cut_eq_iff {source : Text} {pieces : List Piece} :
    cut source = pieces ↔ pieces.flatMap Piece.text = source ∧ Fitting pieces := by
  constructor
  · rintro rfl
    exact ⟨flatMap_text_cut source, fitting_cut source⟩
  · rintro ⟨rfl, fitting⟩
    exact cut_flatMap_text fitting

end LoxLexer

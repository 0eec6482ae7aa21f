import LoxLexer.Proofs.Fit
import LoxLexer.Proofs.Walk

/-!
# An automaton for the diagnostics

To report what is wrong with a source it is enough to read one character after the other in one of
four modes. This automaton knows neither tokens nor pieces, and finds the same diagnostics as the
scan (`diagnostics_eq_reports`). It does not find tokens.
-/

namespace LoxLexer

inductive Mode where
  | code | slash | str | comment
  deriving DecidableEq

namespace Mode

def next : Mode → Char → Mode
  | code, c => if c = '"' then str else if c = '/' then slash else code
  | slash, c => if c = '"' then str else if c = '/' then comment else code
  | str, c => if c = '"' then code else str
  | comment, c => if c = '\n' then code else comment

/-- Outside strings and comments. -/
def inCode : Mode → Bool
  | code | slash => true
  | str | comment => false

end Mode

/-- The mode after reading a text from the start. -/
def modeAfter (t : Text) : Mode := t.foldl Mode.next .code

/-- Characters that may stand outside strings and comments. -/
def isKnown (c : Char) : Bool := c.isAlphanum ||
  ['_', ' ', '\t', '\r', '\n', '"', '/', '(', ')', '{', '}', ',', '.', '-', '+', ';', '*', '!',
    '=', '<', '>'].contains c

/-- What is reported when a character is read after the text before it. -/
def report? (before : Text) (c : Char) : Option Diagnostic :=
  if (modeAfter before).inCode && !isKnown c then
    some ⟨1 + Text.newlines before, "Unexpected character: ".toList ++ [c]⟩
  else none

def reportsFrom (before : Text) : Text → List Diagnostic
  | [] => []
  | c :: rest => (report? before c).toList ++ reportsFrom (before ++ [c]) rest

/-- What is reported at the end. -/
def lastReport? (source : Text) : Option Diagnostic :=
  if modeAfter source = .str then
    some ⟨1 + Text.newlines source, "Unterminated string".toList⟩
  else none

def reports (source : Text) : List Diagnostic :=
  reportsFrom [] source ++ (lastReport? source).toList

theorem modeAfter_concat (t : Text) (c : Char) :
    modeAfter (t ++ [c]) = (modeAfter t).next c := by
  rw [modeAfter, List.foldl_append]
  rfl

theorem reportsFrom_append (before s t : Text) :
    reportsFrom before (s ++ t) = reportsFrom before s ++ reportsFrom (before ++ s) t := by
  induction s generalizing before with
  | nil => simp [reportsFrom]
  | cons c s ih => simp [reportsFrom, ih]

/-! Characters. -/

theorem isKnown_of_isWordChar {c : Char} (h : isWordChar c) : isKnown c := by
  simp only [isWordChar, isWordStart, Bool.or_eq_true, beq_iff_eq] at h
  rcases h with (letter | rfl) | digit
  · simp [isKnown, Char.isAlphanum, letter]
  · rfl
  · simp [isKnown, Char.isAlphanum, digit]

theorem isKnown_of_isLayout {c : Char} (h : isLayout c) : isKnown c := by
  simp only [isLayout, Bool.or_eq_true, beq_iff_eq] at h
  rcases h with ((rfl | rfl) | rfl) | rfl <;> rfl

theorem isKnown_of_isUnexpected {c : Char} (h : isUnexpected c) : isKnown c = false := by
  refine Bool.eq_false_iff.mpr ?_
  intro known
  rw [isKnown, Bool.or_eq_true, List.contains_iff_mem] at known
  rcases known with alphanumeric | mark
  · have wordChar : isWordChar c := by
      rw [Char.isAlphanum, Bool.or_eq_true] at alphanumeric
      rcases alphanumeric with letter | digit
      · simp [isWordChar, isWordStart, letter]
      · simp [isWordChar, digit]
    simp only [isUnexpected, Bool.and_eq_true, Bool.not_eq_true'] at h
    obtain ⟨⟨⟨⟨_, digit⟩, start⟩, _⟩, _⟩ := h
    simp [isWordChar, digit, start] at wordChar
  · simp only [List.mem_cons, List.not_mem_nil, or_false] at mark
    rcases mark with rfl | rfl | rfl | rfl | rfl | rfl | rfl | rfl | rfl | rfl | rfl | rfl | rfl |
      rfl | rfl | rfl | rfl | rfl | rfl | rfl | rfl <;> cases h

/-! The loops: while the mode does not change and nothing is unknown, nothing is reported. -/

theorem read_staying {before t : Text} {m : Mode} (here : modeAfter before = m)
    (stays : ∀ c ∈ t, m.next c = m ∧ (m.inCode → isKnown c)) :
    reportsFrom before t = [] ∧ modeAfter (before ++ t) = m := by
  induction t generalizing before with
  | nil => simp [reportsFrom, here]
  | cons c t ih =>
      obtain ⟨⟨next, quiet⟩, stays⟩ := List.forall_mem_cons.mp stays
      have ahead : modeAfter (before ++ [c]) = m := by
        rw [modeAfter_concat, here, next]
      obtain ⟨silent, still⟩ := ih ahead stays
      have none : report? before c = none := by
        rw [report?, here]
        refine if_neg ?_
        intro unknown
        rw [Bool.and_eq_true, Bool.not_eq_true'] at unknown
        exact Bool.false_ne_true (unknown.2.symm.trans (quiet unknown.1))
      rw [List.append_assoc] at still
      exact ⟨by rw [reportsFrom, none, silent]; rfl, still⟩

theorem Mode.eq_of_inCode {m : Mode} (h : m.inCode) : m = .code ∨ m = .slash := by
  cases m with
  | code => exact Or.inl rfl
  | slash => exact Or.inr rfl
  | str => cases h
  | comment => cases h

/-- One of the characters that the automaton does not look for. -/
def isPlain (c : Char) : Bool := c != '"' && c != '/'

theorem Mode.next_plain {m : Mode} (code : m.inCode) {c : Char} (plain : isPlain c) :
    m.next c = .code := by
  rw [isPlain, Bool.and_eq_true, bne_iff_ne, bne_iff_ne] at plain
  obtain ⟨notQuote, notSlash⟩ := plain
  rcases eq_of_inCode code with rfl | rfl
  · rw [next, if_neg notQuote, if_neg notSlash]
  · rw [next, if_neg notQuote, if_neg notSlash]

/-- Plain characters outside strings and comments. -/
theorem read_plain {before t : Text} (code : (modeAfter before).inCode) (nonempty : t ≠ [])
    (plain : ∀ c ∈ t, isPlain c ∧ isKnown c) :
    reportsFrom before t = [] ∧ modeAfter (before ++ t) = .code := by
  obtain ⟨c, t, rfl⟩ := List.exists_cons_of_ne_nil nonempty
  obtain ⟨⟨first, known⟩, plain⟩ := List.forall_mem_cons.mp plain
  have ahead : modeAfter (before ++ [c]) = .code := by
    rw [modeAfter_concat, Mode.next_plain code first]
  obtain ⟨silent, still⟩ := read_staying ahead
    fun d hd => ⟨Mode.next_plain rfl (plain d hd).1, fun _ => (plain d hd).2⟩
  rw [List.append_assoc] at still
  refine ⟨?_, still⟩
  rw [reportsFrom, silent]
  simp [report?, known]

theorem report?_of_isKnown (before : Text) {c : Char} (h : isKnown c) :
    report? before c = none := by
  simp [report?, h]

/-- From a quote on up to the next. -/
theorem read_body {before body : Text} (code : (modeAfter before).inCode) (closed : '"' ∉ body) :
    reportsFrom before ('"' :: body) = [] ∧ modeAfter (before ++ '"' :: body) = .str := by
  have inside : modeAfter (before ++ ['"']) = .str := by
    rw [modeAfter_concat]
    rcases Mode.eq_of_inCode code with h | h
    · rw [h]
      rfl
    · rw [h]
      rfl
  have stays : ∀ d ∈ body, Mode.str.next d = .str ∧ (Mode.str.inCode → isKnown d) := by
    intro d hd
    refine ⟨if_neg ?_, fun code => nomatch code⟩
    rintro rfl
    exact closed hd
  obtain ⟨silent, still⟩ := read_staying inside stays
  rw [List.append_assoc] at still
  refine ⟨?_, still⟩
  rw [reportsFrom, silent, report?_of_isKnown before rfl]
  rfl

theorem read_string {before body : Text} (code : (modeAfter before).inCode) (closed : '"' ∉ body) :
    reportsFrom before ('"' :: body ++ ['"']) = [] ∧
      modeAfter (before ++ ('"' :: body ++ ['"'])) = .code := by
  obtain ⟨silent, still⟩ := read_body code closed
  constructor
  · rw [reportsFrom_append, silent, reportsFrom, report?_of_isKnown _ rfl]
    rfl
  · rw [← List.append_assoc, modeAfter_concat, still]
    rfl

theorem read_comment {before body : Text} (code : modeAfter before = .code)
    (oneLine : '\n' ∉ body) :
    reportsFrom before ('/' :: '/' :: body) = [] ∧
      modeAfter (before ++ '/' :: '/' :: body) = .comment := by
  have inside : modeAfter (before ++ ['/'] ++ ['/']) = .comment := by
    rw [modeAfter_concat, modeAfter_concat, code]
    rfl
  have stays : ∀ d ∈ body, Mode.comment.next d = .comment ∧ (Mode.comment.inCode → isKnown d) := by
    intro d hd
    refine ⟨if_neg ?_, fun code => nomatch code⟩
    rintro rfl
    exact oneLine hd
  obtain ⟨silent, still⟩ := read_staying inside stays
  rw [List.append_assoc, List.append_assoc] at still
  refine ⟨?_, still⟩
  rw [reportsFrom, reportsFrom, silent, report?_of_isKnown _ rfl, report?_of_isKnown _ rfl]
  rfl

theorem read_unexpected {before : Text} (code : (modeAfter before).inCode) {c : Char}
    (h : isUnexpected c) :
    reportsFrom before [c] =
        [⟨1 + Text.newlines before, "Unexpected character: ".toList ++ [c]⟩] ∧
      modeAfter (before ++ [c]) = .code := by
  have plain : isPlain c := by
    rw [isPlain, Bool.and_eq_true, bne_iff_ne, bne_iff_ne]
    constructor
    · rintro rfl
      cases h
    · rintro rfl
      cases h
  constructor
  · simp [reportsFrom, report?, code, isKnown_of_isUnexpected h]
  · rw [modeAfter_concat, Mode.next_plain code plain]

theorem isPlain_of_isWordChar {c : Char} (h : isWordChar c) : isPlain c := by
  obtain ⟨_, notQuote, notOperator⟩ := Piece.of_isWordChar h
  rw [isPlain, Bool.and_eq_true, bne_iff_ne, bne_iff_ne]
  refine ⟨notQuote, ?_⟩
  rintro rfl
  cases notOperator

theorem isPlain_of_isLayout {c : Char} (h : isLayout c) : isPlain c := by
  simp only [isLayout, Bool.or_eq_true, beq_iff_eq] at h
  rcases h with ((rfl | rfl) | rfl) | rfl <;> rfl

theorem plain_of_isDigit {c : Char} (h : c.isDigit) : isPlain c ∧ isKnown c := by
  have wordChar : isWordChar c := by simp [isWordChar, h]
  exact ⟨isPlain_of_isWordChar wordChar, isKnown_of_isWordChar wordChar⟩

theorem plain_number {n : Numeral} {after : Text} (fits : (Piece.number n).Fits after) :
    ∀ c ∈ n.text, isPlain c ∧ isKnown c := by
  obtain ⟨whole, fraction⟩ := n
  intro c hc
  cases fraction with
  | none => exact plain_of_isDigit (fits.1.2 c hc)
  | some fraction =>
      obtain ⟨⟨_, digits⟩, ⟨_, more⟩, _⟩ := fits
      rcases List.mem_append.mp hc with hc | hc
      · exact plain_of_isDigit (digits c hc)
      · rcases List.mem_cons.mp hc with rfl | hc
        · exact ⟨rfl, rfl⟩
        · exact plain_of_isDigit (more c hc)

theorem plain_operator {o : Operator} (notSlash : o ≠ .slash) :
    ∀ c ∈ o.spelling, isPlain c ∧ isKnown c := by
  have all : o.spelling.all fun c => isPlain c && isKnown c := by
    cases o with
    | slash => exact absurd rfl notSlash
    | _ => rfl
  intro c hc
  exact Bool.and_eq_true_iff.mp (List.all_eq_true.mp all c hc)

/-- What the automaton may be in where a piece starts, with this text ahead. -/
def Mode.Ready (ahead : Text) : Mode → Prop
  | code => True
  | slash => beginsWith (· == '/') ahead = false
  | str => False
  | comment => ahead = [] ∨ beginsWith (· == '\n') ahead

/-- A comment is only left to be ended by its line feed. -/
theorem Mode.Ready.inCode_or_newline {m : Mode} {ahead : Text} (ready : m.Ready ahead)
    (nonempty : ahead ≠ []) : m.inCode ∨ m = .comment ∧ beginsWith (· == '\n') ahead := by
  cases m with
  | code => exact Or.inl rfl
  | slash => exact Or.inl rfl
  | str => exact ready.elim
  | comment => exact Or.inr ⟨rfl, ready.resolve_left nonempty⟩

/-- Over a piece that is not open at the end, outside strings and comments. -/
theorem read_piece_inCode {before after : Text} {piece : Piece} (fits : piece.Fits after)
    (closed : ∀ body, piece ≠ .openString body) (code : (modeAfter before).inCode)
    (single : modeAfter before = .slash → beginsWith (· == '/') (piece.text ++ after) = false)
    {p : Position} (here : p.line = 1 + Text.newlines before) :
    reportsFrom before piece.text = (piece.diagnostic? p).toList ∧
      (modeAfter (before ++ piece.text)).Ready after := by
  have code_of_slash : beginsWith (· == '/') (piece.text ++ after) → modeAfter before = .code := by
    intro begins
    refine (Mode.eq_of_inCode code).resolve_right ?_
    intro slash
    exact Bool.false_ne_true ((single slash).symm.trans begins)
  have ready_of_plain : (∀ c ∈ piece.text, isPlain c ∧ isKnown c) →
      reportsFrom before piece.text = [] ∧ (modeAfter (before ++ piece.text)).Ready after := by
    intro plain
    obtain ⟨silent, still⟩ := read_plain code fits.text_ne_nil plain
    rw [still]
    exact ⟨silent, trivial⟩
  cases piece with
  | operator o =>
      by_cases slash : o = .slash
      · subst slash
        have ahead : modeAfter (before ++ ['/']) = .slash := by
          rw [modeAfter_concat, code_of_slash rfl]
          rfl
        constructor
        · change reportsFrom before ['/'] = []
          rw [reportsFrom, report?_of_isKnown _ rfl]
          rfl
        · change (modeAfter (before ++ ['/'])).Ready after
          rw [ahead]
          exact fits.2 rfl
      · exact ready_of_plain (plain_operator slash)
  | word w =>
      exact ready_of_plain fun c hc =>
        ⟨isPlain_of_isWordChar (fits.1.2 c hc), isKnown_of_isWordChar (fits.1.2 c hc)⟩
  | number n => exact ready_of_plain (plain_number fits)
  | string body =>
      obtain ⟨silent, still⟩ := read_string code fits
      refine ⟨silent, ?_⟩
      rw [Piece.text, still]
      trivial
  | comment body =>
      obtain ⟨silent, still⟩ := read_comment (code_of_slash rfl) fits.1
      refine ⟨silent, ?_⟩
      rw [Piece.text, still]
      exact fits.2
  | layout c =>
      refine ready_of_plain ?_
      intro d hd
      obtain rfl := List.mem_singleton.mp hd
      exact ⟨isPlain_of_isLayout fits, isKnown_of_isLayout fits⟩
  | unexpected c =>
      obtain ⟨reported, still⟩ := read_unexpected code fits
      have line : (p.past [c]).line = 1 + Text.newlines before := by
        rw [Position.past_line, Piece.newlines_of_isUnexpected fits, here, Nat.add_zero]
      constructor
      · change reportsFrom before [c] =
          [⟨(p.past [c]).line, "Unexpected character: ".toList ++ [c]⟩]
        rw [reported, line]
      · rw [Piece.text, still]
        trivial
  | openString body => exact absurd rfl (closed body)

theorem eq_layout_of_newline {piece : Piece} {after : Text} (fits : piece.Fits after)
    (newline : beginsWith (· == '\n') (piece.text ++ after)) : piece = .layout '\n' := by
  cases whole : piece.text ++ after with
  | nil => simp [whole] at newline
  | cons c rest =>
      rw [whole] at newline
      obtain rfl : c = '\n' := by simpa using newline
      have taken := Piece.next_of_fits fits whole
      rw [Piece.next_layout rfl] at taken
      exact (congrArg Prod.fst taken).symm

/-- Over any piece that is not open at the end. -/
theorem read_piece {before after : Text} {piece : Piece} (fits : piece.Fits after)
    (closed : ∀ body, piece ≠ .openString body)
    (ready : (modeAfter before).Ready (piece.text ++ after)) {p : Position}
    (here : p.line = 1 + Text.newlines before) :
    reportsFrom before piece.text = (piece.diagnostic? p).toList ∧
      (modeAfter (before ++ piece.text)).Ready after := by
  have nonempty := List.append_ne_nil_of_left_ne_nil fits.text_ne_nil after
  rcases ready.inCode_or_newline nonempty with code | ⟨comment, newline⟩
  · refine read_piece_inCode fits closed code ?_ here
    intro slash
    rw [slash] at ready
    exact ready
  · obtain rfl := eq_layout_of_newline fits newline
    have still : modeAfter (before ++ ['\n']) = .code := by
      rw [modeAfter_concat, comment]
      rfl
    constructor
    · change reportsFrom before ['\n'] = []
      rw [reportsFrom, report?_of_isKnown _ rfl]
      rfl
    · rw [Piece.text, still]
      trivial

theorem read_openString {before body : Text} (closed : '"' ∉ body)
    (ready : (modeAfter before).Ready ('"' :: body)) :
    reportsFrom before ('"' :: body) = [] ∧ modeAfter (before ++ '"' :: body) = .str := by
  refine read_body ?_ closed
  rcases ready.inCode_or_newline (List.cons_ne_nil _ _) with code | ⟨_, newline⟩
  · exact code
  · cases newline

theorem lastReport?_of_ready {source : Text} (ready : (modeAfter source).Ready []) :
    lastReport? source = none := by
  refine if_neg ?_
  intro str
  rw [str] at ready
  exact ready

theorem eq_nil_of_flatMap_text {pieces : List Piece} (fitting : Fitting pieces)
    (nothing : pieces.flatMap Piece.text = []) : pieces = [] := by
  cases pieces with
  | nil => rfl
  | cons piece pieces =>
      rw [List.flatMap_cons] at nothing
      exact absurd (List.append_eq_nil_iff.mp nothing).1 fitting.1.text_ne_nil

/-- Piece by piece, the scan reports what the automaton does from the same place on. -/
theorem diagnosticsFrom_eq_reports {pieces : List Piece} (fitting : Fitting pieces) :
    ∀ (before : Text) (p : Position), p.line = 1 + Text.newlines before →
      (modeAfter before).Ready (pieces.flatMap Piece.text) →
      diagnosticsFrom p pieces =
        reportsFrom before (pieces.flatMap Piece.text) ++
          (lastReport? (before ++ pieces.flatMap Piece.text)).toList := by
  induction pieces with
  | nil =>
      intro before p here ready
      rw [List.flatMap_nil, List.append_nil, lastReport?_of_ready ready]
      rfl
  | cons piece pieces ih =>
      intro before p here ready
      obtain ⟨fits, fitting⟩ := fitting
      rw [diagnosticsFrom_cons]
      by_cases isOpen : ∃ body, piece = .openString body
      · obtain ⟨body, rfl⟩ := isOpen
        obtain ⟨closed, ended⟩ := fits
        obtain rfl := eq_nil_of_flatMap_text fitting ended
        have whole : [Piece.openString body].flatMap Piece.text = '"' :: body := by
          simp [Piece.text]
        rw [whole] at ready ⊢
        obtain ⟨silent, str⟩ := read_openString closed ready
        have line : (p.past ('"' :: body)).line = 1 + Text.newlines (before ++ '"' :: body) := by
          rw [Position.past_line, Text.newlines_append, here, Nat.add_assoc]
        rw [silent, lastReport?, if_pos str, ← line]
        rfl
      · have closed : ∀ body, piece ≠ .openString body := fun body same => isOpen ⟨body, same⟩
        rw [List.flatMap_cons] at ready ⊢
        obtain ⟨reported, ready⟩ := read_piece fits closed ready here
        have there : (p.past piece.text).line = 1 + Text.newlines (before ++ piece.text) := by
          rw [Position.past_line, Text.newlines_append, here, Nat.add_assoc]
        rw [ih fitting (before ++ piece.text) _ there ready, reportsFrom_append, reported,
          List.append_assoc, List.append_assoc]

theorem diagnosticsOf_eq_reports (source : Text) : diagnosticsOf source = reports source := by
  have all := diagnosticsFrom_eq_reports (fitting_cut source) [] Position.start rfl trivial
  rw [flatMap_text_cut] at all
  exact all

theorem unexpected_ne_unterminated (c : Char) :
    "Unexpected character: ".toList ++ [c] ≠ "Unterminated string".toList := by
  intro same
  have third : some 'e' = some 't' := congrArg (fun t : Text => t[2]?) same
  exact absurd third (by decide)

theorem message_of_mem_reportsFrom {before t : Text} {d : Diagnostic}
    (h : d ∈ reportsFrom before t) : d.message ≠ "Unterminated string".toList := by
  induction t generalizing before with
  | nil => cases h
  | cons c t ih =>
      rcases List.mem_append.mp h with here | there
      · rw [Option.mem_toList, report?] at here
        split at here
        · obtain rfl := Option.some.inj here
          exact unexpected_ne_unterminated c
        · cases here
      · exact ih there

theorem eq_nil_of_toList {last : Option Diagnostic} {earlier later : List Diagnostic}
    {d : Diagnostic} (split : last.toList = earlier ++ d :: later) : later = [] := by
  have lengths := congrArg List.length split
  rw [List.length_append, List.length_cons] at lengths
  cases last with
  | none => simp at lengths
  | some e =>
      rw [Option.toList_some, List.length_singleton] at lengths
      exact List.eq_nil_of_length_eq_zero (by omega)

/-- An open string is reported last. -/
theorem eq_nil_of_unterminated {source : Text} {earlier later : List Diagnostic} {d : Diagnostic}
    (split : reports source = earlier ++ d :: later)
    (message : d.message = "Unterminated string".toList) : later = [] := by
  rcases List.append_eq_append_iff.mp split with ⟨middle, _, last⟩ | ⟨middle, inside, last⟩
  · exact eq_nil_of_toList last
  · cases middle with
    | nil => exact @eq_nil_of_toList _ [] _ _ last.symm
    | cons e middle =>
        obtain ⟨rfl, _⟩ := List.cons.inj last
        have member : d ∈ reportsFrom [] source := by simp [inside]
        exact absurd message (message_of_mem_reportsFrom member)

/-- The scan reports what the automaton does, an open string at the very end only. -/
theorem diagnostics_eq_reports (source : Text) :
    (scan source).diagnostics = reports source ∧
    (∀ earlier d later, (scan source).diagnostics = earlier ++ d :: later →
      d.message = "Unterminated string".toList → later = []) ∧
    ((scan source).isFaulty = false ↔ reports source = []) := by
  have same : (scan source).diagnostics = reports source := by
    rw [scan_eq]
    exact diagnosticsOf_eq_reports source
  refine ⟨same, ?_, ?_⟩
  · intro earlier d later split message
    exact eq_nil_of_unterminated (same.symm.trans split) message
  · rw [Scanned.isFaulty, same]
    simp

end LoxLexer

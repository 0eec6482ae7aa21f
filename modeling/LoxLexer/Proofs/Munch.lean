import LoxLexer.Proofs.Fit
import LoxLexer.Proofs.Walk
import Mathlib.Computability.Language

/-!
# Maximal munch

The lexical grammar is six regular languages. A text is munched from left to right: at each place
the longest beginning that is in any of the languages, and where there is none, all the rest if it
starts with a quote, else one character. A text can be munched in one way only, and its tokens are
those of that way (`tokens_are_munched`).

The value of a number is here just a function of its text; which number it is stands elsewhere.
-/

namespace LoxLexer

open scoped Computability

namespace Grammar

def Letter (c : Char) : Prop := ('a' ≤ c ∧ c ≤ 'z') ∨ ('A' ≤ c ∧ c ≤ 'Z') ∨ c = '_'

def Digit (c : Char) : Prop := '0' ≤ c ∧ c ≤ '9'

/-- The texts of one character of this sort. -/
def one (sort : Char → Prop) : Language Char := {w | ∃ c, w = [c] ∧ sort c}

def digits : Language Char := one Digit * (one Digit)∗

inductive Pattern where
  | operator | word | number | string | comment | blank
  deriving DecidableEq

def Pattern.language : Pattern → Language Char
  | operator => {w | ∃ o : Operator, w = o.spelling}
  | word => one Letter * (one fun c => Letter c ∨ Digit c)∗
  | number => digits * (1 + {['.']} * digits)
  | string => {['"']} * (one (· ≠ '"'))∗ * {['"']}
  | comment => {['/', '/']} * (one (· ≠ '\n'))∗
  | blank => one (· ∈ [' ', '\r', '\t', '\n'])

/-- The text begins with `w`, and nothing longer that it begins with is in any pattern. -/
def Longest (t : Text) (p : Pattern) (w : Text) : Prop :=
  w ∈ p.language ∧ w <+: t ∧ ∀ q v, v ∈ Pattern.language q → v <+: t → v.length ≤ w.length

def Unmatched (t : Text) : Prop := ∀ p w, w ∈ Pattern.language p → ¬ w <+: t

/-- A stretch of text with its pattern, if it has one. -/
structure Segment where
  pattern : Option Pattern
  text : Text
  deriving DecidableEq

inductive Munch : Text → List Segment → Prop
  | done : Munch [] []
  | longest {p : Pattern} {w rest : Text} {segments : List Segment}
      (best : Longest (w ++ rest) p w) (more : Munch rest segments) :
      Munch (w ++ rest) (⟨some p, w⟩ :: segments)
  | openString {rest : Text} (none : Unmatched ('"' :: rest)) :
      Munch ('"' :: rest) [⟨.none, '"' :: rest⟩]
  | stray {c : Char} {rest : Text} {segments : List Segment} (none : Unmatched (c :: rest))
      (notQuote : c ≠ '"') (more : Munch rest segments) :
      Munch (c :: rest) (⟨.none, [c]⟩ :: segments)

/-- What a segment is as a token. The value of a string is what stands between its quotes. -/
def Segment.content : Segment → Option Content
  | ⟨some .operator, w⟩ =>
      (Operator.all.find? fun o => o.spelling == w).map fun o => (.operator o, w, none)
  | ⟨some .word, w⟩ =>
      match Keyword.all.find? fun k => k.spelling == w with
      | some k => some (.keyword k, w, none)
      | none => some (.identifier, w, none)
  | ⟨some .number, w⟩ =>
      (Numeral.ofText? w).map fun n => (.number, w, some (.number n.value))
  | ⟨some .string, w⟩ => some (.string, w, some (.string w.tail.dropLast))
  | ⟨some .comment, _⟩ | ⟨some .blank, _⟩ | ⟨none, _⟩ => none

/-! The patterns, character by character. -/

theorem mem_one_kstar {sort : Char → Prop} {w : Text} :
    w ∈ (one sort)∗ ↔ ∀ c ∈ w, sort c := by
  constructor
  · intro h
    obtain ⟨parts, rfl, single⟩ := Language.mem_kstar.mp h
    intro c hc
    obtain ⟨part, hpart, hc⟩ := List.mem_flatten.mp hc
    obtain ⟨d, rfl, hd⟩ := single part hpart
    exact List.mem_singleton.mp hc ▸ hd
  · intro h
    have joined : w = (w.map fun c => [c]).flatten := by
      rw [← List.flatMap_def, List.flatMap_singleton']
    refine Language.mem_kstar.mpr ⟨w.map fun c => [c], joined, ?_⟩
    intro part hpart
    obtain ⟨c, hc, rfl⟩ := List.mem_map.mp hpart
    exact ⟨c, rfl, h c hc⟩

theorem mem_one_mul {sort : Char → Prop} {more : Language Char} {w : Text} :
    w ∈ one sort * more ↔ ∃ c t, w = c :: t ∧ sort c ∧ t ∈ more := by
  rw [Language.mem_mul]
  constructor
  · rintro ⟨a, ⟨c, rfl, hc⟩, t, ht, rfl⟩
    exact ⟨c, t, rfl, hc, ht⟩
  · rintro ⟨c, t, rfl, hc, ht⟩
    exact ⟨[c], ⟨c, rfl, hc⟩, t, ht, rfl⟩

theorem mem_singleton_mul {a w : Text} {more : Language Char} :
    w ∈ ({a} : Language Char) * more ↔ ∃ t ∈ more, w = a ++ t := by
  rw [Language.mem_mul]
  constructor
  · rintro ⟨b, rfl, t, ht, rfl⟩
    exact ⟨t, ht, rfl⟩
  · rintro ⟨t, ht, rfl⟩
    exact ⟨a, rfl, t, ht, rfl⟩

theorem letter_iff {c : Char} : Letter c ↔ isWordStart c := isWordStart_iff.symm

theorem digit_iff {c : Char} : Digit c ↔ c.isDigit := Char.isDigit_iff_toNat.symm

theorem wordChar_iff {c : Char} : Letter c ∨ Digit c ↔ isWordChar c := by
  rw [letter_iff, digit_iff, isWordChar, Bool.or_eq_true]

/-- Letters and digits, a letter first. -/
theorem mem_word_iff {w : Text} : w ∈ Pattern.word.language ↔ IsWord w := by
  rw [Pattern.language, mem_one_mul]
  constructor
  · rintro ⟨c, t, rfl, start, inside⟩
    refine ⟨letter_iff.mp start, ?_⟩
    rintro d (_ | ⟨_, hd⟩)
    · exact wordChar_iff.mp (Or.inl start)
    · exact wordChar_iff.mp (mem_one_kstar.mp inside d hd)
  · rintro ⟨start, inside⟩
    cases w with
    | nil => simp at start
    | cons c t =>
        refine ⟨c, t, rfl, letter_iff.mpr start, mem_one_kstar.mpr ?_⟩
        intro d hd
        exact wordChar_iff.mpr (inside d (List.mem_cons_of_mem _ hd))

theorem mem_digits_iff {w : Text} : w ∈ digits ↔ IsDigits w := by
  rw [digits, mem_one_mul]
  constructor
  · rintro ⟨c, t, rfl, start, inside⟩
    refine ⟨List.cons_ne_nil _ _, ?_⟩
    rintro d (_ | ⟨_, hd⟩)
    · exact digit_iff.mp start
    · exact digit_iff.mp (mem_one_kstar.mp inside d hd)
  · rintro ⟨nonempty, inside⟩
    obtain ⟨c, t, rfl⟩ := List.exists_cons_of_ne_nil nonempty
    refine ⟨c, t, rfl, digit_iff.mpr (inside c (List.mem_cons_self ..)), mem_one_kstar.mpr ?_⟩
    intro d hd
    exact digit_iff.mpr (inside d (List.mem_cons_of_mem _ hd))

/-- A number is the text of a numeral of digits. -/
theorem mem_number_iff {w : Text} : w ∈ Pattern.number.language ↔
    IsDigits w ∨ ∃ whole fraction, w = whole ++ '.' :: fraction ∧ IsDigits whole ∧
      IsDigits fraction := by
  rw [Pattern.language, Language.mem_mul]
  constructor
  · rintro ⟨whole, hwhole, tail, htail, rfl⟩
    rw [Language.mem_add, Language.mem_one, mem_singleton_mul] at htail
    rcases htail with rfl | ⟨fraction, hfraction, rfl⟩
    · rw [List.append_nil]
      exact Or.inl (mem_digits_iff.mp hwhole)
    · exact Or.inr ⟨whole, fraction, rfl, mem_digits_iff.mp hwhole, mem_digits_iff.mp hfraction⟩
  · rintro (whole | ⟨whole, fraction, rfl, hwhole, hfraction⟩)
    · exact ⟨w, mem_digits_iff.mpr whole, [], Or.inl rfl, List.append_nil w⟩
    · refine ⟨whole, mem_digits_iff.mpr hwhole, '.' :: fraction, Or.inr ?_, rfl⟩
      exact mem_singleton_mul.mpr ⟨fraction, mem_digits_iff.mpr hfraction, rfl⟩

theorem mem_string_iff {w : Text} : w ∈ Pattern.string.language ↔
    ∃ body, w = '"' :: body ++ ['"'] ∧ '"' ∉ body := by
  rw [Pattern.language, Language.mem_mul]
  constructor
  · rintro ⟨a, ha, b, rfl, rfl⟩
    obtain ⟨body, hbody, rfl⟩ := mem_singleton_mul.mp ha
    exact ⟨body, rfl, fun hq => mem_one_kstar.mp hbody _ hq rfl⟩
  · rintro ⟨body, rfl, closed⟩
    have hbody : body ∈ (one (· ≠ '"'))∗ := by
      refine mem_one_kstar.mpr ?_
      rintro c hc rfl
      exact closed hc
    exact ⟨'"' :: body, mem_singleton_mul.mpr ⟨body, hbody, rfl⟩, ['"'], rfl, rfl⟩

theorem mem_comment_iff {w : Text} : w ∈ Pattern.comment.language ↔
    ∃ body, w = '/' :: '/' :: body ∧ '\n' ∉ body := by
  rw [Pattern.language, mem_singleton_mul]
  constructor
  · rintro ⟨body, hbody, rfl⟩
    exact ⟨body, rfl, fun hn => mem_one_kstar.mp hbody _ hn rfl⟩
  · rintro ⟨body, rfl, oneLine⟩
    refine ⟨body, mem_one_kstar.mpr ?_, rfl⟩
    rintro c hc rfl
    exact oneLine hc

theorem mem_blank_iff {w : Text} : w ∈ Pattern.blank.language ↔ ∃ c, w = [c] ∧ isLayout c := by
  have same : ∀ c, c ∈ [' ', '\r', '\t', '\n'] ↔ isLayout c = true := by
    intro c
    simp [isLayout, or_assoc]
  simp only [Pattern.language, one, same]
  exact Iff.rfl

end Grammar

open Grammar

namespace Piece

def pattern? : Piece → Option Pattern
  | operator _ => some .operator
  | word _ => some .word
  | number _ => some .number
  | string _ => some .string
  | comment _ => some .comment
  | layout _ => some .blank
  | unexpected _ | openString _ => none

def segment (piece : Piece) : Segment := ⟨piece.pattern?, piece.text⟩

theorem Fits.text_mem {piece : Piece} {after : Text} (fits : piece.Fits after) {p : Pattern}
    (h : piece.pattern? = some p) : piece.text ∈ p.language := by
  cases piece with
  | operator o =>
      cases h
      exact ⟨o, rfl⟩
  | word w =>
      cases h
      exact mem_word_iff.mpr fits.1
  | number n =>
      cases h
      obtain ⟨whole, fraction⟩ := n
      cases fraction with
      | none => exact mem_number_iff.mpr (Or.inl fits.1)
      | some fraction =>
          exact mem_number_iff.mpr (Or.inr ⟨whole, fraction, rfl, fits.1, fits.2.1⟩)
  | string body =>
      cases h
      exact mem_string_iff.mpr ⟨body, rfl, fits⟩
  | comment body =>
      cases h
      exact mem_comment_iff.mpr ⟨body, rfl, fits.1⟩
  | layout c =>
      cases h
      exact mem_blank_iff.mpr ⟨c, rfl, fits⟩
  | unexpected c => cases h
  | openString body => cases h

/-- The piece is longer than a text of this pattern, or as long and of this pattern too. -/
def Covers (p : Pattern) (w : Text) (piece : Piece) : Prop :=
  (piece.pattern? = some p ∧ w.length ≤ piece.text.length) ∨
  (piece.pattern?.isSome ∧ w.length < piece.text.length)

theorem length_le_takeWhile {sort : Char → Bool} {run : Text} (inside : ∀ c ∈ run, sort c)
    (more : Text) : run.length ≤ ((run ++ more).takeWhile sort).length := by
  rw [List.takeWhile_append_of_pos inside, List.length_append]
  exact Nat.le_add_right _ _

theorem takeOperator_pattern? (o : Operator) (rest : Text) :
    (takeOperator o rest).1.pattern? = some .operator := by
  rw [takeOperator.eq_def]
  split <;> rfl

theorem takeNumber_pattern? (c : Char) (rest : Text) :
    (takeNumber c rest).1.pattern? = some .number := by
  rw [takeNumber]
  split
  · split <;> rfl
  · rfl

theorem covers_operator {o : Operator} {c : Char} {rest more : Text}
    (whole : o.spelling ++ more = c :: rest) :
    (next c rest).1.Covers .operator o.spelling := by
  rcases o.one_or_two with ⟨d, spelled, h⟩ | ⟨d, short, spelled, h, longer, notSlash⟩
  · obtain ⟨rfl, rfl⟩ : d = c ∧ more = rest := by simpa [spelled] using whole
    by_cases comment : d = '/' ∧ more.head? = some '/'
    · obtain ⟨rfl, second⟩ := comment
      cases more with
      | nil => cases second
      | cons e more =>
          cases second
          exact Or.inr ⟨rfl, by simp [next_comment, takeComment, spelled, text]⟩
    · refine Or.inl ⟨?_, ?_⟩
      · rw [next_operator h comment]
        exact takeOperator_pattern? o more
      · rw [spelled]
        exact List.length_pos_iff.mpr (text_next_ne_nil d more)
  · obtain ⟨rfl, rfl⟩ : d = c ∧ '=' :: more = rest := by simpa [spelled] using whole
    rw [next_operator h (fun comment => notSlash comment.1), takeOperator_long longer]
    exact Or.inl ⟨rfl, le_rfl⟩

theorem covers_word {w : Text} (hw : IsWord w) {c : Char} {rest more : Text}
    (whole : w ++ more = c :: rest) : (next c rest).1.Covers .word w := by
  obtain ⟨d, run, rfl, start, inside⟩ := hw.exists_cons
  obtain ⟨rfl, rfl⟩ : d = c ∧ run ++ more = rest := by simpa using whole
  have run_le := length_le_takeWhile inside more
  rw [next_wordStart start]
  exact Or.inl ⟨rfl, Nat.succ_le_succ run_le⟩

theorem covers_integer {w : Text} (hw : IsDigits w) {c : Char} {rest more : Text}
    (whole : w ++ more = c :: rest) : (next c rest).1.Covers .number w := by
  obtain ⟨d, run, rfl, digit, inside⟩ := hw.exists_cons
  obtain ⟨rfl, rfl⟩ : d = c ∧ run ++ more = rest := by simpa using whole
  have run_le := length_le_takeWhile inside more
  rw [next_digit digit]
  refine Or.inl ⟨takeNumber_pattern? d _, ?_⟩
  rw [takeNumber]
  split
  · split
    · simp only [text, Numeral.text, List.length_append, List.length_cons]
      omega
    · exact Nat.succ_le_succ run_le
  · exact Nat.succ_le_succ run_le

theorem covers_decimal {digits fraction : Text} (hd : IsDigits digits) (hf : IsDigits fraction)
    {c : Char} {rest more : Text} (whole : digits ++ '.' :: fraction ++ more = c :: rest) :
    (next c rest).1.Covers .number (digits ++ '.' :: fraction) := by
  obtain ⟨d, run, rfl, digit, inside⟩ := hd.exists_cons
  obtain ⟨rfl, rfl⟩ : d = c ∧ run ++ '.' :: (fraction ++ more) = rest := by simpa using whole
  have cutAgain := List.takeWhile_append_dropWhile (p := Char.isDigit) (l := fraction ++ more)
  have longer : IsDigits ((fraction ++ more).takeWhile Char.isDigit) := by
    refine ⟨?_, fun x hx => of_mem_takeWhile hx⟩
    rw [List.takeWhile_append_of_pos hf.2]
    exact List.append_ne_nil_of_left_ne_nil hf.1 _
  have taken := takeNumber_decimal d inside longer (beginsWith_dropWhile (fraction ++ more))
  rw [cutAgain] at taken
  rw [next_digit digit, taken]
  have fraction_le := length_le_takeWhile hf.2 more
  refine Or.inl ⟨rfl, ?_⟩
  simp only [text, Numeral.text, List.length_append, List.length_cons]
  omega

theorem covers_of_mem {p : Pattern} {w : Text} (h : w ∈ p.language) {c : Char} {rest : Text}
    (start : w <+: c :: rest) : (next c rest).1.Covers p w := by
  obtain ⟨more, whole⟩ := start
  cases p with
  | operator =>
      obtain ⟨o, rfl⟩ := h
      exact covers_operator whole
  | word => exact covers_word (mem_word_iff.mp h) whole
  | number =>
      rcases mem_number_iff.mp h with hw | ⟨digits, fraction, rfl, hd, hf⟩
      · exact covers_integer hw whole
      · exact covers_decimal hd hf whole
  | string =>
      obtain ⟨body, rfl, closed⟩ := mem_string_iff.mp h
      obtain ⟨rfl, rfl⟩ : '"' = c ∧ body ++ '"' :: more = rest := by simpa using whole
      rw [next_quote, takeString_closed closed]
      exact Or.inl ⟨rfl, le_rfl⟩
  | comment =>
      obtain ⟨body, rfl, oneLine⟩ := mem_comment_iff.mp h
      obtain ⟨rfl, rfl⟩ : '/' = c ∧ '/' :: (body ++ more) = rest := by simpa using whole
      have inside : ∀ x ∈ body, (x != '\n') = true := by
        intro x hx
        exact bne_iff_ne.mpr fun e => oneLine (e ▸ hx)
      refine Or.inl ⟨rfl, ?_⟩
      exact Nat.add_le_add_right (length_le_takeWhile inside more) 2
  | blank =>
      obtain ⟨d, rfl, hd⟩ := mem_blank_iff.mp h
      obtain ⟨rfl, rfl⟩ : d = c ∧ more = rest := by simpa using whole
      rw [next_layout hd]
      exact Or.inl ⟨rfl, le_rfl⟩

theorem longest_of_next {c : Char} {rest : Text} {p : Pattern}
    (h : (next c rest).1.pattern? = some p) : Longest (c :: rest) p (next c rest).1.text := by
  refine ⟨(fits_next c rest).text_mem h, ⟨(next c rest).2, text_append_next c rest⟩, ?_⟩
  intro q v hv start
  rcases covers_of_mem hv start with ⟨_, le⟩ | ⟨_, lt⟩
  · exact le
  · exact Nat.le_of_lt lt

theorem unmatched_of_next {c : Char} {rest : Text} (h : (next c rest).1.pattern? = none) :
    Unmatched (c :: rest) := by
  intro p w hw start
  rcases covers_of_mem hw start with ⟨some_p, _⟩ | ⟨isSome, _⟩
  · rw [h] at some_p
    cases some_p
  · rw [h] at isSome
    cases isSome

/-- The first piece without a pattern is all the rest from a quote on, or one other character. -/
theorem next_of_unmatched {c : Char} {rest : Text} (h : (next c rest).1.pattern? = none) :
    (c = '"' ∧ next c rest = (openString rest, [])) ∨
    (c ≠ '"' ∧ next c rest = (unexpected c, rest)) := by
  have whole := text_append_next c rest
  have fits := fits_next c rest
  cases found : (next c rest).1 with
  | unexpected d =>
      rw [found] at whole fits
      obtain ⟨rfl, after⟩ : d = c ∧ (next c rest).2 = rest := by simpa [text] using whole
      refine Or.inr ⟨?_, Prod.ext found after⟩
      rintro rfl
      cases fits
  | openString body =>
      rw [found] at whole fits
      obtain ⟨closed, after⟩ := fits
      obtain ⟨rfl, rfl⟩ : '"' = c ∧ body = rest := by simpa [text, after] using whole
      exact Or.inl ⟨rfl, Prod.ext found after⟩
  | _ =>
      rw [found] at h
      cases h

end Piece

theorem munch_cut (source : Text) : Munch source ((cut source).map Piece.segment) := by
  fun_induction cut source with
  | case1 => exact .done
  | case2 c rest ih =>
      cases h : (Piece.next c rest).1.pattern? with
      | some p =>
          have best := Piece.longest_of_next h
          have step := Munch.longest (Piece.text_append_next c rest ▸ best) ih
          rw [Piece.text_append_next] at step
          rw [List.map_cons, Piece.segment, h]
          exact step
      | none =>
          have unmatched := Piece.unmatched_of_next h
          rcases Piece.next_of_unmatched h with ⟨rfl, taken⟩ | ⟨notQuote, taken⟩
          · rw [taken]
            simpa [Piece.segment, Piece.pattern?, Piece.text] using Munch.openString unmatched
          · rw [taken] at ih ⊢
            exact .stray unmatched notQuote ih

/-- Where nothing matches, the first piece has no pattern. -/
theorem pattern?_of_unmatched {c : Char} {rest : Text} (h : Unmatched (c :: rest)) :
    (Piece.next c rest).1.pattern? = none := by
  refine Option.eq_none_iff_forall_not_mem.mpr ?_
  intro p hp
  exact h p _ ((Piece.fits_next c rest).text_mem hp) ⟨_, Piece.text_append_next c rest⟩

theorem ne_nil_of_mem {p : Pattern} {w : Text} (h : w ∈ p.language) : w ≠ [] := by
  rintro rfl
  cases p with
  | operator =>
      obtain ⟨o, spelled⟩ := h
      exact o.spelling_ne_nil spelled.symm
  | word =>
      obtain ⟨start, _⟩ := mem_word_iff.mp h
      cases start
  | number =>
      rcases mem_number_iff.mp h with ⟨nonempty, _⟩ | ⟨whole, fraction, split, _⟩
      · exact nonempty rfl
      · simp at split
  | string =>
      obtain ⟨body, split, _⟩ := mem_string_iff.mp h
      cases split
  | comment =>
      obtain ⟨body, split, _⟩ := mem_comment_iff.mp h
      cases split
  | blank =>
      obtain ⟨c, split, _⟩ := mem_blank_iff.mp h
      cases split

/-- The longest match is the first piece. -/
theorem next_of_longest {c : Char} {rest w after : Text} {p : Pattern}
    (whole : w ++ after = c :: rest) (best : Longest (c :: rest) p w) :
    (Piece.next c rest).1.segment = ⟨some p, w⟩ ∧ (Piece.next c rest).2 = after := by
  have cutAgain := Piece.text_append_next c rest
  obtain ⟨member, start, longest⟩ := best
  have covers := Piece.covers_of_mem member start
  have isSome : ∃ q, (Piece.next c rest).1.pattern? = some q := by
    rcases covers with ⟨h, _⟩ | ⟨h, _⟩
    · exact ⟨p, h⟩
    · exact Option.isSome_iff_exists.mp h
  obtain ⟨q, hq⟩ := isSome
  have le := longest q _ ((Piece.fits_next c rest).text_mem hq) ⟨_, cutAgain⟩
  rcases covers with ⟨h, ge⟩ | ⟨_, gt⟩
  · obtain ⟨same, sameAfter⟩ := List.append_inj (cutAgain.trans whole.symm) (Nat.le_antisymm le ge)
    exact ⟨by rw [Piece.segment, h, same], sameAfter⟩
  · omega

/-- There is no other way to munch a text than to cut it into its pieces. -/
theorem Grammar.Munch.eq_cut {source : Text} {segments : List Segment} (h : Munch source segments) :
    segments = (cut source).map Piece.segment := by
  induction h with
  | done => rw [cut_nil, List.map_nil]
  | @longest p w rest segments best more ih =>
      obtain ⟨c, t, whole⟩ := List.exists_cons_of_ne_nil
        (List.append_ne_nil_of_left_ne_nil (ne_nil_of_mem best.1) rest)
      obtain ⟨first, after⟩ := next_of_longest whole (whole ▸ best)
      rw [whole, cut_cons, List.map_cons, first, after, ih]
  | @openString rest unmatched =>
      rcases Piece.next_of_unmatched (pattern?_of_unmatched unmatched) with ⟨_, taken⟩ | ⟨other, _⟩
      · rw [cut_cons, taken, cut_nil]
        rfl
      · exact absurd rfl other
  | @stray c rest segments unmatched notQuote more ih =>
      rcases Piece.next_of_unmatched (pattern?_of_unmatched unmatched) with ⟨quote, _⟩ | ⟨_, taken⟩
      · exact absurd quote notQuote
      · rw [cut_cons, taken, List.map_cons, ih]
        rfl

theorem Piece.content_segment {piece : Piece} {after : Text} (fits : piece.Fits after)
    (p : Position) :
    piece.segment.content = (piece.token? p).map Token.content := by
  cases piece with
  | operator o => cases o <;> rfl
  | word w =>
      simp only [segment, pattern?, text, Segment.content, token?, reading, Kind.ofWord,
        Keyword.ofSpelling?]
      cases List.find? (fun k => Keyword.spelling k == w) Keyword.all with
      | none => rfl
      | some k => rfl
  | number n =>
      simp [segment, pattern?, text, Segment.content, token?, reading, Token.content,
        n.ofText?_text fits]
  | string body => simp [segment, pattern?, text, Segment.content, token?, reading, Token.content]
  | _ => rfl

theorem map_content_tokensFrom (p : Position) {pieces : List Piece} (fitting : Fitting pieces) :
    (tokensFrom p pieces).map Token.content =
      (pieces.map Piece.segment).filterMap Segment.content := by
  induction pieces generalizing p with
  | nil => rfl
  | cons piece pieces ih =>
      obtain ⟨fits, fitting⟩ := fitting
      rw [tokensFrom_cons, List.map_append, ih _ fitting, List.map_cons]
      have content := piece.content_segment fits p
      cases found : piece.token? p with
      | none =>
          rw [found] at content
          simp [content]
      | some t =>
          rw [found] at content
          simp [content]

/-- A text is munched in exactly one way, and whoever observes the scan of it, its tokens are the
segments that are tokens, and the end. -/
theorem tokens_are_munched (source : Text) :
    ∃ segments, Munch source segments ∧ (∀ others, Munch source others → others = segments) ∧
      ∀ (σ : Type) (o : Observer σ) (s : σ),
        (scanObserved o source s).1.map Token.content =
          segments.filterMap Segment.content ++ [(.eof, [], none)] := by
  refine ⟨(cut source).map Piece.segment, munch_cut source, fun _ h => h.eq_cut, ?_⟩
  intro σ o s
  rw [scanObserved_eq, tokensOf, List.map_append,
    map_content_tokensFrom _ (fitting_cut source)]
  rfl

end LoxLexer

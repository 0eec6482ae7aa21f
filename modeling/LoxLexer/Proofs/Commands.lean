import LoxLexer.Proofs.Entries
import LoxLexer.Proofs.Fit
import Mathlib.Data.List.DropRight

/-!
# The form of a command

A line is a command exactly if it has the form of one: a point behind blanks, a name in any case,
and behind it nothing but blanks or, after a blank, an argument (`parse?_eq_some_iff`). A command is
carried out, and any other line is scanned unless it is blank.

Names are compared in small letters. How the letters beyond ASCII are made small does not matter, as
long as no text with one of them becomes an ASCII text without a `k`.
-/

namespace LoxLexer

namespace Text

/-- A text that neither begins nor ends with a blank. -/
structure Trimmed (t : Text) : Prop where
  nonempty : t ≠ []
  first : beginsWith isBlank t = false
  last : beginsWith isBlank t.reverse = false

/-- A text ends as the last text in it does. -/
theorem beginsWith_reverse_append {p : Char → Bool} (s : Text) {t : Text} (nonempty : t ≠ []) :
    beginsWith p (s ++ t).reverse = beginsWith p t.reverse := by
  have behind : t.reverse ≠ [] := mt List.reverse_eq_nil_iff.mp nonempty
  rw [List.reverse_append, beginsWith, List.head?_append_of_ne_nil _ behind]
  rfl

theorem allBlank_iff {t : Text} : allBlank t ↔ ∀ c ∈ t, isBlank c := List.all_eq_true

theorem allBlank_append {s t : Text} (hs : allBlank s) (ht : allBlank t) : allBlank (s ++ t) := by
  rw [allBlank_iff] at hs ht ⊢
  exact List.forall_mem_append.mpr ⟨hs, ht⟩

/-- Around what trimming leaves stand blanks. -/
theorem exists_trim (t : Text) :
    ∃ before after, t = before ++ trim t ++ after ∧ allBlank before ∧ allBlank after := by
  have start : t.takeWhile isBlank ++ trimStart t = t := List.takeWhile_append_dropWhile
  have behind : trim t ++ (trimStart t).rtakeWhile isBlank = trimStart t :=
    List.rdropWhile_append_rtakeWhile
  refine ⟨t.takeWhile isBlank, (trimStart t).rtakeWhile isBlank, ?_, ?_, ?_⟩
  · rw [List.append_assoc, behind, start]
  · exact allBlank_iff.mpr fun c => of_mem_takeWhile
  · exact allBlank_iff.mpr fun c => List.mem_rtakeWhile_imp

theorem trimmed_trim {t : Text} (nonempty : trim t ≠ []) : Trimmed (trim t) where
  nonempty := nonempty
  first := by
    have start : beginsWith isBlank (trimStart t) = false := beginsWith_dropWhile t
    have behind : trim t ++ (trimStart t).rtakeWhile isBlank = trimStart t :=
      List.rdropWhile_append_rtakeWhile
    obtain ⟨c, rest, same⟩ := List.exists_cons_of_ne_nil nonempty
    rw [← behind, same] at start
    rw [same]
    exact start
  last := by
    rw [trim, trimEnd, List.reverse_reverse]
    exact beginsWith_dropWhile _

/-- Trimming takes away blanks at both ends, and nothing of a trimmed text. -/
theorem trim_of_trimmed {before t after : Text} (blankBefore : allBlank before)
    (trimmed : Trimmed t) (blankAfter : allBlank after) : trim (before ++ t ++ after) = t := by
  obtain ⟨c, rest, rfl⟩ := List.exists_cons_of_ne_nil trimmed.nonempty
  have start : trimStart (before ++ (c :: rest) ++ after) = c :: rest ++ after := by
    rw [List.append_assoc]
    exact dropWhile_run (allBlank_iff.mp blankBefore) trimmed.first
  have behind : ∀ d ∈ after.reverse, isBlank d := by
    intro d member
    exact allBlank_iff.mp blankAfter d (List.mem_reverse.mp member)
  rw [trim, start, trimEnd, List.reverse_append, dropWhile_run behind trimmed.last,
    List.reverse_reverse]

end Text

/-! Names in any case. -/

namespace CommandName

/-- Making letters small: known for texts of ASCII characters alone; of any other text something
beyond ASCII remains, or a `k`, the small form of the Kelvin sign. -/
structure Lowercasing (lower : Text → Text) : Prop where
  ascii : ∀ t : Text, (∀ c ∈ t, c.toNat < 128) → lower t = t.map Char.toLower
  beyond : ∀ t : Text, (∃ c ∈ t, 128 ≤ c.toNat) → ∃ c ∈ lower t, 128 ≤ c.toNat ∨ c = 'k'

theorem toLower_of_not_capital {c : Char} (h : c.toNat < 'A'.toNat ∨ 'Z'.toNat < c.toNat) :
    c.toLower = c := by
  apply dif_neg
  rintro ⟨first, last⟩
  rw [ge_iff_le, UInt32.le_iff_toNat_le] at first
  rw [UInt32.le_iff_toNat_le] at last
  change 'A'.toNat ≤ c.toNat at first
  change c.toNat ≤ 'Z'.toNat at last
  omega

theorem toLower_of_beyond {c : Char} (beyond : 128 ≤ c.toNat) : c.toLower = c := by
  apply toLower_of_not_capital
  right
  exact Nat.lt_of_lt_of_le (by decide) beyond

theorem toLower_of_isBlank {c : Char} (blank : isBlank c) : c.toLower = c := by
  apply toLower_of_not_capital
  simp [isBlank] at blank
  change c.toNat < 65 ∨ 90 < c.toNat
  omega

theorem lowercase_of_ascii {c : Char} (ascii : c.toNat < 128) : lowercase c = [c.toLower] := by
  have notKelvin : c ≠ '\u212a' := by
    rintro rfl
    exact absurd ascii (by decide)
  have notDotted : c ≠ '\u0130' := by
    rintro rfl
    exact absurd ascii (by decide)
  rw [lowercase, if_neg notKelvin, if_neg notDotted]

theorem lowercasing_map : Lowercasing (List.map Char.toLower) where
  ascii _ _ := rfl
  beyond := by
    rintro t ⟨c, member, beyond⟩
    exact ⟨c, List.mem_map.mpr ⟨c, member, toLower_of_beyond beyond⟩, Or.inl beyond⟩

theorem lowercasing_lowercase : Lowercasing (List.flatMap lowercase) where
  ascii := by
    intro t ascii
    induction t with
    | nil => rfl
    | cons c t ih =>
        obtain ⟨first, others⟩ := List.forall_mem_cons.mp ascii
        rw [List.flatMap_cons, lowercase_of_ascii first, ih others]
        rfl
  beyond := by
    rintro t ⟨c, member, beyond⟩
    have kept : ∃ d ∈ lowercase c, 128 ≤ d.toNat ∨ d = 'k' := by
      rw [lowercase]
      split
      case isTrue => exact ⟨'k', List.mem_singleton_self _, Or.inr rfl⟩
      case isFalse =>
        split
        case isTrue => exact ⟨'\u0307', by decide, Or.inl (by decide)⟩
        case isFalse =>
          rw [toLower_of_beyond beyond]
          exact ⟨c, List.mem_singleton_self c, Or.inl beyond⟩
    obtain ⟨d, small, remains⟩ := kept
    exact ⟨d, List.mem_flatMap.mpr ⟨c, member, small⟩, remains⟩

/-- Names of commands are written in ASCII, without blanks and without a `k`. -/
theorem alias_plain {n : CommandName} {word : Text} (h : word ∈ n.aliases) :
    ∀ c ∈ word, c.toNat < 128 ∧ c ≠ 'k' ∧ isBlank c = false := by
  have plain : (n.aliases.all fun word =>
      word.all fun c => decide (c.toNat < 128) && c != 'k' && !isBlank c) = true := by
    cases n <;> rfl
  intro c member
  have letters := List.all_eq_true.mp (List.all_eq_true.mp plain word h) c member
  simpa [and_assoc] using letters

theorem ofAlias?_eq_some_iff {word : Text} {n : CommandName} :
    ofAlias? word = some n ↔ word ∈ n.aliases := by
  constructor
  · intro found
    simpa using List.find?_some found
  · intro h
    have known : (n.aliases.all fun word => ofAlias? word = some n) = true := by
      cases n <;> rfl
    simpa using List.all_eq_true.mp known word h

/-- Whichever way names are made small, the same ones stand for a command. -/
theorem ofAlias?_lowercasing {lower : Text → Text} (lowercasing : Lowercasing lower) {name : Text}
    {n : CommandName} : ofAlias? (lower name) = some n ↔ name.map Char.toLower ∈ n.aliases := by
  rw [ofAlias?_eq_some_iff]
  by_cases ascii : ∀ c ∈ name, c.toNat < 128
  · rw [lowercasing.ascii name ascii]
  · have beyond : ∃ c ∈ name, 128 ≤ c.toNat := by simpa using ascii
    have noAlias : ∀ small : Text → Text, Lowercasing small → small name ∉ n.aliases := by
      intro small lowercasing isAlias
      obtain ⟨c, member, remains⟩ := lowercasing.beyond name beyond
      obtain ⟨inAscii, notK, _⟩ := alias_plain isAlias c member
      rcases remains with high | isK
      · omega
      · exact notK isK
    exact iff_of_false (noAlias lower lowercasing) (noAlias _ lowercasing_map)

end CommandName

/-! The whole line. -/

namespace Command

/-- What may stand behind the name of a command, and the argument in it. -/
inductive Behind : Text → Option Text → Prop
  | nothing {blanks : Text} (blank : Text.allBlank blanks) : Behind blanks none
  | argument {before argument after : Text} (apart : before ≠ [])
      (blankBefore : Text.allBlank before) (trimmed : Text.Trimmed argument)
      (blankAfter : Text.allBlank after) : Behind (before ++ argument ++ after) (some argument)

/-- The form of a command. -/
inductive Written : Text → Command → Prop
  | command {blanks name behind : Text} {n : CommandName} {argument : Option Text}
      (blank : Text.allBlank blanks) (named : name.map Char.toLower ∈ n.aliases)
      (rest : Behind behind argument) : Written (blanks ++ '.' :: (name ++ behind)) ⟨n, argument⟩

/-- A name holds no blank, in whatever case it is written. -/
theorem not_isBlank_of_name {name : Text} {n : CommandName}
    (named : name.map Char.toLower ∈ n.aliases) : ∀ c ∈ name, (!isBlank c) = true := by
  intro c member
  have small : c.toLower ∈ name.map Char.toLower := List.mem_map_of_mem member
  obtain ⟨_, _, notBlank⟩ := CommandName.alias_plain named _ small
  by_contra blank
  have isBlank : isBlank c := by simpa using blank
  rw [CommandName.toLower_of_isBlank isBlank] at notBlank
  exact absurd isBlank (by rw [notBlank]; decide)

theorem not_endsBlank_of_name {name : Text} {n : CommandName}
    (named : name.map Char.toLower ∈ n.aliases) : beginsWith isBlank name.reverse = false := by
  cases back : name.reverse with
  | nil => rfl
  | cons c others =>
      have member : c ∈ name := List.mem_reverse.mp (back ▸ List.mem_cons_self)
      simpa using not_isBlank_of_name named c member

/-- The argument that is read of what stands behind a name. -/
def argumentOf? (behind : Text) : Option Text :=
  if Text.trim behind = [] then none else some (Text.trim behind)

/-- What is read of a line that is trimmed to a point and a text with a name in front. -/
theorem parse?_of_trim {line name behind : Text}
    (trimmed : Text.trim line = '.' :: (name ++ behind)) (inside : ∀ c ∈ name, (!isBlank c) = true)
    (stop : beginsWith (fun c => !isBlank c) behind = false) :
    parse? line = (CommandName.ofAlias? (name.flatMap lowercase)).map fun n =>
      ⟨n, argumentOf? behind⟩ := by
  rw [parse?, trimmed]
  simp only [takeWhile_run inside stop, dropWhile_run inside stop, argumentOf?]

/-- What is left behind the name, up to its first blank, is blank or holds an argument. -/
theorem behind_argumentOf? {behind after : Text}
    (stop : beginsWith (fun c => !isBlank c) behind = false) (blankAfter : Text.allBlank after) :
    Behind (behind ++ after) (argumentOf? behind) := by
  rw [argumentOf?]
  by_cases nothing : Text.trim behind = []
  · rw [if_pos nothing]
    exact .nothing (Text.allBlank_append (Text.trim_eq_nil_iff.mp nothing) blankAfter)
  · rw [if_neg nothing]
    obtain ⟨first, last, split, blankFirst, blankLast⟩ := Text.exists_trim behind
    have argument := Text.trimmed_trim nothing
    have apart : first ≠ [] := by
      -- the name would go on into the argument
      rintro rfl
      obtain ⟨c, more, same⟩ := List.exists_cons_of_ne_nil argument.nonempty
      have notBlank := argument.first
      rw [same] at notBlank split
      rw [split] at stop
      have isBlank : isBlank c := by simpa using stop
      cases isBlank.symm.trans notBlank
    have parts : behind ++ after = first ++ Text.trim behind ++ (last ++ after) := by
      rw [← List.append_assoc, ← split]
    rw [parts]
    exact .argument apart blankFirst argument (Text.allBlank_append blankLast blankAfter)

/-- But for blanks at the end, what stands behind a name begins with a blank and ends in none, and
its argument is read of it. -/
theorem Behind.exists_front {behind : Text} {argument : Option Text}
    (rest : Behind behind argument) :
    ∃ front after, behind = front ++ after ∧ Text.allBlank after ∧
      beginsWith (fun c => !isBlank c) front = false ∧ beginsWith isBlank front.reverse = false ∧
      argumentOf? front = argument := by
  cases rest with
  | nothing blank => exact ⟨[], behind, rfl, blank, rfl, rfl, rfl⟩
  | argument apart blankBefore trimmed blankAfter =>
      rename_i before argument after
      refine ⟨before ++ argument, after, rfl, blankAfter, ?_, ?_, ?_⟩
      · obtain ⟨b, more, rfl⟩ := List.exists_cons_of_ne_nil apart
        have blank : isBlank b := Text.allBlank_iff.mp blankBefore b List.mem_cons_self
        rw [List.cons_append, beginsWith_cons, blank]
        rfl
      · rw [Text.beginsWith_reverse_append before trimmed.nonempty]
        exact trimmed.last
      · have nothing : Text.allBlank [] := rfl
        have inside := Text.trim_of_trimmed blankBefore trimmed nothing
        rw [List.append_nil] at inside
        rw [argumentOf?, inside, if_neg trimmed.nonempty]

/-- A line that is read as a command begins, behind blanks, with the point; its name goes up to the
first blank, and behind that stand the argument and blanks. -/
theorem written_of_parse? {line : Text} {c : Command} (found : parse? line = some c) :
    Written line c := by
  obtain ⟨blanks, after, whole, blank, blankAfter⟩ := Text.exists_trim line
  rw [parse?] at found
  split at found
  case h_2 => cases found
  case h_1 rest trimmed =>
    obtain ⟨n, known, rfl⟩ := Option.map_eq_some_iff.mp found
    have named := (CommandName.ofAlias?_lowercasing CommandName.lowercasing_lowercase).mp known
    have behind := behind_argumentOf? (beginsWith_dropWhile rest) blankAfter
    have parts : (rest.takeWhile fun c => !isBlank c) ++ (rest.dropWhile fun c => !isBlank c) =
        rest :=
      List.takeWhile_append_dropWhile
    have written := Written.command blank named behind
    rw [← List.append_assoc _ _ after, parts] at written
    rw [whole, trimmed, List.append_assoc, List.cons_append]
    exact written

/-- A point never is a blank, so what is behind it stays up to its own last blanks. -/
theorem trim_behind_point {blanks front after : Text} (blank : Text.allBlank blanks)
    (atEnd : beginsWith isBlank front.reverse = false) (blankAfter : Text.allBlank after) :
    Text.trim (blanks ++ '.' :: (front ++ after)) = '.' :: front := by
  have trimmed : Text.Trimmed ('.' :: front) := by
    refine ⟨List.cons_ne_nil _ _, rfl, ?_⟩
    by_cases alone : front = []
    · rw [alone]
      rfl
    · rw [← List.singleton_append, Text.beginsWith_reverse_append ['.'] alone]
      exact atEnd
  have line := Text.trim_of_trimmed blank trimmed blankAfter
  rwa [List.append_assoc, List.cons_append] at line

theorem parse?_of_written {line : Text} {c : Command} (written : Written line c) :
    parse? line = some c := by
  obtain ⟨blank, named, rest⟩ := written
  rename_i blanks name behind n argument
  have inside := not_isBlank_of_name named
  have known := (CommandName.ofAlias?_lowercasing CommandName.lowercasing_lowercase).mpr named
  obtain ⟨front, after, rfl, blankAfter, stop, frontEnd, read⟩ := rest.exists_front
  have atEnd : beginsWith isBlank (name ++ front).reverse = false := by
    by_cases alone : front = []
    · rw [alone, List.append_nil]
      exact not_endsBlank_of_name named
    · rw [Text.beginsWith_reverse_append name alone]
      exact frontEnd
  have trimmed := trim_behind_point blank atEnd blankAfter
  rw [List.append_assoc] at trimmed
  rw [parse?_of_trim trimmed inside stop, known, read]
  rfl

theorem parse?_eq_some_iff {line : Text} {c : Command} : parse? line = some c ↔ Written line c :=
  ⟨written_of_parse?, parse?_of_written⟩

theorem parse?_eq_none_iff {line : Text} : parse? line = none ↔ ¬ ∃ c, Written line c := by
  rw [Option.eq_none_iff_forall_ne_some]
  simp [parse?_eq_some_iff]

theorem not_allBlank_of_written {line : Text} {c : Command} (written : Written line c) :
    ¬ Text.allBlank line := by
  obtain ⟨blank, named, rest⟩ := written
  intro all
  have point := Text.allBlank_iff.mp all '.' (List.mem_append_right _ List.mem_cons_self)
  exact absurd point (by decide)

end Command

/-- A line is read as a command exactly if it has the form of that command, and then it is carried
out. A line without such a form is read as none and scanned, unless there is nothing but blanks in
it. The names that count do not depend on how letters beyond ASCII are made small. -/
theorem commands_written (line : Text) :
    (∀ c, Command.parse? line = some c ↔ Command.Written line c) ∧
    (∀ (read : Reader) (c : Command), Command.Written line c →
      Session.respond read (.line line) = Session.perform read c) ∧
    ((¬ ∃ c, Command.Written line c) → Command.parse? line = none ∧
      ∀ read : Reader, Session.respond read (.line line) =
        if Text.allBlank line then .empty else listEntry line) ∧
    ∀ lower : Text → Text, CommandName.Lowercasing lower → ∀ name : Text,
      CommandName.ofAlias? (lower name) = CommandName.ofAlias? (name.flatMap lowercase) := by
  refine ⟨fun c => Command.parse?_eq_some_iff, ?_, ?_, ?_⟩
  · intro read c written
    have notBlank := Command.not_allBlank_of_written written
    rw [Session.respond, if_neg notBlank, Command.parse?_of_written written]
  · intro noForm
    have none := Command.parse?_eq_none_iff.mpr noForm
    refine ⟨none, fun read => ?_⟩
    rw [Session.respond, none]
  · intro lower lowercasing name
    apply Option.ext
    intro n
    rw [CommandName.ofAlias?_lowercasing lowercasing,
      CommandName.ofAlias?_lowercasing CommandName.lowercasing_lowercase]

/-- Capital letters in the name, blanks around it and inside the argument, and a number that begins
with a point. -/
theorem shouted_load_written :
    let load := " .LoaD\t a  B.lox ".toList
    let half := ".5 + 1".toList
    let command : Command := ⟨.load, some "a  B.lox".toList⟩
    let nothing : Reader := fun _ => .error .notFound
    (Command.Written load command ∧
      Session.respond nothing (.line load) = Session.perform nothing command) ∧
    ((¬ ∃ c, Command.Written half c) ∧ Session.respond nothing (.line half) = listEntry half) ∧
    CommandName.Lowercasing (List.map Char.toLower) ∧
      CommandName.ofAlias? ("EXIT".toList.map Char.toLower) =
        CommandName.ofAlias? ("EXIT".toList.flatMap lowercase) := by
  intro load half command nothing
  obtain ⟨reads, carriedOut, _, _⟩ := commands_written load
  obtain ⟨_, _, scanned, names⟩ := commands_written half
  have written : Command.Written load command := (reads command).mp (by decide +kernel)
  have noForm : ¬ ∃ c, Command.Written half c :=
    Command.parse?_eq_none_iff.mp (by decide +kernel)
  have lowercasing := CommandName.lowercasing_map
  refine ⟨⟨written, carriedOut nothing command written⟩, ⟨noForm, ?_⟩, lowercasing, ?_⟩
  · rw [(scanned noForm).2, if_neg (by decide)]
  · exact names _ lowercasing "EXIT".toList

/-- A blank line has no form of a command, but the session does not scan it. -/
theorem blank_line_not_scanned :
    let nothing : Reader := fun _ => .error .notFound
    (¬ ∃ c, Command.Written [' '] c) ∧ Command.parse? [' '] = none ∧
      Session.respond nothing (.line [' ']) ≠ listEntry [' '] := by
  intro nothing
  have none : Command.parse? [' '] = none := by decide +kernel
  refine ⟨Command.parse?_eq_none_iff.mp none, none, ?_⟩
  decide +kernel

end LoxLexer

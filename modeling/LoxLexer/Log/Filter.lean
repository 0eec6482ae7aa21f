import LoxLexer.Log.Event
import LoxLexer.Log.Pattern
import LoxLexer.Text.Alphanumeric
import LoxLexer.Text.Blank

/-!
# Log filters

A filter is a list of directives. A directive names a target, or none, and the level up to which
it lets events through. An event is decided by the most specific directive that applies to it:
longer targets come first, then directives with a field; a later directive replaces an equal one.

In text, directives stand between commas: a level, a target, or a target and a level with an
equals sign between them. After the target may stand the name of a span and a field in brackets.
Nothing here happens inside a span, so a directive that asks for a span or for the value of a
field lets no event through.
-/

namespace LoxLexer.Log

/-- The level up to which events pass; without one none does. -/
abbrev Threshold := Option Level

namespace Threshold

def allows (threshold : Threshold) (level : Level) : Bool :=
  match threshold with
  | none => false
  | some highest => level.verbosity ≤ highest.verbosity

def ofNumber? : Nat → Option Threshold
  | 0 => some none
  | 1 => some (some .error)
  | 2 => some (some .warn)
  | 3 => some (some .info)
  | 4 => some (some .debug)
  | 5 => some (some .trace)
  | _ => none

/-- A level by its number or by its name in letters of any case, or `off`. -/
def parse? (t : Text) : Option Threshold :=
  let digits := if t.head? = some '+' then t.tail else t
  if digits ≠ [] ∧ digits.all Char.isDigit then ofNumber? (natOfDigits digits)
  else
    let name := t.map Char.toUpper
    if name = "OFF".toList then some none
    else (([.error, .warn, .info, .debug, .trace] : List Level).find? fun level =>
      level.name == name).map some

end Threshold

structure Directive where
  target : Option Text
  field : Option Text
  threshold : Threshold
  /-- Applies outside spans. -/
  isStatic : Bool
  deriving DecidableEq

namespace Directive

/-- The level after an equals sign; nothing there means all levels. -/
def parseLevel? (t : Text) : Option Threshold :=
  if t = [] then some (some .trace) else Threshold.parse? t

/-- The text from a byte position on. -/
def textFrom? (whole : Text) (start : Nat) : Option Text :=
  (Text.splitAtByte? whole start).map Prod.snd

/-- After a bracketed part there is nothing more, or an equals sign and a level. -/
def parseAfterBrackets? (directive : Directive) (whole : Text) (start : Nat) :
    Text → Option Directive
  | [] => some directive
  | '=' :: _ => do
      let threshold ← parseLevel? (← textFrom? whole (start + 1))
      pure { directive with threshold }
  | _ => none

/-- A field is asked for by its name alone, or with a value that it has to have. -/
def parseField? (t : Text) : Option (Text × Bool) :=
  let name := t.takeWhile (· != '=')
  match t.dropWhile (· != '=') with
  | [] => some (name, false)
  | _ :: value => if isFieldValue (value.takeWhile (· != '=')) then some (name, true) else none

/-- The name of a span, and perhaps a field between braces. -/
def parseBrackets? (target : Option Text) (whole : Text) (start : Nat) (t : Text) :
    Option Directive :=
  let span := t.takeWhile fun c => c != ']' && c != '{'
  let stop := start + Text.byteLength span
  match t.dropWhile fun c => c != ']' && c != '{' with
  | ']' :: after => parseAfterBrackets? ⟨target, none, some .trace, false⟩ whole (stop + 1) after
  | '{' :: after =>
      let fieldStop := stop + 1 + Text.byteLength (after.takeWhile (· != '}'))
      match after.dropWhile (· != '}') with
      | '}' :: ']' :: after => do
          let field ← Text.slice? whole (stop + 1) fieldStop
          if field = [] then none
          else
            let (name, hasValue) ← parseField? field
            let isStatic := span = [] ∧ ¬ hasValue
            parseAfterBrackets? ⟨target, some name, some .trace, isStatic⟩ whole (fieldStop + 2)
              after
      | _ => none
  | _ => none

def canStart (c : Char) : Bool := c == '-' || c == ':' || c == '_' || isAlphanumeric c

/-- A level, or else a target with all its levels. -/
def ofWord (t : Text) : Directive :=
  match Threshold.parse? t with
  | some threshold => ⟨none, none, threshold, true⟩
  | none => ⟨some t, none, some .trace, true⟩

/-- Reads a directive. The signs in it are looked for as if the blanks at its ends were not there,
but its parts are taken from the whole text at the positions so found. So a blank in front makes a
level a part of a target's name. -/
def parse? (whole : Text) : Option Directive :=
  let t := Text.trim whole
  match t with
  | [] => none
  | '[' :: after => parseBrackets? none whole 1 after
  | c :: _ =>
      if canStart c then
        let stop := Text.byteLength (t.takeWhile fun c => c != '=' && c != '[')
        match t.dropWhile fun c => c != '=' && c != '[' with
        | [] => some (ofWord whole)
        | '=' :: _ => do
            let target ← Text.slice? whole 0 stop
            let threshold ← parseLevel? (← textFrom? whole (stop + 1))
            pure ⟨some target, none, threshold, true⟩
        | _ :: after => do
            let target ← Text.slice? whole 0 stop
            parseBrackets? (some target) whole (stop + 1) after
      else none

/-- The event comes from the target and has the field. -/
def applies (d : Directive) (e : Event) : Bool :=
  d.isStatic && (d.target.getD []).isPrefixOf e.target &&
    d.field.all fun name =>
      name == Event.messageField || e.fields.any fun field => field.1 == name

/-- Targets by their length, a missing one before all others; then the field. -/
def rank (d : Directive) : Nat × Nat :=
  (d.target.elim 0 fun target => target.length + 1, d.field.elim 0 fun _ => 1)

/-- Of two directives that apply to an event, the more specific one; with equal claims the greater
field name decides, and for the same one the second directive. -/
def preferred (first second : Directive) : Directive :=
  if second.rank.1 < first.rank.1 ∨
      (second.rank.1 = first.rank.1 ∧
        (second.rank.2 < first.rank.2 ∨
          (second.rank.2 = first.rank.2 ∧ second.field.getD [] < first.field.getD []))) then first
  else second

end Directive

abbrev Filter := List Directive

namespace Filter

def deciding? (filter : Filter) (e : Event) : Option Directive :=
  (filter.filter fun d => d.applies e).foldl
    (fun best d => some (best.elim d fun best => Directive.preferred best d)) none

def passes (filter : Filter) (e : Event) : Bool :=
  match filter.deciding? e with
  | none => false
  | some d => d.threshold.allows e.level

/-- Directives between commas; without any, only errors pass. One bad directive spoils the text. -/
def parse? (t : Text) : Option Filter :=
  match (t.splitOn ',').filter (· ≠ []) with
  | [] => some [⟨none, none, some .error, true⟩]
  | directives => directives.mapM Directive.parse?

/-- Warnings, and with `verbose` all but the finest events, of the program's own targets. -/
def standard (verbose : Bool) : Filter :=
  let level : Level := if verbose then .debug else .warn
  [⟨some "lox".toList, none, some level, true⟩,
    ⟨some "lox_lang".toList, none, some level, true⟩]

/-- The filter of a text, or the standard one when there is no text or it is bad. -/
def choose (given : Option Text) (verbose : Bool) : Filter :=
  (given.bind parse?).getD (standard verbose)

end Filter

end LoxLexer.Log

import LoxLexer.Piece
import LoxLexer.Token.Basic
import LoxLexer.Log.Event

/-!
# Scanning

A scan walks over the pieces of a source. Operators, words, numbers and strings become tokens,
faults go to an observer, and comments and layout only move the position. The walk knows nothing
of the observer's state: it hands over each diagnostic and each log event as it comes.
-/

namespace LoxLexer

/-- A byte offset and a line, counted from one. -/
structure Position where
  offset : Nat
  line : Nat
  deriving DecidableEq

namespace Position

def start : Position := ⟨0, 1⟩

/-- The position after some text. -/
def past (p : Position) (t : Text) : Position :=
  ⟨p.offset + Text.byteLength t, p.line + Text.newlines t⟩

@[simp] theorem past_nil (p : Position) : p.past [] = p := rfl

@[simp] theorem past_append (p : Position) (s t : Text) : p.past (s ++ t) = (p.past s).past t := by
  simp [past, Nat.add_assoc]

end Position

/-- What a piece is to the one who reads tokens. -/
inductive Reading where
  | token (kind : Kind) (literal : Option Literal)
  | skipped
  | fault (f : Fault)
  deriving DecidableEq

def Piece.reading : Piece → Reading
  | operator o => .token (.operator o) none
  | word text => .token (Kind.ofWord text) none
  | number numeral => .token .number (some (.number numeral.value))
  | string body => .token .string (some (.string body))
  | comment _ | layout _ => .skipped
  | unexpected c => .fault (.unexpectedCharacter c)
  | openString _ => .fault .unterminatedString

/-- Takes in diagnostics and log events, one at a time. -/
structure Observer (σ : Type) where
  report : σ → Diagnostic → σ
  log : σ → Log.Event → σ

/-- An observer of diagnostics alone. -/
def Observer.ofReport {σ : Type} (report : σ → Diagnostic → σ) : Observer σ :=
  ⟨report, fun s _ => s⟩

/-- A scan on its way: where it is, the tokens so far, how often it reported, and what was made of
the reports. -/
structure Progress (σ : Type) where
  position : Position
  tokens : Array Token
  reported : Nat
  observed : σ

namespace Progress

variable {σ : Type}

def start (s : σ) : Progress σ := ⟨Position.start, #[], 0, s⟩

/-- Tokens and diagnostics carry the line on which their piece ends. -/
def step (o : Observer σ) (p : Progress σ) (piece : Piece) : Progress σ :=
  let after := p.position.past piece.text
  match piece.reading with
  | .token kind literal =>
      let span : Span := ⟨p.position.offset, after.offset⟩
      let token : Token := ⟨kind, piece.text, literal, after.line, span⟩
      { p with position := after, tokens := p.tokens.push token }
  | .skipped => { p with position := after }
  | .fault f =>
      let d : Diagnostic := ⟨after.line, f.message⟩
      { p with
        position := after
        reported := p.reported + 1
        observed := o.report (o.log p.observed (.malformedInput d)) d }

/-- The token of the end, and a last word to the log. -/
def finish (o : Observer σ) (p : Progress σ) : List Token × σ :=
  let tokens := p.tokens.push (Token.eof p.position.line p.position.offset)
  (tokens.toList, o.log p.observed (.scanComplete tokens.size p.position.line p.reported))

end Progress

/-- Scans a source under an observer, whose state it returns beside the tokens. -/
def scanObserved {σ : Type} (o : Observer σ) (source : Text) (s : σ) : List Token × σ :=
  ((cut source).foldl (Progress.step o) (Progress.start s)).finish o

/-- Tokens and diagnostics of one source. -/
structure Scanned where
  tokens : List Token
  diagnostics : List Diagnostic
  deriving DecidableEq

namespace Scanned

def isFaulty (found : Scanned) : Bool := !found.diagnostics.isEmpty

def tokensEqual (a b : Scanned) : Bool := a.tokens.length == b.tokens.length &&
  (a.tokens.zip b.tokens).all fun (s, t) => s.equal t

/-- Equal in all parts, number values being compared as numbers. -/
def equal (a b : Scanned) : Bool := a.tokensEqual b && a.diagnostics == b.diagnostics

end Scanned

/-- Keeps diagnostics in order. -/
def Observer.gather : Observer (Array Diagnostic) := Observer.ofReport Array.push

/-- The tokens and the diagnostics of a source. -/
def scan (source : Text) : Scanned :=
  let (tokens, diagnostics) := scanObserved Observer.gather source #[]
  ⟨tokens, diagnostics.toList⟩

/-- The log of scanning a source, first event first. -/
def scanLog (source : Text) : List Log.Event :=
  (scanObserved ⟨fun events _ => events, Array.push⟩ source #[]).2.toList

end LoxLexer

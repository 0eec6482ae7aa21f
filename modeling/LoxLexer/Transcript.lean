import LoxLexer.Log.Event

/-!
# Transcripts

What a run writes to its two outputs and to the log. Transcripts of consecutive parts are put
together by appending.
-/

namespace LoxLexer

structure Transcript where
  stdout : Text
  stderr : Text
  log : List Log.Event
  deriving DecidableEq

namespace Transcript

def empty : Transcript := ⟨[], [], []⟩

def append (a b : Transcript) : Transcript :=
  ⟨a.stdout ++ b.stdout, a.stderr ++ b.stderr, a.log ++ b.log⟩

instance : Append Transcript := ⟨append⟩

def output (t : Text) : Transcript := ⟨t, [], []⟩

def errors (t : Text) : Transcript := ⟨[], t, []⟩

def logged (events : List Log.Event) : Transcript := ⟨[], [], events⟩

def join (parts : List Transcript) : Transcript := parts.foldr append empty

section Append
variable (a b : Transcript)

@[simp] theorem stdout_append : (a ++ b).stdout = a.stdout ++ b.stdout := rfl

@[simp] theorem stderr_append : (a ++ b).stderr = a.stderr ++ b.stderr := rfl

@[simp] theorem log_append : (a ++ b).log = a.log ++ b.log := rfl

end Append

section Parts
variable (t : Text) (events : List Log.Event)

@[simp] theorem stdout_output : (output t).stdout = t := rfl

@[simp] theorem stderr_output : (output t).stderr = [] := rfl

@[simp] theorem log_output : (output t).log = [] := rfl

@[simp] theorem stdout_errors : (errors t).stdout = [] := rfl

@[simp] theorem stderr_errors : (errors t).stderr = t := rfl

@[simp] theorem log_errors : (errors t).log = [] := rfl

@[simp] theorem stdout_logged : (logged events).stdout = [] := rfl

@[simp] theorem stderr_logged : (logged events).stderr = [] := rfl

@[simp] theorem log_logged : (logged events).log = events := rfl

end Parts

theorem stdout_join (parts : List Transcript) : (join parts).stdout = parts.flatMap stdout := by
  induction parts with
  | nil => rfl
  | cons part parts ih => exact congrArg (part.stdout ++ ·) ih

theorem stderr_join (parts : List Transcript) : (join parts).stderr = parts.flatMap stderr := by
  induction parts with
  | nil => rfl
  | cons part parts ih => exact congrArg (part.stderr ++ ·) ih

theorem log_join (parts : List Transcript) : (join parts).log = parts.flatMap log := by
  induction parts with
  | nil => rfl
  | cons part parts ih => exact congrArg (part.log ++ ·) ih

end Transcript

end LoxLexer

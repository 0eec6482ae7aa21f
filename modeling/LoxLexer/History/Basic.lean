import LoxLexer.Text.Blank

/-!
# History of entered lines

The history keeps what was entered, oldest first, except an empty line, a line that begins with a
blank and a line equal to the one before it. When it is full the oldest entry goes. It counts how
many of its entries are not known to be in a file.
-/

namespace LoxLexer

structure History where
  entries : List Text
  unsaved : Nat
  deriving DecidableEq

namespace History

def capacity : Nat := 1000

def empty : History := ⟨[], 0⟩

/-- Whether the line becomes an entry. -/
def keeps (h : History) (line : Text) : Bool :=
  match line with
  | [] => false
  | c :: _ => !isBlank c && h.entries.getLast? != some line

/-- The entries with one more at the end, within the capacity. -/
def push (entries : List Text) (line : Text) : List Text :=
  (if entries.length = capacity then entries.tail else entries) ++ [line]

def add (h : History) (line : Text) : History :=
  if h.keeps line then
    let entries := push h.entries line
    ⟨entries, min (h.unsaved + 1) entries.length⟩
  else h

def addAll (h : History) (lines : List Text) : History := lines.foldl add h

end History

end LoxLexer

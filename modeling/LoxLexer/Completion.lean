import LoxLexer.Command
import LoxLexer.Text.Alphanumeric
import LoxLexer.Token.Kind

/-!
# Completion and hints

The word before the cursor is completed to the keywords and commands that begin with it. Positions
are byte positions; there is no answer for one outside the line or inside a character.
-/

namespace LoxLexer

/-- Words of the line editor hold letters, numbers, underscores and points. -/
def isEditorWordChar (c : Char) : Bool := isAlphanumeric c || c == '_' || c == '.'

/-- Keywords first, then commands. -/
def knownWords : List Text :=
  Keyword.all.map Keyword.spelling ++ CommandName.all.map CommandName.word

/-- The longest run of word characters at the end of the text. -/
def lastWord (t : Text) : Text := (t.reverse.takeWhile isEditorWordChar).reverse

/-- Where the word that ends at `pos` starts. -/
def lastWordStart? (line : Text) (pos : Nat) : Option Nat := do
  let (before, _) ← Text.splitAtByte? line pos
  pure (Text.byteLength before - Text.byteLength (lastWord before))

/-- A known word, and what of it is still to be inserted at the cursor. -/
structure Offer where
  word : Text
  remainder : Text
  deriving DecidableEq

/-- The known words that begin with `word`, unless that is empty. -/
def offersFor (word : Text) : List Offer :=
  if word = [] then []
  else (knownWords.filter fun known => word.isPrefixOf known).map fun known =>
    ⟨known, known.drop word.length⟩

/-- What may be inserted at `pos`. -/
def complete? (line : Text) (pos : Nat) : Option (List Offer) := do
  let (before, _) ← Text.splitAtByte? line pos
  pure (offersFor (lastWord before))

/-- The rest of the first known word that is longer than a word of at least two bytes. -/
def suggestionFor (word : Text) : Option Text :=
  if Text.byteLength word < 2 then none
  else (knownWords.find? fun known =>
      word.isPrefixOf known && Text.byteLength word < Text.byteLength known).map
    fun known => known.drop word.length

/-- The suggestion at `pos`. Before the end of the line there is none, even inside a character. -/
def suggest? (line : Text) (pos : Nat) : Option (Option Text) :=
  if pos < Text.byteLength line then some none
  else if pos = Text.byteLength line then some (suggestionFor (lastWord line))
  else none

end LoxLexer

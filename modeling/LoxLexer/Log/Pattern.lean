import LoxLexer.Number.Decimal

/-!
# Values that fields are asked for

A field may be asked for by a value: a truth value, a number, or else a pattern. Of patterns only
the form matters here: groups and sets are closed, something stands before each repetition, and a
backslash stands before a character that may be escaped.
-/

namespace LoxLexer.Log

/-- Digits with a point among them or not, and an exponent or not. -/
def isDecimalText (t : Text) : Bool :=
  let mantissa := t.takeWhile fun c => c != 'e' && c != 'E'
  let digits := mantissa.filter (· != '.')
  let exponentIsNumber := match t.dropWhile fun c => c != 'e' && c != 'E' with
    | [] => true
    | _ :: '+' :: power | _ :: '-' :: power | _ :: power => power ≠ [] && power.all Char.isDigit
  digits ≠ [] && digits.all Char.isDigit && mantissa.count '.' ≤ 1 && exponentIsNumber

/-- A number, perhaps with a sign; so are the names of infinity and of what is not a number. -/
def isNumberText (t : Text) : Bool :=
  let magnitude := match t with
    | '+' :: rest | '-' :: rest => rest
    | t => t
  let name := magnitude.map Char.toLower
  name = "inf".toList || name = "infinity".toList || name = "nan".toList ||
    isDecimalText magnitude

namespace Pattern

/-- Characters that keep their own meaning after a backslash. -/
def isPunctuation (c : Char) : Bool :=
  c.toNat < 0x80 && !c.isAlphanum && c != '<' && c != '>'

/-- Letters that get a meaning from a backslash: control characters, classes, both ends. -/
def isEscapeLetter (c : Char) : Bool := "aftnrvAzdDsSwW".toList.contains c

def isHexDigit (c : Char) : Bool :=
  c.isDigit || ('a' ≤ c && c ≤ 'f') || ('A' ≤ c && c ≤ 'F')

/-- What follows an escape; a letter may call for the digits of a code point. -/
def afterEscape? : Text → Option Text
  | [] => none
  | c :: rest =>
      let digits := if c = 'x' then 2 else if c = 'u' then 4 else if c = 'U' then 8 else 0
      if 0 < digits then
        if digits ≤ rest.length ∧ (rest.take digits).all isHexDigit then some (rest.drop digits)
        else none
      else if isPunctuation c || isEscapeLetter c then some rest
      else none

/-- Past a question mark in a group: flags or a name, and whether the group has a body. -/
def afterGroupHead? (t : Text) : Option (Bool × Text) :=
  let named? (t : Text) : Option (Bool × Text) :=
    match t.takeWhile (· != '>'), t.dropWhile (· != '>') with
    | c :: name, _ :: rest =>
        if (c.isAlpha || c == '_') && name.all fun c => c.isAlphanum || c == '_' then
          some (true, rest)
        else none
    | _, _ => none
  match t with
  | 'P' :: '<' :: rest => named? rest
  | '<' :: rest => named? rest
  | t =>
      match t.dropWhile fun c => "imsRUux-".toList.contains c with
      | ':' :: rest => some (true, rest)
      | ')' :: rest => if t.head? = some ')' then none else some (false, rest)
      | _ => none

/-- A set after its opening bracket, up to the bracket that closes it: sets may be nested, and a
closing bracket that comes first stands for itself. -/
def afterSet? : Nat → Nat → Bool → Text → Option Text
  | 0, _, _, _ => none
  | _, _, _, [] => none
  | fuel + 1, depth, first, c :: rest =>
      if c = '\\' then (afterEscape? rest).bind (afterSet? fuel depth false)
      else if c = '[' then
        afterSet? fuel (depth + 1) true (if rest.head? = some '^' then rest.tail else rest)
      else if c = ']' ∧ ¬ first then
        if depth = 0 then some rest else afterSet? fuel (depth - 1) false rest
      else afterSet? fuel depth (first && c == '-') rest

/-- `groups` are open, and `repeatable` says whether a repetition may follow. -/
def wellFormedFrom : Nat → Nat → Bool → Text → Bool
  | 0, _, _, _ => false
  | _, groups, _, [] => groups = 0
  | fuel + 1, groups, repeatable, c :: rest =>
      if c = '\\' then (afterEscape? rest).any (wellFormedFrom fuel groups true)
      else if c = '[' then
        (afterSet? (rest.length + 1) 0 true (if rest.head? = some '^' then rest.tail else rest)).any
          (wellFormedFrom fuel groups true)
      else if c = '(' then
        match rest with
        | '?' :: rest => (afterGroupHead? rest).any fun (hasBody, rest) =>
            wellFormedFrom fuel (if hasBody then groups + 1 else groups) false rest
        | rest => wellFormedFrom fuel (groups + 1) false rest
      else if c = ')' then 0 < groups && wellFormedFrom fuel (groups - 1) true rest
      else if c = '|' then wellFormedFrom fuel groups false rest
      else if c = '*' ∨ c = '+' ∨ c = '?' then repeatable && wellFormedFrom fuel groups true rest
      else if c = '{' then false
      else wellFormedFrom fuel groups true rest

/-- The text is a pattern; a count of repetitions would need a closing brace, which it cannot have.
-/
def isWellFormed (t : Text) : Bool := wellFormedFrom (t.length + 1) 0 false t

end Pattern

/-- The text is a value that a field may be asked for. -/
def isFieldValue (t : Text) : Bool := isNumberText t || Pattern.isWellFormed t

end LoxLexer.Log

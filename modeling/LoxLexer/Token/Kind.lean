import LoxLexer.Text.Basic

/-!
# Kinds of tokens

A token is an operator, a word, a string, a number or the end of the text. Operators and keywords
are known by their spelling; no two of them share one.
-/

namespace LoxLexer

inductive Operator where
  | leftParen | rightParen | leftBrace | rightBrace
  | comma | dot | semicolon
  | minus | plus | slash | star
  | bang | bangEqual | equal | equalEqual
  | greater | greaterEqual | less | lessEqual
  deriving DecidableEq

namespace Operator

def all : List Operator :=
  [.leftParen, .rightParen, .leftBrace, .rightBrace, .comma, .dot, .semicolon, .minus, .plus,
    .slash, .star, .bang, .bangEqual, .equal, .equalEqual, .greater, .greaterEqual, .less,
    .lessEqual]

def spelling : Operator → Text
  | leftParen => ['('] | rightParen => [')'] | leftBrace => ['{'] | rightBrace => ['}']
  | comma => [','] | dot => ['.'] | semicolon => [';']
  | minus => ['-'] | plus => ['+'] | slash => ['/'] | star => ['*']
  | bang => ['!'] | bangEqual => ['!', '='] | equal => ['='] | equalEqual => ['=', '=']
  | greater => ['>'] | greaterEqual => ['>', '='] | less => ['<'] | lessEqual => ['<', '=']

def name : Operator → Text
  | leftParen => "LeftParen".toList | rightParen => "RightParen".toList
  | leftBrace => "LeftBrace".toList | rightBrace => "RightBrace".toList
  | comma => "Comma".toList | dot => "Dot".toList | semicolon => "Semicolon".toList
  | minus => "Minus".toList | plus => "Plus".toList
  | slash => "Slash".toList | star => "Star".toList
  | bang => "Bang".toList | bangEqual => "BangEqual".toList
  | equal => "Equal".toList | equalEqual => "EqualEqual".toList
  | greater => "Greater".toList | greaterEqual => "GreaterEqual".toList
  | less => "Less".toList | lessEqual => "LessEqual".toList

theorem mem_all (o : Operator) : o ∈ all := by cases o <;> decide

end Operator

inductive Keyword where
  | andWord | classWord | elseWord | falseWord | forWord | funWord | ifWord | nilWord
  | orWord | printWord | returnWord | superWord | thisWord | trueWord | varWord | whileWord
  deriving DecidableEq

namespace Keyword

/-- In the order of their spellings. -/
def all : List Keyword :=
  [.andWord, .classWord, .elseWord, .falseWord, .forWord, .funWord, .ifWord, .nilWord,
    .orWord, .printWord, .returnWord, .superWord, .thisWord, .trueWord, .varWord, .whileWord]

def spelling : Keyword → Text
  | andWord => "and".toList | classWord => "class".toList | elseWord => "else".toList
  | falseWord => "false".toList | forWord => "for".toList | funWord => "fun".toList
  | ifWord => "if".toList | nilWord => "nil".toList | orWord => "or".toList
  | printWord => "print".toList | returnWord => "return".toList | superWord => "super".toList
  | thisWord => "this".toList | trueWord => "true".toList | varWord => "var".toList
  | whileWord => "while".toList

def name : Keyword → Text
  | andWord => "And".toList | classWord => "Class".toList | elseWord => "Else".toList
  | falseWord => "False".toList | forWord => "For".toList | funWord => "Fun".toList
  | ifWord => "If".toList | nilWord => "Nil".toList | orWord => "Or".toList
  | printWord => "Print".toList | returnWord => "Return".toList | superWord => "Super".toList
  | thisWord => "This".toList | trueWord => "True".toList | varWord => "Var".toList
  | whileWord => "While".toList

/-- The keyword with exactly this spelling. -/
def ofSpelling? (t : Text) : Option Keyword := all.find? fun k => k.spelling == t

theorem mem_all (k : Keyword) : k ∈ all := by cases k <;> decide

theorem ofSpelling?_spelling (k : Keyword) : ofSpelling? k.spelling = some k := by
  cases k <;> decide

theorem ofSpelling?_eq_some_iff {t : Text} {k : Keyword} :
    ofSpelling? t = some k ↔ k.spelling = t := by
  constructor
  · intro h
    have := List.find?_some h
    simpa using this
  · rintro rfl
    exact ofSpelling?_spelling k

end Keyword

inductive Kind where
  | operator (o : Operator)
  | identifier
  | string
  | number
  | keyword (k : Keyword)
  | eof
  deriving DecidableEq

namespace Kind

def all : List Kind :=
  Operator.all.map operator ++ [identifier, string, number] ++ Keyword.all.map keyword ++ [eof]

def name : Kind → Text
  | operator o => o.name
  | identifier => "Identifier".toList
  | string => "String".toList
  | number => "Number".toList
  | keyword k => k.name
  | eof => "Eof".toList

def ofName? (t : Text) : Option Kind := all.find? fun k => k.name == t

def isKeyword : Kind → Bool
  | keyword _ => true
  | _ => false

/-- Tokens of this kind carry a value. -/
def isLiteral : Kind → Bool
  | string | number => true
  | _ => false

/-- A keyword where the word spells one, else an identifier. -/
def ofWord (t : Text) : Kind :=
  match Keyword.ofSpelling? t with
  | some k => keyword k
  | none => identifier

theorem ofName?_name (k : Kind) : ofName? k.name = some k := by
  cases k with
  | operator o => cases o <;> decide
  | keyword k => cases k <;> decide
  | _ => decide

end Kind

end LoxLexer

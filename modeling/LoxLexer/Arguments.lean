import LoxLexer.Text.Basic

/-!
# Command line arguments

At most one script, an option that takes source text, and a switch for more logging. Arguments are
read one after the other, and the first wrong one ends the reading; so does a request for help or
for the version. Only when all is read do a script and a source text exclude each other.
-/

namespace LoxLexer

/-- What the arguments ask for. -/
structure Request where
  script : Option Text
  eval : Option Text
  verbose : Bool
  deriving DecidableEq

inductive Parsed where
  | request (r : Request)
  | help
  | version
  | usageError
  deriving DecidableEq

namespace Arguments

/-- Once a script is known there is no place for another, and an empty one is none. -/
def takeScript (r : Request) (word : Text) : Option Request :=
  if r.script.isNone ∧ word ≠ [] then some { r with script := some word } else none

def takeEval (r : Request) (source : Text) : Option Request :=
  if r.eval.isNone then some { r with eval := some source } else none

def takeVerbose (r : Request) : Option Request :=
  if r.verbose then none else some { r with verbose := true }

/-- The reading goes on with a request, stops with an answer, or waits for the value of an option.
-/
inductive Next where
  | goOn (r : Request)
  | needsValue
  | stop (p : Parsed)

def Next.ofOption : Option Request → Next
  | some r => .goOn r
  | none => .stop .usageError

/-- An argument with two dashes: a name, and perhaps a value after an equals sign. -/
def takeLong (r : Request) (body : Text) : Next :=
  let name := body.takeWhile (· != '=')
  match body.dropWhile (· != '=') with
  | [] =>
      if name = "eval".toList then .needsValue
      else if name = "verbose".toList then .ofOption (takeVerbose r)
      else if name = "help".toList then .stop .help
      else if name = "version".toList then .stop .version
      else .stop .usageError
  | _ :: value =>
      if name = "eval".toList then .ofOption (takeEval r value) else .stop .usageError

/-- An argument with one dash: letters, of which only the first is ever reached. -/
def takeShort (r : Request) : Text → Next
  | 'e' :: [] => .needsValue
  | 'e' :: '=' :: value => .ofOption (takeEval r value)
  | 'e' :: value => .ofOption (takeEval r value)
  | 'h' :: _ => .stop .help
  | 'V' :: _ => .stop .version
  | _ => .stop .usageError

def take (r : Request) : Text → Next
  | '-' :: '-' :: body => takeLong r body
  | '-' :: c :: letters => takeShort r (c :: letters)
  | word => .ofOption (takeScript r word)

/-- A single dash is a word, and everything else that begins with a dash is not. -/
def isOption (argument : Text) : Bool :=
  match argument with
  | '-' :: _ :: _ => true
  | _ => false

/-- A script and a source text exclude each other. -/
def settle (r : Request) : Parsed :=
  if r.script.isSome ∧ r.eval.isSome then .usageError else .request r

/-- After two dashes every argument is a script. -/
def readScripts (r : Request) : List Text → Parsed
  | [] => settle r
  | word :: words =>
      match takeScript r word with
      | some r => readScripts r words
      | none => .usageError

def readFrom (r : Request) : List Text → Parsed
  | [] => settle r
  | argument :: rest =>
      if argument = "--".toList then readScripts r rest
      else
        match take r argument with
        | .goOn r => readFrom r rest
        | .stop p => p
        | .needsValue =>
            match rest with
            | [] => .usageError
            | value :: rest =>
                if isOption value then .usageError
                else
                  match takeEval r value with
                  | some r => readFrom r rest
                  | none => .usageError

def parse (arguments : List Text) : Parsed := readFrom ⟨none, none, false⟩ arguments

end Arguments

end LoxLexer

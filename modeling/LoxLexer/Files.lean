import LoxLexer.FileError
import LoxLexer.Text.Utf8
import LoxLexer.Scan

/-!
# Source files

A tree of files is known by the paths from the working directory to its files and empty
directories. A path is followed component by component; the first one that cannot be followed
decides the error. Outside the working directory there are only the directories that lead up from
it.
-/

namespace LoxLexer

/-- How a program gets at the bytes behind a path. -/
abbrev Reader := Text → Except FileError ByteArray

inductive Node where
  | file (content : ByteArray)
  | directory
  deriving DecidableEq

structure Tree where
  nodes : List (List Text × Node)
  deriving DecidableEq

namespace Tree

/-- Adds a node; the path's components are the texts between its slashes. -/
def insert (t : Tree) (path : Text) (node : Node) : Tree :=
  ⟨((path.splitOn '/').filter (· ≠ []), node) :: t.nodes⟩

/-- What is at these components; a path that leads on is a directory. -/
def find? (t : Tree) (components : List Text) : Option Node :=
  match t.nodes.find? fun entry => entry.1 == components with
  | some entry => some entry.2
  | none =>
      if components = [] ∨ t.nodes.any fun entry => components.isPrefixOf entry.1 then
        some .directory
      else none

/-- Where following a path has led so far. -/
inductive Place where
  | outside
  | directory (components : List Text)
  | file (content : ByteArray)

def longestName : Nat := 255

def longestPath : Nat := 4095

/-- Follows one component. An empty one stays where it is, but only in a directory. -/
def follow (t : Tree) (place : Place) (component : Text) : Except FileError Place :=
  match place with
  | .file _ => .error .notADirectory
  | .outside =>
      if component = [] ∨ component = ".".toList ∨ component = "..".toList then .ok .outside
      else if longestName < Text.byteLength component then .error .nameTooLong
      else .error .notFound
  | .directory components =>
      if component = [] ∨ component = ".".toList then .ok (.directory components)
      else if component = "..".toList then
        .ok (if components = [] then .outside else .directory components.dropLast)
      else if longestName < Text.byteLength component then .error .nameTooLong
      else
        match t.find? (components ++ [component]) with
        | some (.file content) => .ok (.file content)
        | some .directory => .ok (.directory (components ++ [component]))
        | none => .error .notFound

/-- The content of the file at a path. -/
def read (t : Tree) : Reader := fun path =>
  if path.contains '\x00' then .error .nulInName
  else if path = [] then .error .notFound
  else if longestPath < Text.byteLength path then .error .nameTooLong
  else
    let start := if path.head? = some '/' then Place.outside else .directory []
    match (path.splitOn '/').foldlM t.follow start with
    | .ok (.file content) => .ok content
    | .ok _ => .error .isADirectory
    | .error e => .error e

end Tree

/-- A source file that could not be read, and why. -/
structure LoadError where
  path : Text
  cause : FileError
  deriving DecidableEq

def LoadError.message (e : LoadError) : Text :=
  "Failed to read ".toList ++ e.path ++ ": ".toList ++ e.cause.message

/-- The text of a source file. -/
def readSource (read : Reader) (path : Text) : Except LoadError Text :=
  match read path with
  | .error cause => .error ⟨path, cause⟩
  | .ok bytes =>
      match Text.decode? bytes with
      | some source => .ok source
      | none => .error ⟨path, .notUtf8⟩

def scanPath (read : Reader) (path : Text) : Except LoadError Scanned :=
  (readSource read path).map scan

end LoxLexer

import LoxLexer.Text.Basic

/-!
# Errors of files

Why a path or a stream could not be read or written, with the wording of the operating system
where the operating system is the one to refuse.
-/

namespace LoxLexer

inductive FileError where
  | notFound
  | notADirectory
  | isADirectory
  | nameTooLong
  | nulInName
  | notUtf8
  | noSpaceLeft
  | other (message : Text)
  deriving DecidableEq

def FileError.message : FileError → Text
  | notFound => "No such file or directory (os error 2)".toList
  | notADirectory => "Not a directory (os error 20)".toList
  | isADirectory => "Is a directory (os error 21)".toList
  | nameTooLong => "File name too long (os error 36)".toList
  | nulInName => "file name contained an unexpected NUL byte".toList
  | notUtf8 => "stream did not contain valid UTF-8".toList
  | noSpaceLeft => "No space left on device (os error 28)".toList
  | other message => message

end LoxLexer

import SourceIndex.Text.Quoted

/-!
# Why an operation fails

The causes for which an operation has no result.  The first three are expected of files: a scan
reports them and goes on.  The others are faults of the parser, of a path, of an ignore pattern or of
a number, and break off whatever met them.
-/

namespace SourceIndex

/-- Why a line of an ignore list cannot be used as a pattern. -/
inductive PatternError where
  /-- The line has no meaning. -/
  | invalid (reason : String)
  /-- The line has a meaning, but what it comes to cannot be carried out. -/
  | malformed (reason : String)
deriving DecidableEq, Repr

/-- What is said of a line that cannot be used. -/
def PatternError.reason : PatternError → String
  | invalid reason => reason
  | malformed reason => reason

/-- A cause for which there is no result. -/
inductive Failure where
  /-- No grammar is registered for the language. -/
  | unsupportedLanguage (language : String)
  /-- The grammar gave no usable tree. -/
  | unparsable (language reason : String)
  /-- The file cannot be read. -/
  | unreadable (path reason : String)
  /-- The parser gave a tree whose root cannot be read. -/
  | brokenTree (reason : String)
  /-- The path holds a null character, so that it can name nothing. -/
  | nullInPath
  /-- The links on a path lead in a circle. -/
  | linkLoop (path : String)
  /-- An ignore pattern cannot be used. -/
  | badPattern (error : PatternError)
  /-- A number has more digits than are written. -/
  | tooManyDigits
deriving DecidableEq, Repr

namespace Failure

/-- What is said of a failure. -/
def message : Failure → String
  | unsupportedLanguage language => "no grammar registered for language: " ++ language
  | unparsable language reason => "cannot parse " ++ language ++ " source: " ++ reason
  | unreadable path reason => "cannot read " ++ path ++ ": " ++ reason
  | brokenTree reason => reason
  | nullInPath => "embedded null byte"
  | linkLoop path => "Symlink loop from " ++ Text.quote path
  | badPattern error => error.reason
  | tooManyDigits => "Exceeds the limit (4300 digits) for integer string conversion; "
      ++ "use sys.set_int_max_str_digits() to increase the limit"

/-- Whether a failure is one of those that files can be expected to have. -/
def isExpected : Failure → Bool
  | unsupportedLanguage _ | unparsable _ _ | unreadable _ _ => true
  | brokenTree _ | nullInPath | linkLoop _ | badPattern _ | tooManyDigits => false

end Failure

end SourceIndex

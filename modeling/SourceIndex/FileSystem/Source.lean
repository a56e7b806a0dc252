import SourceIndex.Digest.Sha256
import SourceIndex.FileSystem.Basic

/-!
# Reading source files

A source file is read as text, bytes that are not well formed replaced, together with the digest of
its bytes, by which a later reading can tell whether the file has changed.
-/

namespace SourceIndex

/-- What was read from a source file. -/
structure Source where
  text : String
  digest : String
deriving DecidableEq, Repr

/-- The source that the content of a file holds. -/
def Source.ofBytes (content : Bytes) : Source where
  text := String.ofList (Utf8.decode content)
  digest := Sha256.hexDigest content

/-- Reads the source file that a path names; a failure names the path as it was given. -/
def FileSystem.readSource (fs : FileSystem) (path : String) : Except Failure Source :=
  if (Path.parse path).holdsNull then .error .nullInPath
  else
    match fs.read (Path.parse path) with
    | .ok content => .ok (Source.ofBytes content)
    | .error e => .error (.unreadable path e.reason)

end SourceIndex

import SourceIndex.Path
import SourceIndex.Text.Quoted

/-!
# Why reading fails

Following a path may fail for the usual reasons.  Beyond these, reading a file may be refused although
the file is there.
-/

namespace SourceIndex

/-- Why reading a file fails although the file is there. -/
inductive ReadFault where
  /-- The system gives a reason. -/
  | refused (reason : String)
  /-- The system gives no reason; `text` is all there is. -/
  | unexplained (text : String)
deriving DecidableEq, Repr

/-- Why a path cannot be read. -/
inductive ReadError where
  | notFound
  | notDirectory
  | isDirectory
  /-- The path leads over more links than are followed. -/
  | tooManyLinks
  | fault (fault : ReadFault)
deriving DecidableEq, Repr

namespace ReadError

/-- The reason alone. -/
def reason : ReadError → String
  | notFound => "No such file or directory"
  | notDirectory => "Not a directory"
  | isDirectory => "Is a directory"
  | tooManyLinks => "Too many levels of symbolic links"
  | fault (.refused "") => "[Errno 13] "
  | fault (.refused reason) => reason
  | fault (.unexplained text) => text

/-- The error in full, with its number and, where the system gives it, the path in quotes. -/
def describe (path : Path) : ReadError → String
  | notFound => "[Errno 2] No such file or directory: " ++ Text.quote path.text
  | notDirectory => "[Errno 20] Not a directory: " ++ Text.quote path.text
  | isDirectory => "[Errno 21] Is a directory: " ++ Text.quote path.text
  | tooManyLinks => "[Errno 40] Too many levels of symbolic links: " ++ Text.quote path.text
  | fault (.refused reason) => "[Errno 13] " ++ reason
  | fault (.unexplained text) => text

end ReadError

end SourceIndex

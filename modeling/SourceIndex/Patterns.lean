import SourceIndex.Failure
import SourceIndex.Trace

/-!
# Lists of ignore patterns

Which paths are ignored is told by lists of patterns, one to a line.  What the lines mean is left to
a *pattern engine*, of which no more is asked than this:

* a list fails for its first line that fails, with the failure of that line;
* **the last line that says something about a path decides** whether the path is ignored, and a path
  about which no line says anything is not.

Lines that are invalid are reported and dropped, and the others are compiled without them.  Any other
failure breaks off.
-/

namespace SourceIndex

/-- What compiles lists of patterns, and tells which paths they ignore. -/
class PatternEngine where
  /-- A list of patterns that has been compiled. -/
  Spec : Type
  compile : List String → Except PatternError Spec
  /-- Whether a path is ignored; its components are separated by slashes. -/
  ignores : Spec → List Char → Bool
  /-- What a line says of a path: that it is ignored, that it is not, or nothing. -/
  tells : String → List Char → Option Bool
  /-- A list fails for its first line that fails. -/
  exists_of_error : ∀ {lines : List String} {error : PatternError}, compile lines = .error error →
    ∃ before line after, lines = before ++ line :: after ∧ compile [line] = .error error ∧
      ∀ other ∈ before, ∃ spec, compile [other] = .ok spec
  /-- If a list does not fail, neither does a line of it. -/
  exists_of_ok : ∀ {lines : List String} {spec : Spec}, compile lines = .ok spec →
    ∀ line ∈ lines, ∃ alone, compile [line] = .ok alone
  /-- The last line that says something decides. -/
  ignores_eq : ∀ {lines : List String} {spec : Spec}, compile lines = .ok spec →
    ∀ path, ignores spec path = (lines.reverse.findSome? (tells · path)).getD false

namespace PatternEngine

variable [PatternEngine]

/-- Reports a line that is dropped; `origin` tells where it stands. -/
def dropReport (origin line reason : String) : Traced Unit :=
  Traced.report .warning .discovery
    ("Ignoring invalid pattern " ++ Text.quote line ++ " in " ++ origin ++ ": " ++ reason)

/-- The lines that are not invalid, with a report of those that are. -/
def usable (origin : String) : List String → Traced (Except PatternError (List String))
  | [] => return .ok []
  | line :: rest =>
    match compile [line] with
    | .error (.malformed reason) => return .error (.malformed reason)
    | .error (.invalid reason) => do
      dropReport origin line reason
      usable origin rest
    | .ok _ => do
      let lines ← usable origin rest
      return lines.map (line :: ·)

/-- Compiles a list of patterns, without its invalid lines. -/
def compileUsable (origin : String) (lines : List String) : Traced (Except PatternError Spec) :=
  match compile lines with
  | .ok spec => return .ok spec
  | .error (.malformed reason) => return .error (.malformed reason)
  | .error (.invalid _) => do
    match ← usable origin lines with
    | .error e => return .error e
    | .ok lines => return compile lines

end PatternEngine

end SourceIndex

/-!
# Configuration of a workspace

What is indexed, and how.  Everything but the root has a default.
-/

namespace SourceIndex

/-- What is indexed in a workspace, and how. -/
structure Config where
  /-- The directory that is indexed, as it was given. -/
  projectRoot : String
  /-- The languages whose files are indexed. -/
  languages : List String :=
    ["java", "python", "javascript", "javascriptreact", "typescript", "typescriptreact"]
  /-- Rules for the files that are left out. -/
  exclude : List String :=
    ["node_modules/", ".git/", "__pycache__/", ".venv/", "venv/", "dist/", "build/", "target/",
      ".mypy_cache/", ".pytest_cache/"]
  /-- Whether files that the ignore file of the root names are left out. -/
  respectGitignore : Bool := true
  /-- The size from which on files are left out, in bytes. -/
  maxFileBytes : Int := 1024 * 1024
  /-- How many files are analysed at a time. -/
  workers : Int := 1
  /-- Whether files with errors are left out. -/
  strict : Bool := false
deriving DecidableEq, Repr

end SourceIndex

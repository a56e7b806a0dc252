import SourceIndex.Failure
import SourceIndex.FileSystem.Links

/-!
# File systems

A file system is a volume together with its faults: files that cannot be read, files that come and
go, directories that may not be listed, and a refusal to list anything at all.

Of the looks at a file that comes and goes, every second one misses it.  So such a file can be found
and yet be gone when its size is asked for.  Reading does not look first, and always finds it.

What is in a directory that may not be listed is passed over in silence.  Links are listed where they
stand, and what a linked directory holds is not listed with it; a path through the link still leads
there.
-/

namespace SourceIndex

/-- A volume, and the faults of the system that holds it. -/
structure FileSystem where
  volume : Volume
  /-- The directory that relative paths start from. -/
  workingDirectory : Location
  /-- Files that cannot be read, by the path that is opened. -/
  unreadable : List (String × ReadFault)
  /-- Places where what stands there comes and goes. -/
  vanishing : List String
  /-- Those of them that have been looked at an odd number of times. -/
  glimpsed : List String
  /-- Why directories cannot be listed, if they cannot. -/
  unlistable : Option String
  /-- Directories that may not be listed. -/
  closed : List Location
  /-- The working directory has a path. -/
  proper : workingDirectory.Proper

namespace FileSystem

/-- What stands at a location. -/
def standing? (fs : FileSystem) (here : Location) : Option Entry :=
  fs.volume.standing? here

/-- Whether a directory stands at a location. -/
def isDirectory (fs : FileSystem) (here : Location) : Bool :=
  fs.standing? here == some .directory

/-- The location of a path. -/
def resolve (fs : FileSystem) (path : Path) : Except Failure Location :=
  if path.holdsNull then .error .nullInPath
  else
    match fs.volume.resolve (path.start fs.workingDirectory ++ path.parts) with
    | .ok here => .ok here
    | .error place => .error (.linkLoop place.text)

/-- Whether what stands at a location comes and goes. -/
def comesAndGoes (fs : FileSystem) (here : Location) : Bool :=
  fs.vanishing.contains here.text

/-- Whether the next look at a location misses what stands there. -/
def misses (fs : FileSystem) (here : Location) : Bool :=
  fs.comesAndGoes here && fs.glimpsed.contains here.text

/-! ## Reading -/

/-- The location that a path leads to, over directories and links. -/
def follow (fs : FileSystem) (path : Path) : Except ReadError Location :=
  fs.volume.follow (path.start fs.workingDirectory) path.parts

/-- What stands where a path leads; nothing if it leads nowhere. -/
def reach? (fs : FileSystem) (path : Path) : Option Entry :=
  match fs.follow path with
  | .ok here => fs.standing? here
  | .error _ => none

/-- The content of the file that a path leads to. -/
def read (fs : FileSystem) (path : Path) : Except ReadError Bytes :=
  match fs.unreadable.lookup path.text with
  | some fault => .error (.fault fault)
  | none =>
    match fs.follow path with
    | .error e => .error e
    | .ok here =>
      match fs.standing? here with
      | some (.file content) => .ok content
      | some _ => .error .isDirectory
      | none => .error .notFound

/-! ## Listing -/

/-- Whether what is in a directory at any depth comes up when the directory is listed. -/
def lists (fs : FileSystem) (root here : Location) : Bool :=
  root.isPrefixOf here && root.length < here.length
    && !fs.closed.any (fun place =>
      root.isPrefixOf place && place.isPrefixOf here && place.length < here.length)

/-- The file that is listed at a location below `root`, or that a link there leads to. -/
def fileBelow? (fs : FileSystem) (root here : Location) : Option (Location × Bytes) :=
  if fs.lists root here then
    match fs.reach? here.path with
    | some (.file content) => some (here, content)
    | _ => none
  else none

/-- The files below a directory at any depth, in the order of their locations, component by
component, without those that a look misses. -/
def filesBelow (fs : FileSystem) (root : Location) : List (Location × Bytes) :=
  ((fs.volume.entries.keys.filterMap (fs.fileBelow? root)).filter
    (fun file => !fs.misses file.1)).mergeSort (fun a b => a.1.precedes b.1)

/-! ## Changing -/

/-- Makes directories of all locations that a path passes through, also of those that it leaves
again. -/
def makeParents (fs : FileSystem) (path : Path) : Volume :=
  (Path.passed (path.start fs.workingDirectory) path.parts).foldl Volume.makeDirectory fs.volume

/-- Puts an entry where a path leads word for word, making the directories on the way. -/
def write (fs : FileSystem) (path : Path) (entry : Entry) : FileSystem :=
  let here := path.resolve fs.workingDirectory
  let volume := fs.makeParents path
  { fs with
    volume := match entry with
      | .directory => volume.makeDirectory here
      | _ => volume.put here entry }

/-- Removes what stands at a location and below it. -/
def delete (fs : FileSystem) (here : Location) : FileSystem :=
  { fs with volume := fs.volume.remove here }

/-- The file system without faults that holds nothing but its working directory. -/
def bare (workingDirectory : Location) (proper : workingDirectory.Proper) : FileSystem :=
  write ⟨Volume.empty, workingDirectory, [], [], [], none, [], proper⟩ workingDirectory.path
    .directory

/-- The file system without faults that holds nothing but its working directory `/ws`. -/
def bareWs : FileSystem := bare ["ws"] (by decide)

end FileSystem

end SourceIndex

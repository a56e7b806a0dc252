import SourceIndex.FileSystem.Fault
import SourceIndex.FileSystem.Volume

/-!
# Where links lead

A link stands for what its target leads to, seen from the directory that holds the link.  There are
two ways to go along a path with links on it.

* *Settling* a path tells where it leads without asking whether anything stands there: names under
  which nothing stands are kept.  Only links that lead in a circle are an error.
* *Following* a path enters one directory after another, and fails where there is none.  It gives up
  after `linkLimit` links.
-/

namespace SourceIndex.Volume

/-- Where the link at a location leads, if a link stands there. -/
def link? (v : Volume) (here : Location) : Option Path :=
  match v.standing? here with
  | some (.link target) => some target
  | _ => none

/-- How many links there are. -/
def linkCount (v : Volume) : Nat :=
  v.entries.values.countP Entry.isLink

/-! ## Settling -/

/-- Goes along components from a location; `enter` settles where a link leads.  The links of `trail`
are being settled.  To come to one of them again is an error, which tells the place that the
components name word for word. -/
def settle (v : Volume)
    (enter : List Location → Location → List String → Except Location Location)
    (trail : List Location) : Location → List String → Except Location Location
  | here, [] => .ok here
  | here, part :: rest =>
    match v.link? (Path.step here part) with
    | none => settle v enter trail (Path.step here part) rest
    | some target =>
      if trail.contains (Path.step here part) then
        .error (rest.foldl Path.step (Path.step here part))
      else
        match enter (Path.step here part :: trail) (target.start here) target.parts with
        | .error place => .error (rest.foldl Path.step place)
        | .ok there => settle v enter trail there rest

/-- Goes along components from a location, entering at most `depth` links one inside the other. -/
def settleWithin (v : Volume) :
    Nat → List Location → Location → List String → Except Location Location
  | 0 => v.settle (fun _ start parts => .error (parts.foldl Path.step start))
  | depth + 1 => v.settle (v.settleWithin depth)

/-- Where components lead from the root.  No link is entered inside itself, so that links are never
nested deeper than there are links. -/
def resolve (v : Volume) (parts : List String) : Except Location Location :=
  v.settleWithin v.linkCount [] [] parts

/-! ## Following -/

/-- How many links are followed on the way to a file. -/
def linkLimit : Nat := 40

/-- Goes along components from a location, each entered through a directory.  Where a link stands,
`enter` goes on from where the link leads, with the components that are left. -/
def walk (v : Volume) (enter : Location → List String → Except ReadError Location) :
    Location → List String → Except ReadError Location
  | here, [] => .ok here
  | here, part :: rest =>
    match v.standing? here with
    | some .directory =>
      match v.link? (Path.step here part) with
      | none => walk v enter (Path.step here part) rest
      | some target => enter (target.start here) (target.parts ++ rest)
    | some _ => .error .notDirectory
    | none => .error .notFound

/-- Goes along components from a location, over at most `links` links. -/
def followWithin (v : Volume) : Nat → Location → List String → Except ReadError Location
  | 0 => v.walk (fun _ _ => .error .tooManyLinks)
  | links + 1 => v.walk (v.followWithin links)

/-- Where components lead from a location. -/
def follow (v : Volume) (here : Location) (parts : List String) : Except ReadError Location :=
  v.followWithin linkLimit here parts

end SourceIndex.Volume

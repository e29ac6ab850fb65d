import PreviewInstaller.Disk.Fault
import PreviewInstaller.Git.Repository
import PreviewInstaller.Path

set_option autoImplicit false

/-! # The file tree

A disk holds entries at locations, which are the names on the way from the root. The disk is seen
through `entry?`; `insert` and `eraseBelow` change what it says of a location, or of those below
one, and of no other. Paths are followed through links to the location they name. -/

namespace PreviewInstaller

/-- The names on the way from the root to a place. -/
abbrev Location := List String

/-- What stands at a location. -/
inductive Entry where
  | directory
  | file (file : File)
  | link (target : String)
  /-- The directory that holds a repository's own data. -/
  | repository (repository : Git.Repository)
deriving DecidableEq, Repr

/-- Whether an entry is a directory. -/
def Entry.isDirectory : Entry → Bool
  | .directory | .repository _ => true
  | _ => false

/-- Entries at locations; of two at one location the first counts. The root is always there. -/
structure Disk where
  entries : List (Location × Entry)
deriving Repr, Inhabited

namespace Disk

/-- What stands at a location. -/
def entry? (disk : Disk) : Location → Option Entry
  | [] => some .directory
  | location => disk.entries.lookup location

/-- Whether a location lies below another one. -/
def isBelow (outer inner : Location) : Bool :=
  outer.isPrefixOf inner && outer ≠ inner

/-- The disk with an entry at a location, in place of what stood there. -/
def insert (disk : Disk) (location : Location) (entry : Entry) : Disk :=
  ⟨(location, entry) :: disk.entries.filter (·.1 ≠ location)⟩

/-- The disk without what stands at a location. -/
def erase (disk : Disk) (location : Location) : Disk :=
  ⟨disk.entries.filter (·.1 ≠ location)⟩

/-- The disk without anything below a location. -/
def eraseBelow (disk : Disk) (location : Location) : Disk :=
  ⟨disk.entries.filter fun (inner, _) => !isBelow location inner⟩

/-- Whether nothing lies below a location. -/
def isEmptyAt (disk : Disk) (location : Location) : Bool :=
  !disk.entries.any fun (inner, _) => isBelow location inner

/-! ## Following paths -/

/-- The location that names lead to from `here`. A link is followed by `onLink`, which gets the
location it stands at, its target and the names behind it. -/
def descend (disk : Disk)
    (onLink : Location → String → List String → Except DiskFault Location) :
    Location → List String → Except DiskFault Location
  | here, [] => .ok here
  | here, name :: rest =>
    match disk.entry? here with
    | none => .error .noSuchFile
    | some entry =>
      if !entry.isDirectory then .error .notDirectory
      else if name = ".." then descend disk onLink here.dropLast rest
      else
        match disk.entry? (here ++ [name]) with
        | none => .error .noSuchFile
        | some (.link target) => onLink here target rest
        | some _ => descend disk onLink (here ++ [name]) rest

/-- The location that names lead to from `here` through at most `links` links. -/
def followFrom (disk : Disk) : Nat → Location → List String → Except DiskFault Location
  | 0 => disk.descend fun _ _ _ => .error .tooManyLinks
  | links + 1 => disk.descend fun here target rest =>
    followFrom disk links (if Path.isAbsolute ⟨target⟩ then [] else here)
      (Path.components ⟨target⟩ ++ rest)

/-- How many links a path may lead through. -/
def linkLimit : Nat := 40

/-- The last piece of a path's text that is not empty. -/
def lastPiece (path : Path) : String :=
  (((Text.pieces '/' path.text.toList).filter (· ≠ [])).getLast?.map String.ofList).getD ""

/-- Whether a path can only name a directory, because it ends in a slash or a dot. -/
def namesDirectory (path : Path) : Bool :=
  path.endsInSlash || lastPiece path = "."

/-- The location that a path names, seen from `here`. -/
def follow (disk : Disk) (here : Location) (path : Path) : Except DiskFault Location := do
  if path.text = "" then throw .noSuchFile
  if path.hasNul then throw .nulByte
  let start := if path.isAbsolute then [] else here
  let location ← disk.followFrom linkLimit start path.components
  match disk.entry? location with
  | none => throw .noSuchFile
  | some entry =>
    if namesDirectory path && !entry.isDirectory then throw .notDirectory
    return location

/-- Whether a path names a directory. -/
def isDirectory (disk : Disk) (here : Location) (path : Path) : Bool :=
  match disk.follow here path with
  | .ok location => (disk.entry? location).any Entry.isDirectory
  | .error _ => false

/-- The location of the place where the last name of a path stands, whether or not there is
anything, with links followed on the way but not at the end. -/
def locate (disk : Disk) (here : Location) (path : Path) : Except DiskFault Location := do
  let start := if path.isAbsolute then [] else here
  let directory ← disk.followFrom linkLimit start path.components.dropLast
  match disk.entry? directory, path.components.getLast? with
  | _, none => return directory
  | none, _ => throw .noSuchFile
  | some entry, some name =>
    if !entry.isDirectory then throw .notDirectory
    return if name = ".." then directory.dropLast else directory ++ [name]

/-- Whether every step up that a path takes is from a place that its names lead to and where
something stands. -/
def stepsUpSafely (disk : Disk) (here : Location) (path : Path) : Bool :=
  let start := if path.isAbsolute then [] else here
  let names := path.components
  (List.range names.length).all fun count =>
    names[count]? ≠ some ".." ||
      (disk.followFrom linkLimit start (names.take count)).toOption.any fun place =>
        (disk.entry? place).isSome

/-- The entry that stands at the end of a path, itself if it is a link, unless the path can only
name a directory. -/
def stat (disk : Disk) (here : Location) (path : Path) :
    Except DiskFault (Location × Entry) := do
  let location ← if namesDirectory path then disk.follow here path else disk.locate here path
  match disk.entry? location with
  | some entry => return (location, entry)
  | none => throw .noSuchFile

/-! ## Removing -/

/-- Removes the directory that a path names, which is empty. The path has to end in its name. -/
def removeEmpty (disk : Disk) (here : Location) (path : Path) : Except DiskFault Disk := do
  let start := if path.isAbsolute then [] else here
  let pieces := path.components
  let ending := lastPiece path
  let _ ← disk.followFrom linkLimit start (if ending = "." then pieces else pieces.dropLast)
  if ending = "." then throw .invalidArgument
  if ending = ".." then throw .notEmpty
  if ending = "" then throw .busy
  let location ← disk.locate here path
  match disk.entry? location with
  | none => throw .noSuchFile
  | some (.link _) => throw .notDirectory
  | some _ => return disk.erase location

/-- Removes what a path names with everything below it; a link is removed itself. What is below a
directory goes first, so it is gone even if the directory cannot be removed. -/
def removeTree (disk : Disk) (here : Location) (path : Path) : Except DiskFault Unit × Disk :=
  match disk.stat here path with
  | .error fault => (.error fault, disk)
  | .ok (location, .link _) => (.ok (), disk.erase location)
  | .ok (location, _) =>
    let emptied := disk.eraseBelow location
    match emptied.removeEmpty here path with
    | .ok removed => (.ok (), removed)
    | .error fault => (.error fault, emptied)

/-! ## Making -/

/-- The locations on the way to a place, the nearest to the root first. -/
def ancestors : Location → List Location
  | [] => []
  | location => (List.range location.length).map location.take

/-- The disk with a directory at a location where nothing stood. -/
def ensureDirectory (disk : Disk) (location : Location) : Disk :=
  if (disk.entry? location).isSome then disk else disk.insert location .directory

/-- The disk with an entry at a location and directories on the way to it. -/
def place (disk : Disk) (location : Location) (entry : Entry) : Disk :=
  ((ancestors location).foldl ensureDirectory disk).insert location entry

/-- The disk with the files of a commit below a location. -/
def placeSnapshot (disk : Disk) (location : Location) (snapshot : Git.Snapshot) : Disk :=
  snapshot.foldl (fun disk (names, leaf) =>
    disk.place (location ++ names) <|
      match leaf with
      | .file file => .file { file with mode := File.plainMode file.isRunnable }
      | .link target => .link target) disk

/-! ## Listing -/

/-- Whether one name comes before another one: its code points do. -/
def nameBefore (a b : String) : Bool :=
  (a.toList.map Char.toNat).lex (b.toList.map Char.toNat) Nat.blt

/-- Whether one location comes no later than another one when names are sorted in every
directory. -/
def comesBefore (a b : Location) : Bool :=
  !b.lex a nameBefore

/-- All entries, a directory before what is in it, and names sorted. -/
def sorted (disk : Disk) : List (Location × Entry) :=
  disk.entries.mergeSort fun a b => comesBefore a.1 b.1

end Disk

end PreviewInstaller

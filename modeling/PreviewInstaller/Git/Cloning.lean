import PreviewInstaller.Disk.Tree
import PreviewInstaller.Procedure

set_option autoImplicit false

/-! # Cloning on a disk

A clone is made in a directory that is empty or not there. All branches and tags of the source are
fetched and one branch is checked out. A clone that fails leaves the directory as it was: removed if
it was not found before, empty if it was there; directories made on the way to it stay. -/

namespace PreviewInstaller.Git

/-! ## Finding repositories -/

/-- The repository that is opened at a location: the one whose directory it is, or the one that
has its data there. -/
def repositoryAt? (disk : Disk) (location : Location) : Option (Location × Repository) :=
  match disk.entry? (location ++ [".git"]), disk.entry? location with
  | some (.repository repository), _ => some (location ++ [".git"], repository)
  | _, some (.repository repository) => some (location, repository)
  | _, _ => none

/-- The repository that a path opens. -/
def open? (disk : Disk) (here : Location) (path : Path) : Option (Location × Repository) :=
  match disk.follow here path with
  | .ok location => repositoryAt? disk location
  | .error _ => none

/-- A url with its start replaced. Of all starts that fit, the longest one counts. -/
def resolved (aliases : List (String × String)) (url : String) : String :=
  let fitting := aliases.filter fun (start, _) => Text.startsWith start url
  let longest := fitting.foldl (fun best entry =>
    match best with
    | none => some entry
    | some (start, _) => if start.length < entry.1.length then some entry else best)
    (none : Option (String × String))
  match longest with
  | none => url
  | some (start, replacement) => replacement ++ (Text.after? start url).getD ""

/-- The repository that a url names. -/
def findSource (disk : Disk) (here : Location) (url : String) : Except GitFault Repository :=
  if url = "" then .error .emptyUrl
  else
    match Text.after? "file://" url with
    | some path =>
      match disk.follow here ⟨path⟩, open? disk here ⟨path⟩ with
      | .error _, _ => .error (.unresolvedPath path)
      | .ok _, none => .error (.noRepository path)
      | .ok _, some (_, repository) => .ok repository
    | none =>
      if disk.isDirectory here ⟨url⟩ then
        match open? disk here ⟨url⟩ with
        | none => .error (.noRepository url)
        | some (_, repository) => .ok repository
      else .error .unsupportedProtocol

/-! ## Making the directory -/

/-- A path's text without the slashes at its end. -/
def trimmed (path : List Char) : List Char :=
  match (path.reverse.dropWhile (· = '/')).reverse with
  | [] => path.take 1
  | trimmed => trimmed

/-- The text of the directory that a path lies in. -/
def parentText (path : List Char) : List Char :=
  match (trimmed path).reverse.dropWhile (· ≠ '/') with
  | [] => ['.']
  | front => trimmed front.reverse

/-- The path of some characters. -/
def pathOf (characters : List Char) : Path :=
  ⟨String.ofList characters⟩

/-- Why a directory cannot be made where something stands; `none` if it is a directory. -/
def obstacle? (disk : Disk) (here : Location) (path : List Char) (entry : Entry) :
    Option GitFault :=
  let text := String.ofList path
  match entry with
  | .link _ =>
    match disk.follow here ⟨text⟩ with
    | .error _ => some (.directoryIsDangling text)
    | .ok location =>
      if (disk.entry? location).any Entry.isDirectory then none
      else some (.directoryIsFile text)
  | entry => if entry.isDirectory then none else some (.directoryIsFile text)

/-- The disk with the directory that a path names and those on the way to it, of which at most
`depth` are missing. -/
def makeDirectories (disk : Disk) (here : Location) :
    Nat → List Char → Except GitFault Disk
  | 0, _ => .ok disk
  | depth + 1, path =>
    match disk.locate here (pathOf path) with
    | .ok location => .ok (disk.ensureDirectory location)
    | .error .noSuchFile => do
      let parent := parentText path
      let disk ← makeDirectories disk here depth parent
      match disk.locate here (pathOf path) with
      | .ok location => .ok (disk.ensureDirectory location)
      | .error _ => .error (.directoryHasNoParent (String.ofList path))
    | .error fault => .error (.unknownEntry (String.ofList path) fault)

/-- The disk with the directory to clone into and those on the way to it, and the location of that
directory. -/
def makeTarget (disk : Disk) (here : Location) (path : Path) :
    Except GitFault (Disk × Location) := do
  let target := trimmed path.text.toList
  let parent := parentText target
  let disk ← match disk.stat here (pathOf parent) with
    | .ok (_, entry) =>
      match obstacle? disk here parent entry with
      | some fault => throw fault
      | none => pure disk
    | .error .noSuchFile => makeDirectories disk here parent.length parent
    | .error fault => throw (.unknownEntry (String.ofList parent) fault)
  match disk.stat here (pathOf target) with
  | .ok (_, entry) =>
    match obstacle? disk here target entry with
    | some fault => throw fault
    | none => pure ()
  | .error _ => pure ()
  let disk ← makeDirectories disk here 1 target
  match disk.follow here (pathOf target) with
  | .ok location => return (disk, location)
  | .error fault => throw (.unknownEntry (String.ofList target) fault)

/-! ## Cloning -/

/-- The reference of a fetched branch. -/
def fetchedReference (branch : String) : String :=
  "refs/remotes/" ++ Repository.originName ++ "/" ++ branch

/-- The commit of a branch that is to be checked out. -/
def findBranch (source : Repository) (branch : String) : Except GitFault Snapshot :=
  if isBranchName branch then
    match source.branch? (branchOf branch) with
    | some commit => .ok commit
    | none => .error (.referenceMissing (fetchedReference (branchOf branch)))
  else .error (.referenceInvalid (fetchedReference branch))

/-- The clone of what a url names, with one of its branches, and the files of that branch. -/
def fetch (disk : Disk) (here : Location) (aliases : List (String × String))
    (url branch : String) : Except GitFault (Repository × Snapshot) := do
  let source ← findSource disk here (if url = "" then "" else resolved aliases url)
  let commit ← findBranch source branch
  return (source.cloned url branch commit, commit)

/-- Clones what a url names into the directory of a path, with one of its branches. -/
def cloneInto (disk : Disk) (here : Location) (aliases : List (String × String))
    (url branch : String) (path : Path) : Except GitFault Unit × Disk :=
  let present := (disk.follow here path).toOption
  match present with
  | some location =>
    if (disk.entry? location).any Entry.isDirectory && disk.isEmptyAt location then
      match fetch disk here aliases url branch with
      | .error fault => (.error fault, disk)
      | .ok (clone, commit) =>
        (.ok (), (disk.insert (location ++ [".git"]) (.repository clone)).placeSnapshot
          location commit)
    else (.error (.targetNotEmpty path.text), disk)
  | none =>
    match makeTarget disk here path with
    | .error fault => (.error fault, disk)
    | .ok (made, location) =>
      match fetch made here aliases url branch with
      | .error fault => (.error fault, (made.eraseBelow location).erase location)
      | .ok (clone, commit) =>
        (.ok (), (made.insert (location ++ [".git"]) (.repository clone)).placeSnapshot
          location commit)

/-- Clones what a url names. A branch with a NUL byte crashes the process, and so does a path that
steps up from a place that is not there. -/
def clone (disk : Disk) (here : Location) (aliases : List (String × String))
    (url branch : String) (path : Path) : CloneOutcome × Disk :=
  if branch.toList.contains '\x00' then (.crashed, disk)
  else if url.toList.contains '\x00' || path.hasNul then (.failed .nulByte, disk)
  else if !disk.stepsUpSafely here path then (.crashed, disk)
  else
    match cloneInto disk here aliases url branch path with
    | (.ok (), disk) => (.done, disk)
    | (.error fault, disk) => (.failed fault, disk)

/-! ## Remotes -/

/-- A repository with another remote. -/
def withRemote (repository : Repository) (name url : String) : Except GitFault Repository :=
  if name.toList.contains '\x00' || url.toList.contains '\x00' then .error .nulByte
  else if !isRemoteName name then .error (.remoteInvalid name)
  else if repository.hasRemote name then .error (.remoteExists name)
  else if url = "" then .error .emptyUrl
  else .ok { repository with remotes := repository.remotes ++ [⟨name, url⟩] }

/-- Adds a remote to the repository that a path opens. -/
def addRemote (disk : Disk) (here : Location) (path : Path) (name url : String) :
    Except GitFault Unit × Disk :=
  match open? disk here path with
  | none => (.error (.noRepository path.text), disk)
  | some (location, repository) =>
    match withRemote repository name url with
    | .error fault => (.error fault, disk)
    | .ok repository => (.ok (), disk.insert location (.repository repository))

end PreviewInstaller.Git

import PreviewInstaller.Disk.File
import PreviewInstaller.Git.Name

set_option autoImplicit false

/-! # Repositories

A repository has branches, branches it has fetched, tags, remotes and a head. Every commit is seen
as the files it holds. -/

namespace PreviewInstaller.Git

/-- What stands at a path of a commit. -/
inductive Leaf where
  | file (file : File)
  | link (target : String)
deriving DecidableEq, Repr

/-- The files of a commit, by the names on the way to them. -/
abbrev Snapshot := List (List String × Leaf)

/-- A remote: its name and its address. -/
structure Remote where
  name : String
  url : String
deriving DecidableEq, Repr

/-- What a branch tracks: a reference of a remote. It is kept under the name by which the branch
was asked for. -/
structure Tracking where
  branch : String
  remote : String
  reference : String
deriving DecidableEq, Repr

/-- A repository. Names of branches and tags are kept without the common part of their references,
and fetched branches with the name of their remote. -/
structure Repository where
  /-- The branch that the head points to, which need not exist. -/
  head : String
  branches : List (String × Snapshot)
  fetched : List (String × Snapshot)
  tags : List (String × Snapshot)
  remotes : List Remote
  trackings : List Tracking
deriving DecidableEq, Repr

namespace Repository

/-- The commit of a branch. -/
def branch? (repository : Repository) (name : String) : Option Snapshot :=
  repository.branches.lookup name

/-- Whether a comment starts at a character of a stored value. -/
def isCommentMark (c : Char) : Bool :=
  c = '#' || c = ';'

/-- Whether the head points to no commit. -/
def isUnborn (repository : Repository) : Bool :=
  (repository.branch? repository.head).isNone

/-- The full names of all references but the head. -/
def references (repository : Repository) : List String :=
  repository.branches.map (fun (name, _) => "refs/heads/" ++ name) ++
    repository.fetched.map (fun (name, _) => "refs/remotes/" ++ name) ++
    repository.tags.map fun (name, _) => "refs/tags/" ++ name

/-- What is read of a value that was stored with its quotes as they are: quotes are dropped, and a
mark of comments outside of them ends the value. -/
def unquoted (isInside : Bool) : List Char → List Char
  | [] => []
  | c :: rest =>
    if c = '"' then unquoted (!isInside) rest
    else if !isInside && isCommentMark c then []
    else c :: unquoted isInside rest

/-- The fetch setting of a remote. It is stored with its quotes as they are, and between quotes if
it holds a mark of comments. -/
def fetchSetting (remote : Remote) : String :=
  let value := "+refs/heads/*:refs/remotes/" ++ remote.name ++ "/*"
  String.ofList (unquoted (value.toList.any isCommentMark) value.toList)

/-- The settings of remotes and of branches that follow them. -/
def settings (repository : Repository) : List (String × String) :=
  repository.remotes.flatMap (fun remote =>
    [("remote." ++ remote.name ++ ".url", remote.url),
     ("remote." ++ remote.name ++ ".fetch", fetchSetting remote)]) ++
  repository.trackings.flatMap fun tracking =>
    [("branch." ++ tracking.branch ++ ".remote", tracking.remote),
     ("branch." ++ tracking.branch ++ ".merge", tracking.reference)]

/-- The remote that a repository was cloned from. -/
def originName : String := "origin"

/-- The branches of `source` as a clone of it has them, with the head among them if it exists. -/
def fetchedFrom (source : Repository) : List (String × Snapshot) :=
  source.branches.map (fun (name, commit) => (originName ++ "/" ++ name, commit)) ++
    match source.branch? source.head with
    | some commit => [(originName ++ "/HEAD", commit)]
    | none => []

/-- The clone of `source`, fetched from `url`, with one of its branches checked out. -/
def cloned (source : Repository) (url branch : String) (commit : Snapshot) : Repository where
  head := branchOf (localName branch)
  branches := [(branchOf (localName branch), commit)]
  fetched := source.fetchedFrom
  tags := source.tags
  remotes := [⟨originName, url⟩]
  trackings := [⟨localName branch, originName, "refs/heads/" ++ branchOf (localName branch)⟩]

/-- Whether a remote of the name exists. -/
def hasRemote (repository : Repository) (name : String) : Bool :=
  repository.remotes.any (·.name = name)

end Repository

end PreviewInstaller.Git

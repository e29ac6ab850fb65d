import PreviewInstaller.Disk.Fault

set_option autoImplicit false

/-! # Faults of repositories

The ways in which cloning a repository or adding a remote can fail. -/

namespace PreviewInstaller

/-- Why cloning or adding a remote failed. -/
inductive GitFault where
  /-- The directory to clone into exists and holds something, or is a file. -/
  | targetNotEmpty (path : String)
  /-- A directory to be made is a file. -/
  | directoryIsFile (path : String)
  /-- A directory to be made is a link to nothing. -/
  | directoryIsDangling (path : String)
  /-- A directory to be made has no directory to lie in. -/
  | directoryHasNoParent (path : String)
  /-- The file system does not tell what stands at a path. -/
  | unknownEntry (path : String) (fault : DiskFault)
  | referenceMissing (reference : String)
  | referenceInvalid (reference : String)
  | emptyUrl
  | unsupportedProtocol
  /-- A directory without a repository. -/
  | noRepository (path : String)
  /-- A url of a file that is not there. -/
  | unresolvedPath (path : String)
  | nulByte
  | remoteExists (name : String)
  | remoteInvalid (name : String)
deriving DecidableEq, Repr

/-- The text of a fault, with its class and code. -/
def GitFault.message : GitFault → String
  | .targetNotEmpty path =>
    "'" ++ path ++ "' exists and is not an empty directory; class=Invalid (3); code=Exists (-4)"
  | .directoryIsFile path =>
    "failed to make directory '" ++ path ++
      "': directory exists; class=Filesystem (30); code=Exists (-4)"
  | .directoryIsDangling path =>
    "failed to make directory '" ++ path ++
      "': No such file or directory; class=Os (2); code=Exists (-4)"
  | .directoryHasNoParent path =>
    "failed to make directory '" ++ path ++ "': No such file or directory; class=Os (2)"
  | .unknownEntry path fault =>
    "failed to stat '" ++ path ++ "': " ++ fault.description.1 ++ "; class=Os (2)"
  | .referenceMissing reference =>
    "reference '" ++ reference ++ "' not found; class=Reference (4); code=NotFound (-3)"
  | .referenceInvalid reference =>
    "the given reference name '" ++ reference ++
      "' is not valid; class=Reference (4); code=InvalidSpec (-12)"
  | .emptyUrl => "cannot set empty URL; class=Invalid (3)"
  | .unsupportedProtocol => "unsupported URL protocol; class=Net (12)"
  | .noRepository path =>
    "could not find repository from '" ++ path ++ "'; class=Repository (6); code=NotFound (-3)"
  | .unresolvedPath path =>
    "failed to resolve path '" ++ path ++ "': No such file or directory; class=Os (2)"
  | .nulByte => "data contained a nul byte that could not be represented as a string"
  | .remoteExists name =>
    "remote '" ++ name ++ "' already exists; class=Config (7); code=Exists (-4)"
  | .remoteInvalid name =>
    "'" ++ name ++ "' is not a valid remote name.; class=Config (7); code=InvalidSpec (-12)"

end PreviewInstaller

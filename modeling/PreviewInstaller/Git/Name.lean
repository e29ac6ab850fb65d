import PreviewInstaller.Text.Pieces

set_option autoImplicit false

/-! # Names of references and remotes

A reference is a path of parts. Which parts can stand in it is the same for branches and remotes.
The name of a branch is the end of its reference, which does not end in a dot or a slash, while that
of a remote stands in the middle of one. -/

namespace PreviewInstaller.Git

/-- Whether a character cannot stand in a reference. -/
def isForbidden (c : Char) : Bool :=
  c.toNat ≤ 0x20 || ['~', '^', ':', '\\', '?', '[', '*'].contains c

/-- Whether a part can stand between the slashes of a reference. -/
def isPart (part : List Char) : Bool :=
  !part.isEmpty && part.head? ≠ some '.' && !(".lock".toList.isSuffixOf part) &&
    !part.any isForbidden && !Text.contains ['.', '.'] part && !Text.contains ['@', '\x7b'] part

/-- The parts of a name. -/
def parts (name : String) : List (List Char) :=
  Text.pieces '/' name.toList

/-- Whether a remote can have the name: every part of it can stand in a reference. -/
def isRemoteName (name : String) : Bool :=
  (parts name).all isPart

/-- Whether a branch can be asked for by the name. Slashes may stand together before the last
part. -/
def isBranchName (name : String) : Bool :=
  (parts name).getLast? ≠ some [] && name.toList.getLast? ≠ some '.' &&
    (parts name).all fun part => part.isEmpty || isPart part

/-- The branch that is meant by a name: slashes that stand together are one, and one in front is
none. -/
def branchOf (name : String) : String :=
  String.ofList (Text.joined '/' ((parts name).filter (· ≠ [])))

/-- The name that a branch gets in a clone when it is asked for by a name: the common part of the
references of branches is not part of it. -/
def localName (name : String) : String :=
  (Text.after? "refs/heads/" name).getD name

end PreviewInstaller.Git

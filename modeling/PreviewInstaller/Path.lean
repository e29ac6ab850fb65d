import PreviewInstaller.Text.Pieces

set_option autoImplicit false

/-! # Paths

A path is the text that names a place in a file tree. Paths are joined as text, and what they name
is told by their components: empty pieces and `.` name nothing, and `..` is kept, because what it
names depends on the tree. -/

namespace PreviewInstaller

/-- The text that names a place in a file tree. -/
structure Path where
  text : String
deriving DecidableEq, Repr, Inhabited

namespace Path

/-- Whether a path starts at the root. -/
def isAbsolute (path : Path) : Bool :=
  path.text.toList.head? = some '/'

/-- Whether the text of a path ends in a slash. -/
def endsInSlash (path : Path) : Bool :=
  path.text.toList.getLast? = some '/'

/-- The path of `inner` seen from `outer`: an absolute `inner` stands for itself, and a slash comes
between the two unless there is one or `outer` is empty. -/
def join (outer : Path) (inner : String) : Path :=
  if Path.isAbsolute ⟨inner⟩ then ⟨inner⟩
  else if outer.text = "" ∨ outer.endsInSlash then ⟨outer.text ++ inner⟩
  else ⟨outer.text ++ "/" ++ inner⟩

/-- The names that a path consists of, without those that name nothing. -/
def components (path : Path) : List String :=
  ((Text.pieces '/' path.text.toList).map String.ofList).filter fun name =>
    name ≠ "" && name ≠ "."

/-- Whether a path has a NUL byte, which no file system takes. -/
def hasNul (path : Path) : Bool :=
  path.text.toList.contains '\x00'

end Path

end PreviewInstaller

import PreviewInstaller.Json.Basic
import PreviewInstaller.TextMap

set_option autoImplicit false

/-! # Merge patches

A patch that is an object changes the members it names: `null` removes one, and any other value is
merged into what stands there. A patch that is no object replaces the value. -/

namespace PreviewInstaller.Json

mutual

/-- A value with a patch merged into it. -/
def merge (target : Json) : Json → Json
  | .object changes => .object (mergeMembers (target.members?.getD []) changes)
  | patch => patch

/-- Members with the changes of a patch merged into them one after another. -/
def mergeMembers (members : List (String × Json)) : List (String × Json) → List (String × Json)
  | [] => members
  | (key, change) :: rest =>
    if change.isNull then mergeMembers (members.filter (·.1 ≠ key)) rest
    else
      mergeMembers
        (TextMap.put key (merge ((TextMap.find? key members).getD .null) change) members) rest

end

end PreviewInstaller.Json

import PreviewInstaller.Json.Token

set_option autoImplicit false

/-! # Reading JSON values

Values are built from tokens by a machine with a stack of the arrays and objects that are still
open, so nesting has no limit. Text is read as one value and nothing beside it. -/

namespace PreviewInstaller.Json

/-- An array or object that is still open; what it holds so far is in reverse. -/
inductive Frame where
  | array (elements : List Json)
  /-- The member under way has the key `key`. -/
  | object (members : List (Option String × Json)) (key : Option String)

/-- What the machine waits for. -/
inductive State where
  /-- A value. -/
  | value (stack : List Frame)
  /-- The first element of an array, or its end. -/
  | element (stack : List Frame)
  /-- The first key of an object, or its end. -/
  | member (stack : List Frame)
  /-- The next key of an object. -/
  | key (members : List (Option String × Json)) (stack : List Frame)
  /-- The colon behind a key. -/
  | colon (members : List (Option String × Json)) (key : Option String) (stack : List Frame)
  /-- What follows a finished value. -/
  | after (value : Json) (stack : List Frame)

/-- The object with these members, unless a key has no meaning. -/
def ofMembers (members : List (Option String × Json)) : Json :=
  match members.mapM fun (key, value) => key.map (·, value) with
  | some members => .object members
  | none => .unreadable

/-- The step at a value, after which the arrays and objects of `stack` are open. -/
def beginValue? (stack : List Frame) : Token → Option State
  | .openArray => some (.element stack)
  | .openObject => some (.member stack)
  | .text content => some (.after (match content with
    | some value => .text value
    | none => .unreadable) stack)
  | .scalar value => some (.after value stack)
  | _ => none

/-- One step of the machine. -/
def advance? (state : State) (token : Token) : Option State :=
  match state with
  | .value stack => beginValue? stack token
  | .element stack =>
    match token with
    | .closeArray => some (.after (.array []) stack)
    | token => beginValue? (.array [] :: stack) token
  | .member stack =>
    match token with
    | .closeObject => some (.after (.object []) stack)
    | .text key => some (.colon [] key stack)
    | _ => none
  | .key members stack =>
    match token with
    | .text key => some (.colon members key stack)
    | _ => none
  | .colon members key stack =>
    match token with
    | .colon => some (.value (.object members key :: stack))
    | _ => none
  | .after value stack =>
    match stack, token with
    | .array elements :: stack, .comma => some (.value (.array (value :: elements) :: stack))
    | .array elements :: stack, .closeArray =>
      some (.after (.array (value :: elements).reverse) stack)
    | .object members key :: stack, .comma => some (.key ((key, value) :: members) stack)
    | .object members key :: stack, .closeObject =>
      some (.after (ofMembers ((key, value) :: members).reverse) stack)
    | _, _ => none

/-- The one value that a text consists of. -/
def parse? (text : List Char) : Option Json := do
  let tokens ← tokens? text
  match ← tokens.foldlM advance? (.value []) with
  | .after value [] => some value
  | _ => none

/-- The one value that a text consists of. -/
def ofText? (text : String) : Option Json :=
  parse? text.toList

end PreviewInstaller.Json

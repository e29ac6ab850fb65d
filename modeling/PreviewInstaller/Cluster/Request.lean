import PreviewInstaller.Json.Basic
import PreviewInstaller.Text.Utf8

set_option autoImplicit false

/-! # Requests to the cluster

A request reads, creates, replaces or patches one object of a collection. Its uri is made of the
names as they are: everything from the first `#` on is cut off, and a byte that no uri can hold
makes the request impossible. -/

namespace PreviewInstaller.Cluster

/-- The collections of objects that requests address. -/
inductive Collection where
  | namespaces
  | secrets (namespaceName : String)
  | configMaps (namespaceName : String)
  | deployments (namespaceName : String)
deriving DecidableEq, Repr

/-- The path of a collection. -/
def Collection.path : Collection → String
  | .namespaces => "/api/v1/namespaces"
  | .secrets name => "/api/v1/namespaces/" ++ name ++ "/secrets"
  | .configMaps name => "/api/v1/namespaces/" ++ name ++ "/configmaps"
  | .deployments name => "/apis/apps/v1/namespaces/" ++ name ++ "/deployments"

/-- What a request does with an object. -/
inductive Request where
  | get (collection : Collection) (name : String)
  | create (collection : Collection) (body : Json)
  | replace (collection : Collection) (name : String) (body : Json)
  /-- Merges the body into the object: members replace members, and `null` removes one. -/
  | mergePatch (collection : Collection) (name : String) (body : Json)

namespace Request

/-- The collection that a request addresses. -/
def collection : Request → Collection
  | .get collection _ | .create collection _ | .replace collection _ _
  | .mergePatch collection _ _ => collection

/-- The HTTP method. -/
def method : Request → String
  | .get .. => "GET"
  | .create .. => "POST"
  | .replace .. => "PUT"
  | .mergePatch .. => "PATCH"

/-- The body, where there is one. -/
def body? : Request → Option Json
  | .get .. => none
  | .create _ body | .replace _ _ body | .mergePatch _ _ body => some body

/-- The content type of the body. -/
def contentType? : Request → Option String
  | .get .. => none
  | .create .. | .replace .. => some "application/json"
  | .mergePatch .. => some "application/merge-patch+json"

/-- Path and query as the names give them. -/
def target : Request → String
  | .get collection name => collection.path ++ "/" ++ name
  | .create collection _ => collection.path ++ "?"
  | .replace collection name _ | .mergePatch collection name _ =>
    collection.path ++ "/" ++ name ++ "?"

end Request

/-! ## Uris -/

/-- Whether a uri can hold the byte before its first question mark. -/
def isPathByte (byte : Nat) : Bool :=
  byte = 0x21 || byte = 0x22 || (0x24 ≤ byte && byte ≤ 0x3B) || byte = 0x3D ||
    (0x40 ≤ byte && byte ≤ 0x5F) || (0x61 ≤ byte && byte ≤ 0x7E)

/-- Whether a uri can hold the byte after its first question mark. -/
def isQueryByte (byte : Nat) : Bool :=
  byte = 0x21 || (0x24 ≤ byte && byte ≤ 0x3B) || byte = 0x3D || (0x3F ≤ byte && byte ≤ 0x7E)

/-- Whether all bytes of a target can stand in a uri. -/
def isTarget (target : List Char) : Bool :=
  let path := target.takeWhile (· ≠ '?')
  let query := (target.dropWhile (· ≠ '?')).drop 1
  (Text.utf8 path).all (fun byte => isPathByte byte.toNat) &&
    (Text.utf8 query).all fun byte => isQueryByte byte.toNat

/-- The uri of a request; `none` if a name holds a byte that no uri can hold. -/
def Request.uri? (request : Request) : Option String :=
  let target := request.target.toList.takeWhile (· ≠ '#')
  if isTarget target then some (String.ofList target) else none

end PreviewInstaller.Cluster

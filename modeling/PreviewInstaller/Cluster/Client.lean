import PreviewInstaller.Cluster.Object
import PreviewInstaller.Cluster.Deployment
import PreviewInstaller.Procedure

set_option autoImplicit false

/-! # The cluster client

Each call sends at most one request and reads the object that the reply carries. A request whose uri
cannot be written is not sent. -/

namespace PreviewInstaller.Cluster

variable {α : Type}

/-- Sends a request and reads the object in the reply. -/
def call (codec : Codec α) (request : Request) : Task ClientFault α :=
  match request.uri? with
  | none => throw .unbuildable
  | some _ => do Task.orThrow id ((← Task.send request).decode codec)

/-- Reads an object. -/
def get (codec : Codec α) (collection : Collection) (name : String) : Task ClientFault α :=
  call codec (.get collection name)

/-- Creates an object and reads it as it was stored. -/
def create (codec : Codec α) (collection : Collection) (value : α) : Task ClientFault α :=
  call codec (.create collection (codec.write value))

/-- Replaces an object and reads it as it was stored. -/
def replace (codec : Codec α) (collection : Collection) (name : String) (value : α) :
    Task ClientFault α :=
  call codec (.replace collection name (codec.write value))

/-- Merges a patch into an object and reads the object as it was stored. -/
def mergePatch (codec : Codec α) (collection : Collection) (name : String) (patch : Json) :
    Task ClientFault α :=
  call codec (.mergePatch collection name patch)

end PreviewInstaller.Cluster

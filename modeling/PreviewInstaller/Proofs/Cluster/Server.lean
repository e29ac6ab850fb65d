import Mathlib.Logic.Function.Basic
import PreviewInstaller.Cluster.Request
import PreviewInstaller.Proofs.Cluster.Deployment
import PreviewInstaller.Proofs.Cluster.Object
import PreviewInstaller.Proofs.Cluster.Reply
import PreviewInstaller.Proofs.Json.Merge

set_option autoImplicit false

/-! # A server of the cluster

A server keeps objects under their names and answers requests from what it keeps. What it is free
to choose are the bodies it answers with, the versions it assigns and the other fields that it fills
in by itself, all of which can be different each time; `content` is what it has to keep of an object
that it is given. Its objects are dated to the second, as the interface of the cluster dates them.

A server may check versions: then it refuses to replace an object by one that was made from another
version of it. -/

namespace PreviewInstaller.Cluster

/-! ## Objects -/

/-- The objects of a collection. -/
abbrev Collection.Object : Collection → Type
  | .namespaces => Namespace
  | .secrets _ => Secret
  | .configMaps _ => ConfigMap
  | .deployments _ => Deployment

namespace Collection

/-- The codec of the objects of a collection. -/
abbrev codec : (collection : Collection) → Codec collection.Object
  | .namespaces => Namespace.codec
  | .secrets _ => Secret.codec
  | .configMaps _ => ConfigMap.codec
  | .deployments _ => Deployment.codec

/-- The metadata of an object. -/
def metadata : (collection : Collection) → collection.Object → Metadata
  | .namespaces => Namespace.metadata
  | .secrets _ => Secret.metadata
  | .configMaps _ => ConfigMap.metadata
  | .deployments _ => Deployment.metadata

/-- An object with other metadata. -/
def withMetadata : (collection : Collection) → collection.Object → Metadata → collection.Object
  | .namespaces, object, metadata => { object with metadata }
  | .secrets _, object, metadata => { object with metadata }
  | .configMaps _, object, metadata => { object with metadata }
  | .deployments _, object, metadata => { object with metadata }

/-- The namespace that holds the objects of a collection. -/
def namespaceName? : Collection → Option String
  | .namespaces => none
  | .secrets name | .configMaps name | .deployments name => some name

/-- An object with a version. -/
def withVersion (collection : Collection) (object : collection.Object) (version : Option String) :
    collection.Object :=
  collection.withMetadata object { collection.metadata object with resourceVersion := version }

/-- An object without its version. -/
def unversioned (collection : Collection) (object : collection.Object) : collection.Object :=
  collection.withVersion object none

end Collection

/-- Metadata without the fields that the server fills in. -/
def Metadata.content (metadata : Metadata) : Metadata :=
  { metadata with
    creationTimestamp := none
    deletionGracePeriodSeconds := none
    deletionTimestamp := none
    generation := none
    managedFields := none
    resourceVersion := none
    selfLink := none
    uid := none }

/-- An object without what the server fills in. Namespaces get their labels and finalizers from the
server, and the status of an object is its own account of it. -/
def Collection.content : (collection : Collection) → collection.Object → collection.Object
  | .namespaces, object =>
    { metadata := { object.metadata.content with labels := none } }
  | .secrets _, object => { object with metadata := object.metadata.content }
  | .configMaps _, object => { object with metadata := object.metadata.content }
  | .deployments _, object =>
    { object with metadata := object.metadata.content, status := none }

/-! ## The store -/

/-- The objects that a server keeps, under the names of their collections. -/
abbrev Objects := (collection : Collection) → String → Option collection.Object

/-- The objects with another one under a name. -/
def Objects.put (objects : Objects) (collection : Collection) (name : String)
    (object : collection.Object) : Objects :=
  Function.update objects collection (Function.update (objects collection) name (some object))

/-- What a server keeps: its objects, and how many requests it has answered. -/
structure Store where
  objects : Objects
  served : Nat

/-! ## The server -/

/-- A server, told by what it is free to choose at each request. -/
structure Server where
  /-- Whether objects made from another version are refused. -/
  checksVersions : Bool
  /-- The object that is kept for one that was sent, given the one that it replaces. -/
  fill : Nat → (collection : Collection) → Option collection.Object → collection.Object →
    collection.Object
  /-- The reply that tells an object. -/
  tell : Nat → (collection : Collection) → collection.Object → Reply
  /-- The reply that refuses a request with a code. -/
  refuse : Nat → UInt16 → Reply
  content_fill : ∀ count (collection : Collection) old object,
    collection.content (fill count collection old object) = collection.content object
  decode_tell : ∀ count (collection : Collection) object,
    (tell count collection object).decode collection.codec = .ok object
  decode_refuse : ∀ count code {α : Type} (codec : Codec α), ∃ refusal : Refusal,
    refusal.code = code ∧ (refuse count code).decode codec = .error (.refused refusal)

namespace Server

variable (server : Server)

/-- Whether an object was made from another version than the one that is kept. -/
def isStale (collection : Collection) (old object : collection.Object) : Bool :=
  server.checksVersions && (collection.metadata object).resourceVersion.any fun version =>
    (collection.metadata old).resourceVersion ≠ some version

/-- Whether the namespace that holds the objects of a collection exists. -/
def holds (objects : Objects) (collection : Collection) : Bool :=
  collection.namespaceName?.all fun name => (objects .namespaces name).isSome

/-- What becomes of a request: the code it is refused with, or the object it is answered with and
the name that this is kept under from now on. -/
def judge (store : Store) :
    (request : Request) → Except UInt16 (request.collection.Object × Option String)
  | .get collection name =>
    match store.objects collection name with
    | none => .error 404
    | some object => .ok (object, none)
  | .create collection body =>
    match collection.codec.read body with
    | none => .error 422
    | some object =>
      match (collection.metadata object).name with
      | none => .error 422
      | some name =>
        if holds store.objects collection = false then .error 404
        else if (store.objects collection name).isSome then .error 409
        else .ok (server.fill store.served collection none object, some name)
  | .replace collection name body =>
    match collection.codec.read body, store.objects collection name with
    | none, _ => .error 422
    | some _, none => .error 404
    | some object, some old =>
      if server.isStale collection old object then .error 409
      else .ok (server.fill store.served collection (some old) object, some name)
  | .mergePatch collection name patch =>
    match store.objects collection name with
    | none => .error 404
    | some old =>
      match collection.codec.read ((collection.codec.write old).merge patch) with
      | none => .error 422
      | some object =>
        if server.isStale collection old object then .error 409
        else .ok (server.fill store.served collection (some old) object, some name)

/-- The reply to a request, and what is kept after it. -/
def serve (store : Store) (request : Request) : Reply × Store :=
  match server.judge store request with
  | .error code => (server.refuse store.served code, { store with served := store.served + 1 })
  | .ok (object, none) =>
    (server.tell store.served request.collection object,
      { store with served := store.served + 1 })
  | .ok (object, some name) =>
    (server.tell store.served request.collection object,
      { objects := store.objects.put request.collection name object
        served := store.served + 1 })

/-- The name under which another object is kept after a request, if there is one. -/
def written? (store : Store) (request : Request) : Option String :=
  match server.judge store request with
  | .ok (_, written) => written
  | .error _ => none

end Server

/-! ## Laws -/

theorem Collection.lawful_codec (collection : Collection) : collection.codec.Lawful := by
  cases collection with
  | namespaces => exact Namespace.lawful_codec
  | secrets name => exact Secret.lawful_codec
  | configMaps name => exact ConfigMap.lawful_codec
  | deployments name => exact Deployment.lawful_codec

namespace Server

variable {server : Server} {store : Store} {request : Request}

section Verdicts

variable (server) {collection : Collection} {name : String} {object old : collection.Object}

theorem judge_get_none (h : store.objects collection name = none) :
    server.judge store (.get collection name) = .error 404 := by
  rw [judge, h]

theorem judge_get_some (h : store.objects collection name = some object) :
    server.judge store (.get collection name) = .ok (object, none) := by
  rw [judge, h]

/-- No object is created where its namespace is missing. -/
theorem judge_create_missing (hname : (collection.metadata object).name = some name)
    (h : holds store.objects collection = false) :
    server.judge store (.create collection (collection.codec.write object)) = .error 404 := by
  simp only [judge, collection.lawful_codec.read_write, hname, h, if_true]

/-- No object is created where one has its name. -/
theorem judge_create_conflict (hname : (collection.metadata object).name = some name)
    (hholds : holds store.objects collection = true)
    (h : (store.objects collection name).isSome = true) :
    server.judge store (.create collection (collection.codec.write object)) = .error 409 := by
  simp only [judge, collection.lawful_codec.read_write, hname, hholds, h, if_true,
    Bool.true_eq_false, if_false]

theorem judge_create (hname : (collection.metadata object).name = some name)
    (hholds : holds store.objects collection = true) (h : store.objects collection name = none) :
    server.judge store (.create collection (collection.codec.write object)) =
      .ok (server.fill store.served collection none object, some name) := by
  simp only [judge, collection.lawful_codec.read_write, hname, hholds, h, Option.isSome_none,
    Bool.true_eq_false, Bool.false_eq_true, if_false]

theorem judge_replace_missing (h : store.objects collection name = none)
    (object : collection.Object) :
    server.judge store (.replace collection name (collection.codec.write object)) =
      .error 404 := by
  simp only [judge, collection.lawful_codec.read_write, h]

/-- No object is replaced by one that was made from another version of it. -/
theorem judge_replace_stale (h : store.objects collection name = some old)
    (hstale : server.isStale collection old object = true) :
    server.judge store (.replace collection name (collection.codec.write object)) =
      .error 409 := by
  simp only [judge, collection.lawful_codec.read_write, h, hstale, if_true]

theorem judge_replace (h : store.objects collection name = some old)
    (hstale : server.isStale collection old object = false) :
    server.judge store (.replace collection name (collection.codec.write object)) =
      .ok (server.fill store.served collection (some old) object, some name) := by
  simp only [judge, collection.lawful_codec.read_write, h, hstale, Bool.false_eq_true, if_false]

theorem judge_mergePatch_missing (h : store.objects collection name = none) (patch : Json) :
    server.judge store (.mergePatch collection name patch) = .error 404 := by
  simp only [judge, h]

theorem judge_mergePatch {patch : Json} (h : store.objects collection name = some old)
    (hread : collection.codec.read ((collection.codec.write old).merge patch) = some object)
    (hstale : server.isStale collection old object = false) :
    server.judge store (.mergePatch collection name patch) =
      .ok (server.fill store.served collection (some old) object, some name) := by
  simp only [judge, h, hread, hstale, Bool.false_eq_true, if_false]

/-- An object with the version of another one is not stale. -/
theorem isStale_eq_false
    (h : (collection.metadata object).resourceVersion = (collection.metadata old).resourceVersion) :
    server.isStale collection old object = false := by
  rw [isStale, h]
  cases (collection.metadata old).resourceVersion <;> simp

/-- An object is only created where there is none, under its own name. -/
theorem judge_create_ok {stored : collection.Object} {name' : String}
    (hname : (collection.metadata object).name = some name)
    (h : server.judge store (.create collection (collection.codec.write object)) =
      .ok (stored, some name')) :
    name' = name ∧ stored = server.fill store.served collection none object ∧
      store.objects collection name = none := by
  simp only [judge, collection.lawful_codec.read_write, hname] at h
  split at h
  · cases h
  split at h
  · cases h
  · next hnone =>
    cases h
    exact ⟨rfl, rfl, by simpa using hnone⟩

theorem judge_replace_ok {stored : collection.Object} {name' : String}
    (h : server.judge store (.replace collection name (collection.codec.write object)) =
      .ok (stored, some name')) :
    name' = name ∧ ∃ old, stored = server.fill store.served collection old object := by
  simp only [judge, collection.lawful_codec.read_write] at h
  split at h
  · cases h
  · cases h
  · next heq hkept =>
    cases heq
    split at h
    · cases h
    · cases h
      exact ⟨rfl, _, rfl⟩

theorem judge_mergePatch_ok {stored : collection.Object} {name' : String} {patch : Json}
    (h : server.judge store (.mergePatch collection name patch) = .ok (stored, some name')) :
    name' = name ∧ ∃ old object, store.objects collection name = some old ∧
      collection.codec.read ((collection.codec.write old).merge patch) = some object ∧
      stored = server.fill store.served collection (some old) object := by
  simp only [judge] at h
  split at h
  · cases h
  · next old hold =>
    split at h
    · cases h
    · next object hread =>
      split at h
      · cases h
      · cases h
        exact ⟨rfl, old, object, hold, hread, rfl⟩

end Verdicts

/-- A request that is refused changes nothing. -/
theorem serve_refused {code : UInt16} {α : Type} (codec : Codec α)
    (h : server.judge store request = .error code) :
    (∃ fault : ClientFault, (server.serve store request).1.decode codec = .error fault ∧
        fault.isNotFound = decide (code = 404)) ∧
      (server.serve store request).2.objects = store.objects ∧
      server.written? store request = none := by
  rw [serve, written?, h]
  obtain ⟨refusal, hcode, hdecode⟩ := server.decode_refuse store.served code codec
  refine ⟨⟨.refused refusal, hdecode, ?_⟩, rfl, rfl⟩
  rw [ClientFault.isNotFound, hcode]

/-- A request that reads is answered with the object. -/
theorem serve_read {object : request.collection.Object}
    (h : server.judge store request = .ok (object, none)) :
    (server.serve store request).1.decode request.collection.codec = .ok object ∧
      (server.serve store request).2.objects = store.objects ∧
      server.written? store request = none := by
  rw [serve, written?, h]
  exact ⟨server.decode_tell _ _ _, rfl, rfl⟩

/-- A request that writes is answered with the object that is kept. -/
theorem serve_write {object : request.collection.Object} {name : String}
    (h : server.judge store request = .ok (object, some name)) :
    (server.serve store request).1.decode request.collection.codec = .ok object ∧
      (server.serve store request).2.objects =
        store.objects.put request.collection name object ∧
      server.written? store request = some name := by
  rw [serve, written?, h]
  exact ⟨server.decode_tell _ _ _, rfl, rfl⟩

end Server

namespace Objects

variable {objects : Objects} {collection other : Collection} {name name' : String}
  {object : collection.Object}

@[simp]
theorem put_self : objects.put collection name object collection name = some object := by
  simp [put]

theorem updated_of_ne {object? : Option collection.Object}
    (h : (other, name') ≠ (collection, name)) :
    Function.update objects collection (Function.update (objects collection) name object?) other
      name' = objects other name' := by
  by_cases hcollection : other = collection
  · subst hcollection
    have hname : name' ≠ name := fun hname => h (by rw [hname])
    simp [Function.update_of_ne hname]
  · simp [Function.update_of_ne hcollection]

/-- What is kept under any other name stays. -/
theorem put_of_ne (h : (other, name') ≠ (collection, name)) :
    objects.put collection name object other name' = objects other name' :=
  updated_of_ne h

/-- Of two objects that are put under one name only the second is kept. -/
theorem put_put {object' : collection.Object} :
    (objects.put collection name object).put collection name object' =
      objects.put collection name object' := by
  simp [put]

/-- The same objects, perhaps in other versions. -/
def SameUpToVersions (first second : Objects) : Prop :=
  ∀ collection name, (first collection name).map collection.unversioned =
    (second collection name).map collection.unversioned

theorem SameUpToVersions.refl (objects : Objects) : objects.SameUpToVersions objects :=
  fun _ _ => rfl

theorem SameUpToVersions.put {first second : Objects} {object' : collection.Object}
    (h : first.SameUpToVersions second)
    (hobject : collection.unversioned object = collection.unversioned object') :
    (first.put collection name object).SameUpToVersions
      (second.put collection name object') := by
  intro other name'
  by_cases hname : (other, name') = (collection, name)
  · cases hname
    rw [put_self, put_self, Option.map_some, Option.map_some, hobject]
  · rw [put_of_ne hname, put_of_ne hname]
    exact h other name'

end Objects

theorem Collection.unversioned_withVersion (collection : Collection)
    (object : collection.Object) (version : Option String) :
    collection.unversioned (collection.withVersion object version) =
      collection.unversioned object := by
  cases collection <;> rfl

/-- The server fills in nothing but versions. -/
def Server.OnlyVersions (server : Server) : Prop :=
  ∀ count collection old object, ∃ version,
    server.fill count collection old object = collection.withVersion object version

theorem Server.OnlyVersions.unversioned_fill {server : Server} (h : server.OnlyVersions)
    (count : Nat) (collection : Collection) (old : Option collection.Object)
    (object : collection.Object) :
    collection.unversioned (server.fill count collection old object) =
      collection.unversioned object := by
  obtain ⟨version, hversion⟩ := h count collection old object
  rw [hversion, collection.unversioned_withVersion]

/-- The server keeps what it is sent as it is. -/
def Server.FillsNothing (server : Server) : Prop :=
  ∀ count collection old object, server.fill count collection old object = object

/-- What is kept is the same as far as the server does not fill it in by itself. -/
structure Server.Agree (server : Server) (collection : Collection)
    (first second : Option collection.Object) : Prop where
  content : first.map collection.content = second.map collection.content
  unversioned : server.OnlyVersions →
    first.map collection.unversioned = second.map collection.unversioned
  same : server.FillsNothing → first = second

namespace Server.Agree

variable {server : Server} {collection : Collection}
  {first second third : Option collection.Object}

theorem refl (first : Option collection.Object) : server.Agree collection first first :=
  ⟨rfl, fun _ => rfl, fun _ => rfl⟩

theorem symm (h : server.Agree collection first second) : server.Agree collection second first :=
  ⟨h.content.symm, fun hversions => (h.unversioned hversions).symm,
    fun hnothing => (h.same hnothing).symm⟩

theorem trans (h : server.Agree collection first second)
    (h' : server.Agree collection second third) : server.Agree collection first third :=
  ⟨h.content.trans h'.content,
    fun hversions => (h.unversioned hversions).trans (h'.unversioned hversions),
    fun hnothing => (h.same hnothing).trans (h'.same hnothing)⟩

/-- A server keeps what it was sent. -/
theorem of_fill (count : Nat) (old : Option collection.Object) (object : collection.Object) :
    server.Agree collection (some (server.fill count collection old object)) (some object) where
  content := congrArg some (server.content_fill count collection old object)
  unversioned hversions := congrArg some (hversions.unversioned_fill count collection old object)
  same hnothing := congrArg some (hnothing count collection old object)

/-- A change that does not look at what the server fills in makes the same of the same objects. -/
theorem map {change : collection.Object → collection.Object}
    (hcontent : ∀ object, collection.content (change object) = change (collection.content object))
    (hunversioned : ∀ object,
      collection.unversioned (change object) = change (collection.unversioned object))
    (h : server.Agree collection first second) :
    server.Agree collection (first.map change) (second.map change) where
  content := by
    have hfirst := congrArg (Option.map change) h.content
    simpa only [Option.map_map, Function.comp_def, hcontent] using hfirst
  unversioned hversions := by
    have hfirst := congrArg (Option.map change) (h.unversioned hversions)
    simpa only [Option.map_map, Function.comp_def, hunversioned] using hfirst
  same hnothing := congrArg (Option.map change) (h.same hnothing)

end Server.Agree

/-- The server that fills in nothing but versions, which are the numbers of requests. -/
def Server.numbering (checksVersions : Bool) : Server where
  checksVersions
  fill count collection _ object := collection.withVersion object (some (toString count))
  tell _ collection object := tellingReply collection.codec object
  refuse _ code := refusingReply code
  content_fill _ collection _ _ := by cases collection <;> rfl
  decode_tell _ collection object := decode_tellingReply collection.lawful_codec object
  decode_refuse _ code _ codec := decode_refusingReply codec code

theorem Server.onlyVersions_numbering (checksVersions : Bool) :
    (numbering checksVersions).OnlyVersions :=
  fun count _ _ _ => ⟨some (toString count), rfl⟩

/-- The server that keeps what it is sent as it is. -/
def Server.keeping (checksVersions : Bool) : Server where
  checksVersions
  fill _ _ _ object := object
  tell _ collection object := tellingReply collection.codec object
  refuse _ code := refusingReply code
  content_fill _ _ _ _ := rfl
  decode_tell _ collection object := decode_tellingReply collection.lawful_codec object
  decode_refuse _ code _ codec := decode_refusingReply codec code

theorem Server.fillsNothing_keeping (checksVersions : Bool) :
    (keeping checksVersions).FillsNothing :=
  fun _ _ _ _ => rfl

end PreviewInstaller.Cluster

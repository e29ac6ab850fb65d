import Mathlib.Data.List.TakeWhile
import PreviewInstaller.Proofs.Cluster.Exchange

set_option autoImplicit false

/-! # Accesses

A request is for an access: a method and the object that it is for. An object that is created has
its name in the body of the request, and every other one in the path, so the access says where the
request is sent. A talk stays within accesses if each of its requests is for one of them. -/

namespace PreviewInstaller.Cluster

/-! ## What a request is about -/

/-- A method and the object that it is for. -/
structure Access where
  method : String
  collection : Collection
  name : String
deriving DecidableEq

/-- The uri of an access: a new object is sent to its collection. -/
def Access.uri (access : Access) : String :=
  if access.method = "POST" then access.collection.path ++ "?"
  else if access.method = "GET" then access.collection.path ++ "/" ++ access.name
  else access.collection.path ++ "/" ++ access.name ++ "?"

/-- The name of the object that a request is about. A new object is named by the body. -/
def Request.name? : Request → Option String
  | .get _ name | .replace _ name _ | .mergePatch _ name _ => some name
  | .create collection body =>
    (collection.codec.read body).bind fun object => (collection.metadata object).name

/-- A new object is read with the name that it was written with. -/
theorem Request.name?_create (collection : Collection) (object : collection.Object) :
    (Request.create collection (collection.codec.write object)).name? =
      (collection.metadata object).name := by
  rw [Request.name?, collection.lawful_codec.read_write, Option.bind_some]

/-- The request is for an access. -/
structure Request.IsFor (request : Request) (access : Access) : Prop where
  method : request.method = access.method
  collection : request.collection = access.collection
  name : request.name? = some access.name

theorem Request.IsFor.target_eq {request : Request} {access : Access} (h : request.IsFor access) :
    request.target = access.uri := by
  obtain ⟨method, collection, name⟩ := access
  obtain ⟨rfl, rfl, hname⟩ := h
  cases request with
  | create => rfl
  | _ =>
    obtain rfl := Option.some.inj hname
    rfl

/-- Whether the uri that an access needs can be written. -/
def Access.isSendable (access : Access) : Bool :=
  access.uri.toList.all (· ≠ '#') && isTarget access.uri.toList

theorem Request.IsFor.uri?_eq {request : Request} {access : Access} (h : request.IsFor access)
    (hsendable : access.isSendable = true) : request.uri? = some access.uri := by
  obtain ⟨hwhole, htarget⟩ := Bool.and_eq_true_iff.1 hsendable
  have htake : access.uri.toList.takeWhile (· ≠ '#') = access.uri.toList :=
    List.takeWhile_eq_self_iff.2 (List.all_eq_true.1 hwhole)
  unfold Request.uri?
  rw [h.target_eq]
  simp only [htake, htarget, if_true, String.ofList_toList]

/-- A search for a deployment that succeeds finds it under the name that was asked for, and in the
namespace that was asked for or in none. -/
def FindsAsAsked (talk : List Exchange) : Prop :=
  ∀ exchange ∈ talk, ∀ namespaceName name found,
    exchange.request = .get (.deployments namespaceName) name →
      exchange.reply.decode Deployment.codec = .ok found →
        found.metadata.name = some name ∧
          (found.metadata.namespaceName = some namespaceName ∨
            found.metadata.namespaceName = none)

theorem FindsAsAsked.mono {talk part : List Exchange} (h : FindsAsAsked talk)
    (hpart : ∀ exchange ∈ part, exchange ∈ talk) : FindsAsAsked part :=
  fun exchange hmem => h exchange (hpart exchange hmem)

/-- Every request is for one of these accesses, and is sent to where that belongs. -/
def StaysWithin (accesses : List Access) (talk : List Exchange) : Prop :=
  ∀ exchange ∈ talk, ∃ access ∈ accesses,
    exchange.request.IsFor access ∧ exchange.request.uri? = some access.uri

theorem staysWithin_of_isFor {accesses : List Access} {talk : List Exchange}
    (hsendable : ∀ access ∈ accesses, access.isSendable = true)
    (h : ∀ exchange ∈ talk, ∃ access ∈ accesses, exchange.request.IsFor access) :
    StaysWithin accesses talk := by
  intro exchange hmem
  obtain ⟨access, haccess, hfor⟩ := h exchange hmem
  exact ⟨access, haccess, hfor, hfor.uri?_eq (hsendable access haccess)⟩

theorem StaysWithin.mono {accesses wider : List Access} {talk : List Exchange}
    (h : StaysWithin accesses talk) (hle : ∀ access ∈ accesses, access ∈ wider) :
    StaysWithin wider talk := by
  intro exchange hmem
  obtain ⟨access, haccess, hrequest⟩ := h exchange hmem
  exact ⟨access, hle access haccess, hrequest⟩

theorem StaysWithin.append {accesses : List Access} {front back : List Exchange}
    (hfront : StaysWithin accesses front) (hback : StaysWithin accesses back) :
    StaysWithin accesses (front ++ back) := by
  intro exchange hmem
  rcases List.mem_append.1 hmem with hmem | hmem
  · exact hfront exchange hmem
  · exact hback exchange hmem

end PreviewInstaller.Cluster

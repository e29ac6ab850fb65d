import PreviewInstaller.Proofs.Cluster.Schema
import PreviewInstaller.Proofs.OauthRedirect.Account
import PreviewInstaller.Proofs.QuaySecret.Payload

set_option autoImplicit false

/-! # What a replacement retains

An object is replaced by what was read of it, with some parts changed. Main statement: whatever the
cluster answers, a replacement carries every part of the object that was found which the schema of
its type knows, apart from the parts that are meant to be replaced. A part that the schema does not
know is lost. -/

namespace PreviewInstaller

open Cluster
open Json (Crumb Trail)
open Procedure (Step Yields exchanges)
open Schema (Carries Kept nothing within)

/-- The trail leads to one of these parts or into it. -/
def Below (parts : List Trail) : Trail → Prop :=
  fun trail => ∃ part ∈ parts, part <+: trail

theorem kept_record_edit {fields : List (String × Schema)} {found : Json}
    {sent edited : List (String × Json)} (h : Kept (.record fields) found (.object sent)) :
    Kept (.record fields) found (.object edited) := by
  cases h
  exact .record _ _

theorem kept_map_edit {value : Schema} {found : Json} {sent edited : List (String × Json)}
    (h : Kept (.map value) found (.object sent)) :
    Kept (.map value) found (.object edited) := by
  cases h
  exact .map _ _

/-! ## Secrets -/

namespace QuaySecret

/-- The parts of a secret that an update replaces: its data, and its texts. -/
def replacedParts : List Trail :=
  [[.member "data"], [.member "stringData"]]

/-- A member is picked with its key. -/
theorem lookup_pick {picks : String → Bool} {key : String} (h : picks key = true)
    (members : List (String × Json)) :
    Json.lookup key (pick picks members) = Json.lookup key members := by
  induction members with
  | nil => rfl
  | cons member rest ih =>
    obtain ⟨k, value⟩ := member
    rw [pick_cons, Json.lookup_cons]
    split
    · rw [Json.lookup_cons, ih]
    · next hpicks =>
      have hk : k ≠ key := by
        rintro rfl
        exact hpicks h
      rw [ih, if_neg hk, Option.or_none]

/-- An update carries everything that is known of the secret that was found but what it replaces. -/
theorem carries_updatedSecret {json : Json} {found : Secret} (dockerConfig : List UInt8)
    (h : Secret.codec.read json = some found) :
    Carries (Below replacedParts) Secret.schema json
      (Secret.codec.write (updatedSecret found dockerConfig)) := by
  have hkeeps := Secret.keeps_codec.carries h
  rw [write_eq] at hkeeps ⊢
  refine hkeeps.edit kept_record_edit ?_
  rintro (key | index) known part carried hknown hcarried hcarries
  · by_cases hkey : isOther key = true
    · refine .inr ⟨carried, ?_, hcarries.sparing⟩
      show Json.lookup key (members (updatedSecret found dockerConfig)) = some carried
      rw [← lookup_pick hkey, updatedSecret, pick_isOther_members, lookup_pick hkey]
      exact hcarried
    · left
      have hreplaced : key = "data" ∨ key = "stringData" := by
        simpa [isOther, or_iff_not_imp_left] using hkey
      intro rest
      rcases hreplaced with rfl | rfl
      · exact ⟨[.member "data"], by simp [replacedParts], rest, rfl⟩
      · exact ⟨[.member "stringData"], by simp [replacedParts], rest, rfl⟩
  · cases hcarried

/-- What is said to the cluster to store a docker configuration in a secret. -/
inductive Storing (name namespaceName : String) (dockerConfig : List UInt8) :
    List Exchange → Prop where
  | unsent : Storing name namespaceName dockerConfig []
  | searched (search : Reply) :
      Storing name namespaceName dockerConfig [⟨.get (.secrets namespaceName) name, search⟩]
  | updated {search : Reply} {found : Secret} (hfound : search.decode Secret.codec = .ok found)
      (update : Reply) : Storing name namespaceName dockerConfig
        [⟨.get (.secrets namespaceName) name, search⟩,
         ⟨.replace (.secrets namespaceName) name
            (Secret.codec.write (updatedSecret found dockerConfig)), update⟩]
  | created (search creation : Reply) : Storing name namespaceName dockerConfig
        [⟨.get (.secrets namespaceName) name, search⟩,
         ⟨.create (.secrets namespaceName)
            (Secret.codec.write (freshSecret name namespaceName dockerConfig)), creation⟩]

/-- A call that is followed by no other one is one exchange, or none if it has no uri. -/
theorem exchanges_call_then_report {request : Request} {toError : ClientFault → Error}
    {event : Event} {steps : List Step} {result : Except Error Secret}
    (h : Yields (Task.mapFault toError (call Secret.codec request) >>= fun stored => do
      Task.report event
      return stored).run steps result) :
    exchanges steps = [] ∨ ∃ reply, exchanges steps = [⟨request, reply⟩] := by
  cases huri : request.uri? with
  | none =>
    rw [((yields_mapFault_call_bind_unbuildable huri).1 h).1]
    exact .inl rfl
  | some uri =>
    have hsome : request.uri?.isSome = true := by rw [huri, Option.isSome_some]
    obtain ⟨reply, ⟨_, -, rfl, -⟩ | ⟨stored, rest, -, rfl, hreported⟩⟩ :=
      (yields_mapFault_call_bind_iff hsome).1 h
    · exact .inr ⟨reply, rfl⟩
    · obtain ⟨rest, rfl, hdone⟩ := Task.yields_report_bind_iff.1 hreported
      rw [(Procedure.yields_done_iff.1 hdone).1]
      exact .inr ⟨reply, rfl⟩

/-- A secret is searched, and then updated as it was found or created. -/
theorem storing_of_yields {name namespaceName : String} {dockerConfig : List UInt8}
    {steps : List Step} {result : Except Error Secret}
    (h : Yields (applySecret name namespaceName dockerConfig).run steps result) :
    Storing name namespaceName dockerConfig (exchanges steps) := by
  unfold applySecret Cluster.get at h
  cases huri : (Request.get (.secrets namespaceName) name).uri? with
  | none =>
    dsimp only at h
    rw [run_outcome_call_bind_unbuildable huri] at h
    rw [(Procedure.yields_done_iff.1 h).1]
    exact .unsent
  | some uri =>
    have hsome : (Request.get (.secrets namespaceName) name).uri?.isSome = true := by
      rw [huri, Option.isSome_some]
    dsimp only at h
    rw [run_outcome_call_bind hsome] at h
    obtain ⟨search, rest, rfl, hrest⟩ := Procedure.yields_perform_iff.1 h
    show Storing name namespaceName dockerConfig
      (⟨.get (.secrets namespaceName) name, search⟩ :: exchanges rest)
    cases hfound : search.decode Secret.codec with
    | ok found =>
      rw [hfound] at hrest
      rcases exchanges_call_then_report hrest with hnone | ⟨update, hupdate⟩
      · rw [hnone]
        exact .searched search
      · rw [hupdate]
        exact .updated hfound update
    | error fault =>
      rw [hfound] at hrest
      cases hmissing : fault.isNotFound with
      | true =>
        simp only [hmissing, if_true] at hrest
        rcases exchanges_call_then_report hrest with hnone | ⟨creation, hcreation⟩
        · rw [hnone]
          exact .searched search
        · rw [hcreation]
          exact .created search creation
      | false =>
        simp only [hmissing] at hrest
        rw [(Procedure.yields_done_iff.1 hrest).1]
        exact .searched search

end QuaySecret

/-! ## Deployments -/

namespace OauthRedirect

/-- The parts of a deployment that its scaling replaces: the mark of the restart, and the number of
replicas. -/
def replacedParts : List Trail :=
  [[.member "metadata", .member "annotations", .member restartedAtKey],
   [.member "spec", .member "replicas"]]

/-- Annotations are a member of their own. -/
theorem child?_metadata (metadata : Metadata) (annotations : Option Texts) (key : String) :
    (Metadata.codec.write { metadata with annotations }).child? (.member key) =
      if key = "annotations" then annotations.map (Codec.map Codec.text).write
      else (Metadata.codec.write metadata).child? (.member key) := by
  split
  · next hkey =>
    subst hkey
    simp [Metadata.codec, Codec.object, Json.child?]
  · next hkey =>
    simp [Metadata.codec, Codec.object, Json.child?, Ne.symm hkey]

/-- The number of replicas is a member of its own. -/
theorem child?_spec (spec : DeploymentSpec) (replicas : Option Int32) {key : String}
    (hkey : key ≠ "replicas") :
    (DeploymentSpec.codec.write { spec with replicas }).child? (.member key) =
      (DeploymentSpec.codec.write spec).child? (.member key) := by
  simp [DeploymentSpec.codec, Codec.object, Json.child?, Ne.symm hkey]

/-- Metadata and specification are members of their own. -/
theorem child?_deployment (deployment : Deployment) (metadata : Metadata)
    (spec : Option DeploymentSpec) (key : String) :
    (Deployment.codec.write { deployment with metadata, spec }).child? (.member key) =
      if key = "metadata" then some (Metadata.codec.write metadata)
      else if key = "spec" then spec.map DeploymentSpec.codec.write
      else (Deployment.codec.write deployment).child? (.member key) := by
  split
  · next hkey =>
    subst hkey
    simp [Deployment.codec, versioned, metadataField, Codec.object, Json.child?]
  · next hkey =>
    split
    · next hkey =>
      subst hkey
      simp [Deployment.codec, versioned, metadataField, Codec.object, Json.child?]
    · next hspec =>
      simp [Deployment.codec, versioned, metadataField, Codec.object, Json.child?, Ne.symm hkey,
        Ne.symm hspec]

variable {spared : Trail → Prop} {part : Json}

theorem carries_insert {texts : Texts} {key text : String}
    (h : Carries nothing (.map .plain) part ((Codec.map Codec.text).write texts))
    (hspared : ∀ rest, spared (.member key :: rest)) :
    Carries spared (.map .plain) part ((Codec.map Codec.text).write (texts.insert key text)) := by
  refine h.edit kept_map_edit ?_
  rintro (other | index) known part carried hknown hcarried hcarries
  · by_cases hkey : other = key
    · subst hkey
      exact .inl hspared
    · refine .inr ⟨carried, ?_, hcarries.sparing⟩
      have hlookup := Codec.lookup_write_map Codec.text texts other
      refine (Codec.lookup_write_map Codec.text (texts.insert key text) other).trans ?_
      rw [TextMap.get?_insert, if_neg hkey, ← hlookup]
      exact hcarried
  · cases hcarried

theorem carries_annotated {metadata : Metadata} {text : String}
    (h : Carries nothing Metadata.schema part (Metadata.codec.write metadata))
    (hspared : ∀ rest, spared (.member "annotations" :: .member restartedAtKey :: rest)) :
    Carries spared Metadata.schema part (Metadata.codec.write { metadata with
      annotations := some ((metadata.annotations.getD .empty).insert restartedAtKey text) }) := by
  refine h.edit kept_record_edit ?_
  rintro (key | index) known part carried hknown hcarried hcarries
  · right
    rw [child?_metadata]
    split
    · next hkey =>
      subst hkey
      have hannotations := (child?_metadata metadata metadata.annotations "annotations").symm.trans
        hcarried
      rw [if_pos rfl] at hannotations
      obtain ⟨texts, htexts, rfl⟩ := Option.map_eq_some_iff.1 hannotations
      obtain rfl : .map .plain = known := by simpa [Schema.child?, Metadata.schema] using hknown
      refine ⟨_, rfl, ?_⟩
      rw [htexts, Option.getD_some]
      exact carries_insert hcarries hspared
    · exact ⟨carried, hcarried, hcarries.sparing⟩
  · cases hcarried

theorem carries_resized {spec : DeploymentSpec} (replicas : Option Int32)
    (h : Carries nothing DeploymentSpec.schema part (DeploymentSpec.codec.write spec))
    (hspared : ∀ rest, spared (.member "replicas" :: rest)) :
    Carries spared DeploymentSpec.schema part
      (DeploymentSpec.codec.write { spec with replicas }) := by
  refine h.edit kept_record_edit ?_
  rintro (key | index) known part carried hknown hcarried hcarries
  · by_cases hkey : key = "replicas"
    · subst hkey
      exact .inl hspared
    · refine .inr ⟨carried, ?_, hcarries.sparing⟩
      rw [child?_spec spec replicas hkey]
      exact hcarried
  · cases hcarried

/-- A scaling carries everything that is known of the deployment that was found but what it
replaces. -/
theorem carries_scaledDown {json : Json} {found : Deployment} (restartedAt : String)
    (h : Deployment.codec.read json = some found) :
    Carries (Below replacedParts) Deployment.schema json
      (Deployment.codec.write (scaledDown found restartedAt)) := by
  have hmark : ∀ rest, Below replacedParts
      (.member "metadata" :: .member "annotations" :: .member restartedAtKey :: rest) :=
    fun rest => ⟨_, List.mem_cons_self, rest, rfl⟩
  have hreplicas : ∀ rest, Below replacedParts (.member "spec" :: .member "replicas" :: rest) :=
    fun rest => ⟨_, List.mem_cons_of_mem _ List.mem_cons_self, rest, rfl⟩
  refine (Deployment.keeps_codec.carries h).edit kept_record_edit ?_
  rintro (key | index) known part carried hknown hcarried hcarries
  · right
    have hchild := (child?_deployment found found.metadata found.spec key).symm.trans hcarried
    rw [scaledDown, child?_deployment]
    split at hchild
    · next hkey =>
      subst hkey
      cases hchild
      obtain rfl : Metadata.schema = known := by
        simpa [Schema.child?, Deployment.schema, List.lookup_cons] using hknown
      exact ⟨_, if_pos rfl, carries_annotated hcarries hmark⟩
    · next hkey =>
      rw [if_neg hkey]
      split at hchild
      · next hspec =>
        subst hspec
        obtain ⟨spec, hfound, rfl⟩ := Option.map_eq_some_iff.1 hchild
        obtain rfl : DeploymentSpec.schema = known := by
          simpa [Schema.child?, Deployment.schema, List.lookup_cons] using hknown
        refine ⟨_, if_pos rfl, ?_⟩
        rw [hfound, Option.getD_some]
        exact carries_resized (some 0) hcarries hreplicas
      · next hspec =>
        exact ⟨carried, (if_neg hspec).trans hchild, hcarries.sparing⟩
  · cases hcarried

end OauthRedirect

/-! ## Replacements -/

/-- Every replacement comes right behind a search for the object, and carries the parts of what was
found that the schema knows, apart from the replaced ones. -/
def Retains (search : Request) (replaced : List Trail) (schema : Schema) (talk : List Exchange) :
    Prop :=
  ∀ front exchange rest, talk = front ++ exchange :: rest → exchange.request.method = "PUT" →
    ∃ before reply found sent, front = before ++ [⟨search, reply⟩] ∧ reply.json? = some found ∧
      exchange.request.body? = some sent ∧ Carries (Below replaced) schema found sent

theorem eq_nil_of_singleton_eq {exchange last : Exchange} {front rest : List Exchange}
    (h : [last] = front ++ exchange :: rest) : front = [] ∧ exchange = last := by
  cases front with
  | nil => exact ⟨rfl, (List.cons.inj h).1.symm⟩
  | cons first front => simp at h

theorem OauthRedirect.retains_of_yields {url : Option String} {steps : List Step}
    (h : Yields (push url) steps ()) :
    Retains searchRequest replacedParts Deployment.schema (exchanges steps) := by
  intro front exchange rest htalk hput
  obtain ⟨before, outcome, rfl, hcourse⟩ := yields_push_iff.1 h
  obtain ⟨request, reply⟩ := exchange
  cases request with
  | replace collection name body =>
    obtain ⟨patch, search, found, now, rfl, hfound, hrequest, -⟩ :=
      hcourse.search_of_replace htalk
    obtain ⟨json, hjson, hread⟩ := Reply.exists_json_of_decode hfound
    refine ⟨[_], search, json, _, rfl, hjson, rfl, ?_⟩
    obtain rfl : _ = body := (Request.replace.inj hrequest).2.2.symm
    exact carries_scaledDown now.rfc3339 hread
  | _ => simp [Request.method] at hput

theorem QuaySecret.retains_of_yields {name namespaceName : String} {dockerConfig : List UInt8}
    {steps : List Step} {result : Except Error Secret}
    (h : Yields (applySecret name namespaceName dockerConfig).run steps result) :
    Retains (.get (.secrets namespaceName) name) replacedParts Secret.schema (exchanges steps) := by
  intro front exchange rest htalk hput
  have hstoring := storing_of_yields h
  generalize exchanges steps = talk at htalk hstoring
  -- the first exchange is the search, which replaces nothing, so only a second one can do so
  cases front with
  | nil =>
    cases hstoring <;> cases htalk <;> simp [Request.method] at hput
  | cons first front =>
    cases hstoring with
    | unsent => cases htalk
    | searched search => simp at htalk
    | created search creation =>
      obtain ⟨rfl, rfl⟩ := eq_nil_of_singleton_eq (List.cons.inj htalk).2
      simp [Request.method] at hput
    | @updated search found hfound update =>
      obtain ⟨rfl, htail⟩ := List.cons.inj htalk
      obtain ⟨rfl, rfl⟩ := eq_nil_of_singleton_eq htail
      obtain ⟨json, hjson, hread⟩ := Reply.exists_json_of_decode hfound
      exact ⟨[], search, json, _, rfl, hjson, rfl, carries_updatedSecret dockerConfig hread⟩

/-- A deployment that was created at an offset from UTC, and has a member that is not known. -/
def futureJson : Json :=
  .object
    [("metadata", .object
        [("creationTimestamp", .text "2023-07-14T09:30:00+02:00"),
         ("name", .text OauthRedirect.deploymentName.name)]),
     ("spec", .object [("future", .bool true)])]

/-- What is read of it. -/
def futureDeployment : Deployment where
  metadata :=
    { creationTimestamp := Instant.read? "2023-07-14T09:30:00+02:00"
      name := some OauthRedirect.deploymentName.name }
  spec := some {}

/-- The search that finds it. -/
def futureSearch : Exchange where
  request := OauthRedirect.searchRequest
  reply := .response 200 (bodyOf futureJson)

/-- Its replacement, which is refused. -/
def futureScale : Exchange where
  request := OauthRedirect.scaleRequest futureDeployment .epoch
  reply := .response 409 []

/-- The steps of a push that finds it. -/
def futureSteps : List Step :=
  [⟨.send (OauthRedirect.patchRequest "https://proxy"), .response 200 (Text.utf8 ['\x7b', '\x7d'])⟩,
   ⟨.report (.patched OauthRedirect.configMapName OauthRedirect.redirectUrlKey), ()⟩,
   ⟨.send futureSearch.request, futureSearch.reply⟩,
   ⟨.readClock, Instant.epoch⟩,
   ⟨.send futureScale.request, futureScale.reply⟩,
   ⟨.report (.scaleDownFailed OauthRedirect.deploymentName (.refused (.undescribed 409 ""))), ()⟩]

theorem yields_futureSteps : Yields (OauthRedirect.push (some "https://proxy")) futureSteps () := by
  have hsearch : futureSearch.reply.decode Deployment.codec = .ok futureDeployment :=
    decode_bodyOf rfl rfl
  have huri : futureScale.request.uri?.isSome = true := OauthRedirect.isSome_uri_replace _
  exact OauthRedirect.yields_push_iff.2
    ⟨_, _, rfl, .scaleFailed (by decide) rfl hsearch huri rfl⟩

/-- The steps of an update of a labelled secret, which is refused. -/
def labelledSteps : List Step :=
  [⟨.send QuaySecret.secretSearch, tellingReply Secret.codec QuaySecret.labelledSecret⟩,
   ⟨.send (QuaySecret.secretUpdate [97, 98, 99] QuaySecret.labelledSecret), Reply.response 409 []⟩]

theorem yields_labelledSteps :
    Yields (QuaySecret.applySecret QuaySecret.secretName QuaySecret.secretNamespace
      [97, 98, 99]).run labelledSteps
      (.error (.secretUpdate QuaySecret.secretName (.refused (.undescribed 409 "")))) :=
  QuaySecret.yields_found (decode_tellingReply Secret.lawful_codec _) (.done _)

end PreviewInstaller

import PreviewInstaller.Proofs.Cluster.Replacement
import PreviewInstaller.Proofs.OauthRedirect.Account
import PreviewInstaller.Proofs.QuaySecret.Dialogue

set_option autoImplicit false

/-! # No lost updates

A provision of the pull secret and a push of the redirect url both read an object, change it and
send it back. The version in it survives this, so the server takes the object back only if it is
still the one that was read. What other clients have made of it since is never written over, and the
run tells that it has failed. -/

namespace PreviewInstaller

open Cluster
open Procedure (Yields exchanges reports)

/-- The secrets differ in nothing but their data and their versions. -/
def QuaySecret.DiffersInData (found stored : Secret) : Prop :=
  { stored with
    data := found.data
    stringData := found.stringData
    metadata := { stored.metadata with resourceVersion := found.metadata.resourceVersion } } = found

theorem QuaySecret.differsInData_updatedSecret (found : Secret) (dockerConfig : List UInt8)
    (version : Option String) :
    DiffersInData found (secrets.withVersion (updatedSecret found dockerConfig) version) := rfl

/-- The deployments differ in nothing but the time of the restart, the number of replicas and their
versions. -/
structure OauthRedirect.DiffersInScale (found stored : Deployment) : Prop where
  rest : { stored with
    metadata := { stored.metadata with
      annotations := found.metadata.annotations
      resourceVersion := found.metadata.resourceVersion }
    spec := found.spec } = found
  annotations : ∀ key ≠ restartedAtKey, (stored.metadata.annotations.getD .empty).get? key =
    (found.metadata.annotations.getD .empty).get? key
  spec : { stored.spec.getD {} with replicas := (found.spec.getD {}).replicas } =
    found.spec.getD {}

theorem OauthRedirect.differsInScale_scaledDown (found : Deployment) (restartedAt : String)
    (version : Option String) :
    DiffersInScale found (deployments.withVersion (scaledDown found restartedAt) version) where
  rest := rfl
  annotations key hkey := by
    show ((found.metadata.annotations.getD .empty).insert restartedAtKey restartedAt).get? key = _
    rw [TextMap.get?_insert, if_neg hkey]
  spec := rfl

/-- The replacement takes the place of the secret that was found, or the provision fails. -/
def QuaySecret.LosesNothing (server : Server) (earlier : List Moment) (before after : Store)
    (exchange : Exchange) (outcome : Except Error Secret) : Prop :=
  ∃ found between, Finds earlier secrets secretName found between ∧
    Supersedes server between before after exchange secrets secretName DiffersInData found ∧
    (¬ server.Accepts before exchange.request → ∃ fault,
      exchange.fault? = some fault ∧ outcome = .error (.secretUpdate secretName fault))

/-- The replacement takes the place of the deployment that was found, or the push reports one error,
which is that it failed to scale it down. -/
def OauthRedirect.LosesNothing (server : Server) (earlier : List Moment) (before after : Store)
    (exchange : Exchange) (events : List Event) : Prop :=
  ∃ found between, Finds earlier deployments deploymentName.name found between ∧
    Supersedes server between before after exchange deployments deploymentName.name
      DiffersInScale found ∧
    (¬ server.Accepts before exchange.request → ∃ fault,
      exchange.fault? = some fault ∧
        events.filter (·.level = .error) = [.scaleDownFailed deploymentName fault])

section Replacements

variable {server : Server} {store before after last : Store}
  {earlier later history : List Moment} {collection : Collection} {name : String} {body : Json}
  {reply : Reply}

theorem QuaySecret.losesNothing_of_yields (hserver : server.Versioning)
    (hstore : store.Versioned server) (htimeline : Timeline server store earlier before)
    (hallows : server.Allows (.exchange before (.replace collection name body) reply after))
    (hhistory : history =
      earlier ++ .exchange before (.replace collection name body) reply after :: later)
    {token : String} {outcome : Except Error Secret}
    (hrun : Yields (provision token).run (ownSteps history) outcome) :
    LosesNothing server earlier before after ⟨.replace collection name body, reply⟩ outcome := by
  have htalk : exchanges (ownSteps history) = _ := hhistory ▸ exchanges_ownSteps
  cases htoken : decodeToken token with
  | error error =>
    rw [run_provision_rejected htoken] at hrun
    rw [(Procedure.yields_done_iff.1 hrun).1] at htalk
    simp at htalk
  | ok dockerConfig =>
    obtain ⟨hdialogue, front, last, hlast, hconcludes⟩ := concludes_of_yields htoken hrun
    have hconversation := conversation_of_concludes hdialogue hlast hconcludes
    rw [htalk] at hdialogue
    obtain ⟨talk, search, found, hearlier, hfound, hupdate⟩ := hdialogue.search_of_replace
    obtain ⟨between, hfinds⟩ := exists_finds hearlier hfound
    have hsupersedes := supersedes_of_finds hserver hstore htimeline hallows hfinds hupdate rfl
      (fun _ => hupdate) rfl (differsInData_updatedSecret found dockerConfig)
    refine ⟨found, between, hfinds, hsupersedes, fun hnot => ?_⟩
    obtain ⟨-, fault, hfault⟩ := hsupersedes.refused hnot
    exact ⟨fault, hfault, hconversation.error_of_update htalk hupdate hfault⟩

theorem OauthRedirect.losesNothing_of_yields (hserver : server.Versioning)
    (hstore : store.Versioned server) (htimeline : Timeline server store earlier before)
    (hallows : server.Allows (.exchange before (.replace collection name body) reply after))
    (hhistory : history =
      earlier ++ .exchange before (.replace collection name body) reply after :: later)
    {url : Option String} (hrun : Yields (push url) (ownSteps history) ()) :
    LosesNothing server earlier before after ⟨.replace collection name body, reply⟩
      (reports (ownSteps history)) := by
  have htalk : exchanges (ownSteps history) = _ := hhistory ▸ exchanges_ownSteps
  obtain ⟨taken, outcome, htaken, hcourse⟩ := yields_push_iff.1 hrun
  obtain ⟨patch, search, found, now, hearlier, hfound, hscale, hfailed⟩ :=
    hcourse.search_of_replace (htaken ▸ htalk)
  have hsearch : exchanges (ownSteps earlier) = [⟨patchRequest (url.getD ""), patch⟩] ++
      [⟨.get deployments deploymentName.name, search⟩] := hearlier
  obtain ⟨between, hfinds⟩ := exists_finds hsearch hfound
  -- the deployment is sent back under the name that it gives itself
  have hsame : (Collection.deployments (ownName found).namespaceName, (ownName found).name) =
      (deployments, deploymentName.name) →
        Request.replace collection name body = .replace deployments deploymentName.name
          (Deployment.codec.write (scaledDown found now.rfc3339)) := by
    intro hown
    obtain ⟨hcollection, hname⟩ := Prod.mk.inj hown
    rw [hscale, scaleRequest, hcollection, hname]
  have hsupersedes := supersedes_of_finds hserver hstore htimeline hallows hfinds hscale rfl hsame
    rfl (differsInScale_scaledDown found now.rfc3339)
  refine ⟨found, between, hfinds, hsupersedes, fun hnot => ?_⟩
  obtain ⟨-, fault, hfault⟩ := hsupersedes.refused hnot
  refine ⟨fault, hfault, ?_⟩
  rw [htaken, hfailed fault hfault]
  rfl

/-- Whatever other clients do and whenever they do it, no replacement in a provision or in a push
loses an update: it takes the place of the object that the run found and of nothing that came after
it, or it changes nothing, and the run tells that it failed. -/
theorem replacement_loses_nothing (hserver : server.Versioning) (hstore : store.Versioned server)
    (htimeline : Timeline server store history last)
    (hhistory : history =
      earlier ++ .exchange before (.replace collection name body) reply after :: later) :
    (∀ token outcome, Yields (QuaySecret.provision token).run (ownSteps history) outcome →
      QuaySecret.LosesNothing server earlier before after
        ⟨.replace collection name body, reply⟩ outcome) ∧
    ∀ url, Yields (OauthRedirect.push url) (ownSteps history) () →
      OauthRedirect.LosesNothing server earlier before after
        ⟨.replace collection name body, reply⟩ (reports (ownSteps history)) := by
  obtain ⟨_, hearlier, hbehind⟩ := Timeline.append_iff.1 (hhistory ▸ htimeline)
  cases hbehind with
  | cons hallows _ =>
    refine ⟨fun token outcome hrun => ?_, fun url hrun => ?_⟩
    · exact QuaySecret.losesNothing_of_yields hserver hstore hearlier hallows hhistory hrun
    · exact OauthRedirect.losesNothing_of_yields hserver hstore hearlier hallows hhistory hrun

end Replacements

/-! ## Objects that are deleted in between -/

section Deletions

variable (server : Server) {store : Store}

namespace QuaySecret

/-- What is kept when a provision has searched the namespace and the secret, and another client has
deleted the secret. -/
def withoutSecret (store : Store) : Store :=
  (server.serve (server.serve store namespaceSearch).2 secretSearch).2.delete secrets secretName

/-- What has happened until then. -/
def untilDeletion (store : Store) : List Moment :=
  let searched := server.serve store namespaceSearch
  let read := server.serve searched.2 secretSearch
  [.exchange store namespaceSearch searched.1 searched.2,
    .exchange searched.2 secretSearch read.1 read.2,
    ⟨read.2, .foreign (.deletion secrets secretName), withoutSecret server store⟩]

theorem timeline_untilDeletion (store : Store) :
    Timeline server store (untilDeletion server store) (withoutSecret server store) :=
  .cons (.exchange _ _) <| .cons (.exchange _ _) <| .cons (.deletion _ _ _) <| .nil _

/-- The update that follows fails. -/
theorem yields_untilDeletion {token : String} {dockerConfig : List UInt8} {kept : Namespace}
    {found : Secret} (htoken : decodeToken token = .ok dockerConfig)
    (hkept : store.objects .namespaces secretNamespace = some kept)
    (hfound : store.objects secrets secretName = some found) :
    let refused := server.serve (withoutSecret server store) (secretUpdate dockerConfig found)
    ∃ outcome, Yields (provision token).run (ownSteps (untilDeletion server store ++
      [.exchange (withoutSecret server store) (secretUpdate dockerConfig found) refused.1
        refused.2])) outcome := by
  obtain ⟨hsearched, hsame⟩ := server.decode_get hkept
  obtain ⟨hread, -⟩ := server.decode_get ((congrFun (congrFun hsame secrets) _).trans hfound)
  obtain ⟨fault, hrefused⟩ := server.decode_deleted
    (server.serve (server.serve store namespaceSearch).2 secretSearch).2 secrets secretName
    (updatedSecret found dockerConfig)
  exact ⟨_, yields_failed_update htoken hsearched hread hrefused⟩

end QuaySecret

namespace OauthRedirect

/-- What is kept when a push has patched the configuration map and searched the deployment, and
another client has deleted the deployment. -/
def withoutDeployment (store : Store) (url : String) : Store :=
  (server.serve (server.serve store (patchRequest url)).2 searchRequest).2.delete deployments
    deploymentName.name

/-- What has happened until then. -/
def untilDeletion (store : Store) (url : String) (now : Instant) : List Moment :=
  let patched := server.serve store (patchRequest url)
  let read := server.serve patched.2 searchRequest
  [.exchange store (patchRequest url) patched.1 patched.2,
    ⟨patched.2, .own ⟨.report (.patched configMapName redirectUrlKey), ()⟩, patched.2⟩,
    .exchange patched.2 searchRequest read.1 read.2,
    ⟨read.2, .own ⟨.readClock, now⟩, read.2⟩,
    ⟨read.2, .foreign (.deletion deployments deploymentName.name),
      withoutDeployment server store url⟩]

theorem timeline_untilDeletion (store : Store) (url : String) (now : Instant) :
    Timeline server store (untilDeletion server store url now)
      (withoutDeployment server store url) :=
  .cons (.exchange _ _) <| .cons (.elsewhere _ rfl) <| .cons (.exchange _ _) <|
    .cons (.elsewhere _ rfl) <| .cons (.deletion _ _ _) <| .nil _

/-- The scaling that follows fails, and is reported. -/
theorem yields_untilDeletion {url : String} {configMap : ConfigMap} {found : Deployment}
    (now : Instant) (hurl : url ≠ "") (hnamed : IsNamed found)
    (hconfigMap : keptConfigMap store.objects = some configMap)
    (hfound : keptDeployment store.objects = some found) :
    let refused := server.serve (withoutDeployment server store url) (scaleRequest found now)
    ∃ fault, Yields (push (some url)) (ownSteps (untilDeletion server store url now ++
      [.exchange (withoutDeployment server store url) (scaleRequest found now) refused.1 refused.2,
        ⟨refused.2, .own ⟨.report (.scaleDownFailed deploymentName fault), ()⟩,
          refused.2⟩])) () := by
  have hstale : server.isStale configMaps configMap (redirected url configMap) = false :=
    Server.isStale_eq_false server rfl
  obtain ⟨hpatched, hobjects, -⟩ := Server.serve_write (Server.judge_mergePatch server hconfigMap
    (read_merge_redirectPatch url configMap) hstale)
  have hthere : (server.serve store (patchRequest url)).2.objects deployments
      deploymentName.name = some found := by
    refine (congrFun (congrFun hobjects deployments) deploymentName.name).trans ?_
    exact keptDeployment_put_configMap.trans hfound
  obtain ⟨hread, -⟩ := server.decode_get hthere
  have hown : scaleRequest found now = .replace deployments deploymentName.name
      (Deployment.codec.write (scaledDown found now.rfc3339)) := by
    rw [scaleRequest, ownName, hnamed.1, hnamed.2]
    rfl
  obtain ⟨fault, hrefused⟩ := server.decode_deleted
    (server.serve (server.serve store (patchRequest url)).2 searchRequest).2 deployments
    deploymentName.name (scaledDown found now.rfc3339)
  have huri : (scaleRequest found now).uri?.isSome = true := hown ▸ isSome_uri_replace _
  have hscale := hown ▸ hrefused
  exact ⟨fault, yields_push_iff.2 ⟨_, _, rfl, .scaleFailed hurl hpatched hread huri hscale⟩⟩

end OauthRedirect

end Deletions

/-- A store with one more object, which has got a version. -/
def keeping (collection : Collection) (name : String) (object : collection.Object)
    (store : Store) : Store :=
  ⟨store.objects.put collection name
    ((Server.numbering true).fill store.served collection none object), store.served + 1⟩

theorem versioned_keeping {collection : Collection} {name : String} {object : collection.Object}
    {store : Store} (h : store.Versioned (Server.numbering true)) :
    (keeping collection name object store).Versioned (Server.numbering true) := by
  have htouched := Objects.touched_put Server.versioning_numbering store.served store.objects
    collection name none object
  exact (Effect.touch collection name htouched).versioned Server.versioning_numbering h

/-- The secret that is deleted. -/
def lostSecret : Secret :=
  { QuaySecret.createdSecret [] with metadata.resourceVersion := some "2" }

/-- The deployment that is deleted. -/
def lostDeployment : Deployment :=
  { metadata.name := some OauthRedirect.deploymentName.name
    metadata.namespaceName := some OauthRedirect.serviceNamespace
    metadata.resourceVersion := some "0" }

/-- A store with all that a provision and a push look for. -/
def stockedStore : Store :=
  keeping .namespaces QuaySecret.secretNamespace QuaySecret.freshNamespace <|
  keeping QuaySecret.secrets QuaySecret.secretName lostSecret <|
  keeping OauthRedirect.configMaps OauthRedirect.configMapName.name {} <|
  keeping OauthRedirect.deployments OauthRedirect.deploymentName.name lostDeployment .empty

theorem versioned_stockedStore : stockedStore.Versioned (Server.numbering true) :=
  versioned_keeping <| versioned_keeping <| versioned_keeping <| versioned_keeping <|
    Store.versioned_empty _

/-- A secret and a deployment that are deleted between the search and the replacement. -/
theorem replacement_loses_nothing_deleted :
    let server := Server.numbering true
    (let request := QuaySecret.secretUpdate [97, 98, 99] lostSecret
      let earlier := QuaySecret.untilDeletion server stockedStore
      let before := QuaySecret.withoutSecret server stockedStore
      let (reply, after) := server.serve before request
      ∃ outcome,
        Yields (QuaySecret.provision "YWJj").run
          (ownSteps (earlier ++ [.exchange before request reply after])) outcome ∧
        QuaySecret.LosesNothing server earlier before after ⟨request, reply⟩ outcome) ∧
    (let request := OauthRedirect.scaleRequest lostDeployment .epoch
      let earlier := OauthRedirect.untilDeletion server stockedStore "https://proxy" .epoch
      let before := OauthRedirect.withoutDeployment server stockedStore "https://proxy"
      let (reply, after) := server.serve before request
      ∃ fault,
        let history := earlier ++ [.exchange before request reply after,
          ⟨after, .own ⟨.report (.scaleDownFailed OauthRedirect.deploymentName fault), ()⟩, after⟩]
        Yields (OauthRedirect.push (some "https://proxy")) (ownSteps history) () ∧
        OauthRedirect.LosesNothing server earlier before after ⟨request, reply⟩
          (reports (ownSteps history))) := by
  intro server
  constructor
  · have htoken : QuaySecret.decodeToken "YWJj" = .ok [97, 98, 99] := by decide
    have hkept : stockedStore.objects .namespaces QuaySecret.secretNamespace = some _ := rfl
    have hfound : stockedStore.objects QuaySecret.secrets QuaySecret.secretName =
        some lostSecret := rfl
    obtain ⟨outcome, hrun⟩ := QuaySecret.yields_untilDeletion server htoken hkept hfound
    have htimeline := Timeline.append_iff.2
      ⟨_, QuaySecret.timeline_untilDeletion server stockedStore,
        .cons (.exchange _ (QuaySecret.secretUpdate [97, 98, 99] lostSecret)) (.nil _)⟩
    have hloses := replacement_loses_nothing Server.versioning_numbering versioned_stockedStore
      htimeline rfl
    exact ⟨outcome, hrun, hloses.1 _ _ hrun⟩
  · have hconfigMap : OauthRedirect.keptConfigMap stockedStore.objects = some _ := rfl
    have hfound : OauthRedirect.keptDeployment stockedStore.objects = some lostDeployment := rfl
    obtain ⟨fault, hrun⟩ := OauthRedirect.yields_untilDeletion server .epoch
      (show "https://proxy" ≠ "" by decide) ⟨rfl, rfl⟩ hconfigMap hfound
    have hsilent : Procedure.Step.exchange?
        ⟨.report (.scaleDownFailed OauthRedirect.deploymentName fault), ()⟩ = none := rfl
    have htimeline := Timeline.append_iff.2
      ⟨_, OauthRedirect.timeline_untilDeletion server stockedStore "https://proxy" .epoch,
        .cons (.exchange _ (OauthRedirect.scaleRequest lostDeployment .epoch))
          (.cons (.elsewhere _ hsilent) (.nil _))⟩
    have hloses := replacement_loses_nothing Server.versioning_numbering versioned_stockedStore
      htimeline rfl
    exact ⟨fault, hrun, hloses.2 _ hrun⟩

end PreviewInstaller

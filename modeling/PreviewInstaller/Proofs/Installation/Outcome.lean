import PreviewInstaller.Proofs.Installation.Order
import PreviewInstaller.Proofs.OauthRedirect
import PreviewInstaller.Proofs.QuaySecret.Convergence

set_option autoImplicit false

/-! # What an installation makes of the cluster

What counts of an object is its essence: all but what the server fills in and the time of a restart.
Of the essences of all objects an installation makes `settled`, whatever the server does with them.
An installation on objects some of which another one has already changed makes the same. -/

namespace PreviewInstaller.Install

open Cluster OauthRedirect QuaySecret

/-! ## Essences -/

/-- Annotations without the time of a restart. -/
def undatedTexts (annotations : Texts) : Texts :=
  if (annotations.get? restartedAtKey).isSome then annotations.insert restartedAtKey ""
  else annotations

/-- An object without the time of a restart, which only deployments have. -/
def undated : (collection : Collection) → collection.Object → collection.Object
  | .deployments _, deployment =>
    { deployment with
      metadata := { deployment.metadata with
        annotations := deployment.metadata.annotations.map undatedTexts } }
  | _, object => object

/-- What counts of an object. -/
def essence (collection : Collection) (object : collection.Object) : collection.Object :=
  undated collection (collection.content object)

/-- What counts of all objects. -/
def essences (objects : Objects) : Objects :=
  fun collection name => (objects collection name).map (essence collection)

theorem insert_undatedTexts (annotations : Texts) (restartedAt : String) :
    (undatedTexts annotations).insert restartedAtKey restartedAt =
      annotations.insert restartedAtKey restartedAt := by
  unfold undatedTexts
  split
  · exact TextMap.insert_insert _ _ _ _
  · rfl

theorem undatedTexts_insert (annotations : Texts) (restartedAt : String) :
    undatedTexts (annotations.insert restartedAtKey restartedAt) =
      annotations.insert restartedAtKey "" := by
  rw [undatedTexts, TextMap.get?_insert, if_pos rfl]
  exact TextMap.insert_insert _ _ _ _

theorem essence_fill (server : Server) (count : Nat) (collection : Collection)
    (old : Option collection.Object) (object : collection.Object) :
    essence collection (server.fill count collection old object) = essence collection object := by
  rw [essence, server.content_fill, essence]

theorem essence_scaledDown (deployment : Deployment) (restartedAt : String) :
    essence deployments (scaledDown deployment restartedAt) =
      scaledDown (essence deployments deployment) "" := by
  have hannotations :
      undatedTexts ((deployment.metadata.annotations.getD .empty).insert restartedAtKey
          restartedAt) =
        ((deployment.metadata.annotations.map undatedTexts).getD .empty).insert restartedAtKey
          "" := by
    rw [undatedTexts_insert]
    cases deployment.metadata.annotations with
    | none => rfl
    | some annotations => exact (insert_undatedTexts annotations "").symm
  simp only [essence, undated, Collection.content, Metadata.content, scaledDown, Option.map_some,
    hannotations]

theorem essence_redirected (url : String) (configMap : ConfigMap) :
    essence configMaps (redirected url configMap) = redirected url (essence configMaps configMap) :=
  rfl

theorem essence_provisionedSecret (dockerConfig : List UInt8) (kept : Option Secret) :
    essence secrets (provisionedSecret dockerConfig kept) =
      provisionedSecret dockerConfig (kept.map (essence secrets)) := by
  cases kept <;> rfl

theorem essences_put (objects : Objects) (collection : Collection) (name : String)
    (object : collection.Object) :
    essences (objects.put collection name object) =
      (essences objects).put collection name (essence collection object) := by
  funext other name'
  by_cases hname : (other, name') = (collection, name)
  · cases hname
    rw [essences, Objects.put_self, Objects.put_self]
    rfl
  · rw [essences, Objects.put_of_ne hname, Objects.put_of_ne hname]
    rfl

/-! ## What is made of the objects -/

/-- The objects with what is kept under a name changed. -/
def adjust (objects : Objects) (collection : Collection) (name : String)
    (change : Option collection.Object → Option collection.Object) : Objects :=
  Function.update objects collection
    (Function.update (objects collection) name (change (objects collection name)))

section Adjust

variable {objects : Objects} {collection other : Collection} {name name' : String}
  {change : Option collection.Object → Option collection.Object}

@[simp]
theorem adjust_self :
    adjust objects collection name change collection name = change (objects collection name) := by
  simp [adjust]

theorem adjust_of_ne (h : (other, name') ≠ (collection, name)) :
    adjust objects collection name change other name' = objects other name' := by
  by_cases hcollection : other = collection
  · subst hcollection
    have hname : name' ≠ name := fun hname => h (by rw [hname])
    simp [adjust, Function.update_of_ne hname]
  · simp [adjust, Function.update_of_ne hcollection]

theorem adjust_eq_put {object : collection.Object}
    (h : change (objects collection name) = some object) :
    adjust objects collection name change = objects.put collection name object := by
  rw [adjust, h, Objects.put]

theorem adjust_eq_self (h : change (objects collection name) = objects collection name) :
    adjust objects collection name change = objects := by
  rw [adjust, h, Function.update_eq_self, Function.update_eq_self]

end Adjust

/-- The objects with the redirect url in the configuration map and the deployment scaled down, as
far as they are there. -/
def redirect (url : String) (objects : Objects) : Objects :=
  if url = "" ∨ keptConfigMap objects = none then objects
  else
    adjust (adjust objects configMaps configMapName.name (Option.map (redirected url))) deployments
      deploymentName.name (Option.map (scaledDown · ""))

/-- The objects with the secret and its namespace. -/
def provide (dockerConfig : List UInt8) (objects : Objects) : Objects :=
  adjust (adjust objects .namespaces secretNamespace fun kept => some (kept.getD freshNamespace))
    secrets secretName fun kept => some (provisionedSecret dockerConfig kept)

/-- The objects after an installation. -/
def settled (url : String) (dockerConfig : List UInt8) (objects : Objects) : Objects :=
  provide dockerConfig (redirect url objects)

variable {url : String} {dockerConfig : List UInt8} {before objects : Objects}

/-- A push changes the configuration map and the deployment only. -/
theorem redirect_of_ne {collection : Collection} {name : String}
    (hconfigMap : (collection, name) ≠ (configMaps, configMapName.name))
    (hdeployment : (collection, name) ≠ (deployments, deploymentName.name)) :
    redirect url objects collection name = objects collection name := by
  unfold redirect
  split
  · rfl
  · rw [adjust_of_ne hdeployment, adjust_of_ne hconfigMap]

theorem provide_of_ne {collection : Collection} {name : String}
    (hnamespace : (collection, name) ≠ (.namespaces, secretNamespace))
    (hsecret : (collection, name) ≠ (secrets, secretName)) :
    provide dockerConfig objects collection name = objects collection name := by
  rw [provide, adjust_of_ne hsecret, adjust_of_ne hnamespace]

theorem settled_of_ne {collection : Collection} {name : String}
    (hconfigMap : (collection, name) ≠ (configMaps, configMapName.name))
    (hdeployment : (collection, name) ≠ (deployments, deploymentName.name))
    (hnamespace : (collection, name) ≠ (.namespaces, secretNamespace))
    (hsecret : (collection, name) ≠ (secrets, secretName)) :
    settled url dockerConfig objects collection name = objects collection name := by
  rw [settled, provide_of_ne hnamespace hsecret, redirect_of_ne hconfigMap hdeployment]

theorem settled_secret : keptSecret (settled url dockerConfig objects) =
    some (provisionedSecret dockerConfig (keptSecret objects)) := by
  rw [keptSecret, settled, provide, adjust_self, adjust_of_ne, redirect_of_ne]
  · rfl
  all_goals rintro ⟨⟩

theorem settled_namespace : keptNamespace (settled url dockerConfig objects) =
    some ((keptNamespace objects).getD freshNamespace) := by
  rw [keptNamespace, settled, provide, adjust_of_ne, adjust_self, redirect_of_ne]
  · rfl
  all_goals rintro ⟨⟩

theorem settled_configMap : keptConfigMap (settled url dockerConfig objects) =
    if url = "" then keptConfigMap objects
    else (keptConfigMap objects).map (redirected url) := by
  rw [keptConfigMap, settled, provide_of_ne, redirect]
  · by_cases hurl : url = ""
    · rw [if_pos (.inl hurl), if_pos hurl]
      rfl
    · rw [if_neg hurl]
      split
      · next h =>
        have hnone := h.resolve_left hurl
        rw [hnone]
        exact hnone
      · rw [adjust_of_ne, adjust_self]
        · rfl
        · rintro ⟨⟩
  all_goals rintro ⟨⟩

theorem settled_deployment : keptDeployment (settled url dockerConfig objects) =
    if url = "" ∨ keptConfigMap objects = none then keptDeployment objects
    else (keptDeployment objects).map (scaledDown · "") := by
  rw [keptDeployment, settled, provide_of_ne, redirect]
  · split
    · rfl
    · rw [adjust_self, adjust_of_ne]
      · rfl
      · rintro ⟨⟩
  all_goals rintro ⟨⟩

/-! ## Objects between two states -/

/-- Every object is as it was or as an installation makes it. -/
def Between (url : String) (dockerConfig : List UInt8) (before objects : Objects) : Prop :=
  ∀ collection name, objects collection name = before collection name ∨
    objects collection name = settled url dockerConfig before collection name

theorem Between.refl (objects : Objects) : Between url dockerConfig objects objects :=
  fun _ _ => .inl rfl

/-- An object is put as an installation makes it. -/
theorem Between.put (h : Between url dockerConfig before objects) {collection : Collection}
    {name : String} {object : collection.Object}
    (hobject : settled url dockerConfig before collection name = some object) :
    Between url dockerConfig before (objects.put collection name object) := by
  intro other name'
  by_cases hname : (other, name') = (collection, name)
  · cases hname
    rw [Objects.put_self, hobject]
    exact .inr rfl
  · rw [Objects.put_of_ne hname]
    exact h other name'

theorem provisionedSecret_provisionedSecret (kept : Option Secret) :
    provisionedSecret dockerConfig (some (provisionedSecret dockerConfig kept)) =
      provisionedSecret dockerConfig kept := by
  cases kept <;> rfl

/-- What is changed twice in the same way is changed once. -/
theorem map_map_self {α : Type} {change : α → α} (h : ∀ value, change (change value) = change value)
    (kept : Option α) : (kept.map change).map change = kept.map change := by
  rw [Option.map_map]
  exact Option.map_congr fun value _ => h value

section Kept

variable (h : Between url dockerConfig before objects)
include h

theorem Between.configMap_cases : keptConfigMap objects = keptConfigMap before ∨
    keptConfigMap objects = keptConfigMap (settled url dockerConfig before) :=
  h _ _

theorem Between.deployment_cases : keptDeployment objects = keptDeployment before ∨
    keptDeployment objects = keptDeployment (settled url dockerConfig before) :=
  h _ _

theorem Between.namespace_cases : keptNamespace objects = keptNamespace before ∨
    keptNamespace objects = keptNamespace (settled url dockerConfig before) :=
  h _ _

theorem Between.secret_cases : keptSecret objects = keptSecret before ∨
    keptSecret objects = keptSecret (settled url dockerConfig before) :=
  h _ _

/-- No configuration map appears or vanishes. -/
theorem Between.configMap_eq_none :
    keptConfigMap objects = none ↔ keptConfigMap before = none := by
  rcases h.configMap_cases with hsame | hmade
  · rw [hsame]
  · rw [hmade, settled_configMap]
    split
    · rfl
    · rw [Option.map_eq_none_iff]

/-- An installation makes the same of objects some of which another one has already changed. -/
theorem Between.settled_eq :
    settled url dockerConfig objects = settled url dockerConfig before := by
  have hsecret : keptSecret (settled url dockerConfig objects) =
      keptSecret (settled url dockerConfig before) := by
    rw [settled_secret, settled_secret]
    rcases h.secret_cases with hsame | hmade
    · rw [hsame]
    · rw [hmade, settled_secret, provisionedSecret_provisionedSecret]
  have hnamespace : keptNamespace (settled url dockerConfig objects) =
      keptNamespace (settled url dockerConfig before) := by
    rw [settled_namespace, settled_namespace]
    rcases h.namespace_cases with hsame | hmade
    · rw [hsame]
    · rw [hmade, settled_namespace, Option.getD_some]
  have hconfigMap : keptConfigMap (settled url dockerConfig objects) =
      keptConfigMap (settled url dockerConfig before) := by
    rw [settled_configMap, settled_configMap]
    rcases h.configMap_cases with hsame | hmade
    · rw [hsame]
    · rw [hmade, settled_configMap]
      split
      · rfl
      · exact map_map_self (redirected_redirected url url) _
  have hdeployment : keptDeployment (settled url dockerConfig objects) =
      keptDeployment (settled url dockerConfig before) := by
    rw [settled_deployment, settled_deployment]
    simp only [h.configMap_eq_none]
    rcases h.deployment_cases with hsame | hmade
    · rw [hsame]
    · rw [hmade, settled_deployment]
      split
      · rfl
      · exact map_map_self (scaledDown_scaledDown "" "") _
  funext collection name
  -- all but four objects are as they were
  by_cases hs : (collection, name) = (secrets, secretName)
  · cases hs
    exact hsecret
  by_cases hn : (collection, name) = (.namespaces, secretNamespace)
  · cases hn
    exact hnamespace
  by_cases hc : (collection, name) = (configMaps, configMapName.name)
  · cases hc
    exact hconfigMap
  by_cases hd : (collection, name) = (deployments, deploymentName.name)
  · cases hd
    exact hdeployment
  have hother := h collection name
  rw [settled_of_ne hc hd hn hs, or_self] at hother
  rw [settled_of_ne hc hd hn hs, settled_of_ne hc hd hn hs, hother]

end Kept

/-! ## What a server keeps of it -/

variable {server : Server} {after : Objects}

theorem keptConfigMap_essences (objects : Objects) : keptConfigMap (essences objects) =
    (keptConfigMap objects).map (essence configMaps) := rfl

theorem keptDeployment_essences (objects : Objects) : keptDeployment (essences objects) =
    (keptDeployment objects).map (essence deployments) := rfl

theorem keptNamespace_essences (objects : Objects) : keptNamespace (essences objects) =
    (keptNamespace objects).map (essence .namespaces) := rfl

theorem keptSecret_essences (objects : Objects) : keptSecret (essences objects) =
    (keptSecret objects).map (essence secrets) := rfl

/-- The redirect of objects with a configuration map, if there is a url. -/
theorem redirect_configMap {configMap : ConfigMap} (hurl : url ≠ "")
    (hfound : keptConfigMap objects = some configMap) :
    redirect url objects =
      adjust (objects.put configMaps configMapName.name (redirected url configMap)) deployments
        deploymentName.name (Option.map (scaledDown · "")) := by
  have hkept : ¬(url = "" ∨ keptConfigMap objects = none) := by
    rintro (hempty | hnone)
    · exact hurl hempty
    · rw [hfound] at hnone
      cases hnone
  have hput : Option.map (redirected url) (objects configMaps configMapName.name) =
      some (redirected url configMap) := congrArg (Option.map (redirected url)) hfound
  rw [redirect, if_neg hkept, adjust_eq_put hput]

/-- A push makes the redirect of the objects, whatever else the server fills in. -/
theorem essences_pushed {now : Instant} (h : Pushed server url now objects after) :
    essences after = redirect url (essences objects) := by
  cases h with
  | unset hurl => rw [redirect, if_pos (.inl hurl)]
  | missing hmissing =>
    have hnone := (keptConfigMap_essences objects).trans (congrArg _ hmissing)
    rw [redirect, if_pos (.inr hnone)]
  | @patched configMap patched _ hurl hfound hnone hpatched =>
    have hconfigMap := (keptConfigMap_essences objects).trans (congrArg _ hfound)
    have hessence : essence configMaps patched = redirected url (essence configMaps configMap) := by
      rw [hpatched, essence_fill, essence_redirected]
    have hdeployment : keptDeployment ((essences objects).put configMaps configMapName.name
        (redirected url (essence configMaps configMap))) = none := by
      rw [keptDeployment_put_configMap, keptDeployment_essences, hnone]
      rfl
    have hnothing := (congrArg (Option.map (scaledDown · "")) hdeployment).trans hdeployment.symm
    rw [redirect_configMap hurl hconfigMap, essences_put, hessence, adjust_eq_self hnothing]
  | @scaled configMap patched deployment scaled _ _ hurl hfound hkept hpatched
      hscaled =>
    have hconfigMap := (keptConfigMap_essences objects).trans (congrArg _ hfound)
    have hpatchedEssence :
        essence configMaps patched = redirected url (essence configMaps configMap) := by
      rw [hpatched, essence_fill, essence_redirected]
    have hscaledEssence :
        essence deployments scaled = scaledDown (essence deployments deployment) "" := by
      rw [hscaled, essence_fill, essence_scaledDown]
    have hdeployment : keptDeployment ((essences objects).put configMaps configMapName.name
        (redirected url (essence configMaps configMap))) =
          some (essence deployments deployment) := by
      rw [keptDeployment_put_configMap, keptDeployment_essences, hkept]
      rfl
    have hput := congrArg (Option.map (scaledDown · "")) hdeployment
    rw [redirect_configMap hurl hconfigMap, essences_put, essences_put, hpatchedEssence,
      hscaledEssence, adjust_eq_put hput]

/-- The namespace is there, whatever else the server fills in. -/
theorem essences_withNamespace (server : Server) (count : Nat) (objects : Objects) :
    essences (withNamespace server count objects) =
      adjust (essences objects) .namespaces secretNamespace
        fun kept => some (kept.getD freshNamespace) := by
  cases hkept : keptNamespace objects with
  | some kept =>
    have hnamespace := (keptNamespace_essences objects).trans (congrArg _ hkept)
    rw [withNamespace_of_some server hkept, adjust_eq_self]
    rw [show essences objects .namespaces secretNamespace = _ from hnamespace]
    rfl
  | none =>
    have hnamespace := (keptNamespace_essences objects).trans (congrArg _ hkept)
    have hfresh : essence .namespaces freshNamespace = freshNamespace := rfl
    rw [withNamespace_of_none server count hkept, essences_put, essence_fill, hfresh,
      adjust_eq_put]
    rw [show essences objects .namespaces secretNamespace = _ from hnamespace]
    rfl

variable (server) in
/-- What a deployment makes of the cluster, whatever the server does with it. -/
theorem run_deploy {config : Config} (htoken : decodeToken config.quayToken = .ok dockerConfig)
    (world : World)
    (hnamed : KeepsNamed world.store.objects) :
    ∃ after, World.run server (deploy config).run world = (.ok (), after) ∧
      essences after.store.objects =
        settled (config.oauthRedirectProxyUrl.getD "") dockerConfig
          (essences world.store.objects) := by
  obtain ⟨pushed, hpush, hpushed⟩ := run_push server config.oauthRedirectProxyUrl world hnamed
  obtain ⟨stored, count, count', provided, hprovision, hstored, hprovided⟩ :=
    run_provision server htoken pushed
  have hlift : World.run server (ExceptT.lift (push config.oauthRedirectProxyUrl) :
      Task Error Unit).run world = (.ok (), pushed) := by
    refine (Procedure.run_bind _ _ _ _).trans ?_
    rw [show Procedure.run (World.handler server) (push config.oauthRedirectProxyUrl) world = _
      from hpush]
    rfl
  refine ⟨_, (Task.run_bind_ok hlift).trans (Task.run_bind_ok hprovision), ?_⟩
  have hsecret : keptSecret (essences (withNamespace server count pushed.store.objects)) =
      (keptSecret pushed.store.objects).map (essence secrets) := by
    have hsame : keptSecret (withNamespace server count pushed.store.objects) =
        keptSecret pushed.store.objects := withNamespace_of_ne server (by rintro ⟨⟩)
    rw [keptSecret_essences, hsame]
  have hput := congrArg (fun kept => some (provisionedSecret dockerConfig kept)) hsecret
  show essences provided.store.objects = _
  rw [hprovided, essences_put, hstored, essence_fill, essence_provisionedSecret, settled, provide,
    ← essences_pushed hpushed, ← essences_withNamespace server count]
  exact (adjust_eq_put hput).symm

end PreviewInstaller.Install

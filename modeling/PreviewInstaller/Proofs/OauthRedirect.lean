import PreviewInstaller.OauthRedirect
import PreviewInstaller.Proofs.Cluster.World

set_option autoImplicit false

/-! # The redirect against a server

What a push of the redirect url makes of the objects that a server keeps. The patch of the
configuration map is read as the map with the url in its data; `Pushed` lists what the steps can
lead to, and `run_push` says that nothing else does. -/

namespace PreviewInstaller.OauthRedirect

open Cluster Codec Fields

/-! ## The patch -/

/-- A configuration map with the redirect url. -/
def redirected (url : String) (configMap : ConfigMap) : ConfigMap :=
  { configMap with data := some ((configMap.data.getD .empty).insert redirectUrlKey url) }

/-- The members of a configuration map as it is written. -/
def membersOf (configMap : ConfigMap) : List (String × Json) :=
  (ConfigMap.codec.write configMap).members?.getD []

theorem find?_data (configMap : ConfigMap) :
    TextMap.find? "data" (membersOf configMap) = configMap.data.map (map text).write := by
  obtain ⟨binaryData, data, immutable, metadata⟩ := configMap
  cases binaryData <;> cases data <;> cases immutable <;> rfl

theorem nodup_membersOf (configMap : ConfigMap) : ((membersOf configMap).map (·.1)).Nodup := by
  obtain ⟨binaryData, data, immutable, metadata⟩ := configMap
  cases binaryData <;> cases data <;> cases immutable <;> exact of_decide_eq_true rfl

theorem merge_redirectPatch (url : String) (configMap : ConfigMap) :
    (ConfigMap.codec.write configMap).merge (redirectPatch url) =
      .object (TextMap.put "data"
        ((map text).write ((configMap.data.getD .empty).insert redirectUrlKey url))
        (membersOf configMap)) := by
  have hdata : ((TextMap.find? "data" (membersOf configMap)).getD .null).members?.getD [] =
      (configMap.data.getD .empty).entries.map fun entry => (entry.1, Json.text entry.2) := by
    rw [find?_data]
    cases configMap.data <;> rfl
  show Json.object (TextMap.put "data" (.object (TextMap.put redirectUrlKey (.text url)
    (((TextMap.find? "data" (membersOf configMap)).getD .null).members?.getD [])))
      (membersOf configMap)) = _
  rw [hdata, TextMap.put_map]
  rfl

/-- To set the data among the members of a configuration map is to set it in the map. -/
theorem read_put_data {members : List (String × Json)} {configMap : ConfigMap}
    (hread : ConfigMap.codec.read (.object members) = some configMap)
    (hnodup : (members.map (·.1)).Nodup) (texts : Texts) :
    ConfigMap.codec.read (.object (TextMap.put "data" ((map text).write texts) members)) =
      some { configMap with data := some texts } := by
  obtain ⟨⟨⟨⟩, ⟨⟩, value⟩, hobject, hvalue⟩ := Option.map_eq_some_iff.1 hread
  obtain ⟨hversion, htagged⟩ := read_both_iff.1 hobject
  obtain ⟨hkind, hmade⟩ := read_both_iff.1 htagged
  obtain ⟨⟨binaryData, data, immutable, metadata⟩, hfields, hmade⟩ :=
    Option.map_eq_some_iff.1 hmade
  obtain rfl : _ = configMap := hmade.trans hvalue
  obtain ⟨hbinaryData, hfields⟩ := read_both_iff.1 hfields
  obtain ⟨-, hfields⟩ := read_both_iff.1 hfields
  obtain ⟨himmutable, hmetadata⟩ := read_both_iff.1 hfields
  have hdata : (Fields.optional "data" (map text)).read
      (TextMap.put "data" ((map text).write texts) members) = some (some texts) :=
    readLast_put_self (lawful_map lawful_text) texts none hnodup
  -- no other field has this key
  have hkeys : "data" ≠ "apiVersion" ∧ "data" ≠ "kind" ∧ "data" ≠ "binaryData" ∧
      "data" ≠ "immutable" ∧ "data" ≠ "metadata" := by decide
  obtain ⟨hapiVersion, hkindKey, hbinaryKey, himmutableKey, hmetadataKey⟩ := hkeys
  have hfields := read_both_iff.2
    ⟨(ignores_optional (map bytes) hbinaryKey _ members).trans hbinaryData, read_both_iff.2
      ⟨hdata, read_both_iff.2
        ⟨(ignores_optional Codec.bool himmutableKey _ members).trans himmutable,
          (ignores_required Metadata.codec {} hmetadataKey _ members).trans hmetadata⟩⟩⟩
  exact Option.map_eq_some_iff.2 ⟨((), (), _), read_both_iff.2
    ⟨(ignores_tag "v1" hapiVersion _ members).trans hversion, read_both_iff.2
      ⟨(ignores_tag "ConfigMap" hkindKey _ members).trans hkind,
        Option.map_eq_some_iff.2 ⟨_, hfields, rfl⟩⟩⟩, rfl⟩

/-- The patch is read as the configuration map with the redirect url. -/
theorem read_merge_redirectPatch (url : String) (configMap : ConfigMap) :
    ConfigMap.codec.read ((ConfigMap.codec.write configMap).merge (redirectPatch url)) =
      some (redirected url configMap) := by
  rw [merge_redirectPatch]
  exact read_put_data (ConfigMap.lawful_codec.read_write configMap) (nodup_membersOf configMap) _

/-! ## Changes made twice -/

/-- Of two urls only the second is kept. -/
theorem redirected_redirected (first second : String) (configMap : ConfigMap) :
    redirected second (redirected first configMap) = redirected second configMap := by
  simp only [redirected, Option.getD_some, TextMap.insert_insert]

/-- Of two marks only the second is kept. -/
theorem scaledDown_scaledDown {τ : Type} (first second : String) (deployment : Deployment τ) :
    scaledDown (scaledDown deployment first) second = scaledDown deployment second := by
  simp only [scaledDown, Option.getD_some, TextMap.insert_insert]

/-! ## Times

A deployment is read with its points in time, but it is written with the seconds that they lie in.
The steps do what they would do if it were read with instants. -/

section Times

variable {τ σ : Type}

theorem scaledDown_map (f : τ → σ) (deployment : Deployment τ) (restartedAt : String) :
    scaledDown (deployment.map f) restartedAt = (scaledDown deployment restartedAt).map f := by
  obtain ⟨metadata, spec, status⟩ := deployment
  cases spec <;> rfl

variable [Timed τ] [Timed σ] {change : τ → σ}

theorem scaleDown_map (h : (Timed.codec : Codec τ).Refines Timed.codec change)
    (deployment : Deployment τ) :
    scaleDown (deployment.map change) = Deployment.map change <$> scaleDown deployment := by
  have hcodec := Deployment.refines_codec h
  simp only [scaleDown, scaledDown_map, replace, hcodec.write_eq, call_change hcodec, map_bind,
    bind_map_left, map_pure]
  rfl

theorem stepsDated_eq (h : (Timed.codec : Codec τ).Refines Timed.codec change)
    (url : Option String) : stepsDated σ url = stepsDated τ url := by
  have hcodec := Deployment.refines_codec h
  simp only [stepsDated, Cluster.get, call_change hcodec, Task.mapFault_map, bind_map_left,
    scaleDown_map h]

end Times

theorem steps_eq_dated (url : Option String) : steps url = stepsDated Instant url :=
  (stepsDated_eq refines_pointInTime url).symm

/-! ## What is kept -/

/-- The collection of the configuration map. -/
abbrev configMaps : Collection := .configMaps serviceNamespace

/-- The collection of the deployment. -/
abbrev deployments : Collection := .deployments serviceNamespace

/-- The configuration map of the service, as it is kept. -/
def keptConfigMap (objects : Objects) : Option ConfigMap :=
  objects configMaps configMapName.name

/-- The deployment of the service, as it is kept. -/
def keptDeployment (objects : Objects) : Option Deployment :=
  objects deployments deploymentName.name

@[simp]
theorem keptConfigMap_put {objects : Objects} {stored : ConfigMap} :
    keptConfigMap (objects.put configMaps configMapName.name stored) = some stored :=
  Objects.put_self

@[simp]
theorem keptDeployment_put {objects : Objects} {stored : Deployment} :
    keptDeployment (objects.put deployments deploymentName.name stored) = some stored :=
  Objects.put_self

theorem keptDeployment_put_configMap {objects : Objects} {stored : ConfigMap} :
    keptDeployment (objects.put configMaps configMapName.name stored) = keptDeployment objects :=
  Objects.put_of_ne (by rintro ⟨⟩)

theorem keptConfigMap_put_deployment {objects : Objects} {stored : Deployment} :
    keptConfigMap (objects.put deployments deploymentName.name stored) = keptConfigMap objects :=
  Objects.put_of_ne (by rintro ⟨⟩)

/-- The deployment has the name that it is kept under. -/
def IsNamed (deployment : Deployment) : Prop :=
  deployment.metadata.name = some deploymentName.name ∧
    deployment.metadata.namespaceName = some serviceNamespace

/-- The deployment that is kept, if there is one, is kept under its own name. -/
def KeepsNamed (objects : Objects) : Prop :=
  ∀ deployment, keptDeployment objects = some deployment → IsNamed deployment

/-! ## A push -/

section Push

variable (server : Server) {world : World}

theorem isSome_uri_patch (patch : Json) :
    (Request.mergePatch configMaps configMapName.name patch).uri?.isSome = true := by
  rw [isSome_uri?]
  show isTarget ((configMaps.path ++ "/" ++ configMapName.name ++ "?").toList.takeWhile _) = true
  decide

theorem isSome_uri_replace (body : Json) :
    (Request.replace deployments deploymentName.name body).uri?.isSome = true := by
  rw [isSome_uri?]
  show isTarget ((deployments.path ++ "/" ++ deploymentName.name ++ "?").toList.takeWhile _) = true
  decide

theorem isSome_uri_get : (Request.get deployments deploymentName.name).uri?.isSome = true := by
  rw [isSome_uri?]
  decide

theorem run_patchConfigMap_missing (url : String) (h : keptConfigMap world.store.objects = none) :
    ∃ fault after, World.run server (patchConfigMap url).run world = (.error fault, after) ∧
      after.store.objects = world.store.objects := by
  have hjudge := Server.judge_mergePatch_missing server h (redirectPatch url)
  obtain ⟨⟨fault, hdecode, -⟩, hobjects, -⟩ := Server.serve_refused ConfigMap.codec hjudge
  have hcall := World.run_call server ConfigMap.codec (isSome_uri_patch (redirectPatch url)) world
  rw [hdecode] at hcall
  exact ⟨fault, _, Task.run_bind_error hcall, hobjects⟩

theorem run_patchConfigMap (url : String) {configMap : ConfigMap}
    (h : keptConfigMap world.store.objects = some configMap) :
    ∃ stored after, World.run server (patchConfigMap url).run world = (.ok stored, after) ∧
      stored = server.fill world.store.served configMaps (some configMap)
        (redirected url configMap) ∧
      after.store.objects = world.store.objects.put configMaps configMapName.name stored := by
  have hstale : server.isStale configMaps configMap (redirected url configMap) = false :=
    Server.isStale_eq_false server rfl
  have hjudge := Server.judge_mergePatch server h (read_merge_redirectPatch url configMap) hstale
  obtain ⟨hdecode, hobjects, -⟩ := Server.serve_write hjudge
  have hcall := World.run_call server ConfigMap.codec (isSome_uri_patch (redirectPatch url)) world
  rw [show Reply.decode ConfigMap.codec _ = _ from hdecode] at hcall
  exact ⟨_, _, Task.run_bind_ok hcall, rfl, hobjects⟩

theorem run_getDeployment_missing (h : keptDeployment world.store.objects = none) :
    ∃ fault after, World.run server
        (get Deployment.codec deployments deploymentName.name).run world = (.error fault, after) ∧
      after.store.objects = world.store.objects := by
  have hjudge := Server.judge_get_none server h
  obtain ⟨⟨fault, hdecode, -⟩, hobjects, -⟩ := Server.serve_refused Deployment.codec hjudge
  have hcall := World.run_call server Deployment.codec isSome_uri_get world
  rw [hdecode] at hcall
  exact ⟨fault, _, hcall, hobjects⟩

theorem run_getDeployment {deployment : Deployment}
    (h : keptDeployment world.store.objects = some deployment) :
    ∃ after, World.run server
        (get Deployment.codec deployments deploymentName.name).run world = (.ok deployment, after) ∧
      after.store.objects = world.store.objects := by
  have hjudge := Server.judge_get_some server h
  obtain ⟨hdecode, hobjects, -⟩ := Server.serve_read hjudge
  have hcall := World.run_call server Deployment.codec isSome_uri_get world
  rw [show Reply.decode Deployment.codec _ = _ from hdecode] at hcall
  exact ⟨_, hcall, hobjects⟩

/-- The deployment that is kept is scaled down. -/
theorem run_scaleDown {deployment : Deployment} (hnamed : IsNamed deployment)
    (h : keptDeployment world.store.objects = some deployment) :
    ∃ stored after,
      World.run server (scaleDown deployment).run world = (.ok stored, after) ∧
      stored = server.fill world.store.served deployments (some deployment)
        (scaledDown deployment world.machine.clock.rfc3339) ∧
      after.store.objects = world.store.objects.put deployments deploymentName.name stored := by
  generalize hscaled : scaledDown deployment world.machine.clock.rfc3339 = scaled
  have hname : scaled.metadata.name = some deploymentName.name := hscaled ▸ hnamed.1
  have hnamespace : scaled.metadata.namespaceName = some serviceNamespace := hscaled ▸ hnamed.2
  have hstale : server.isStale deployments deployment scaled = false := by
    rw [← hscaled]
    exact Server.isStale_eq_false server rfl
  have hjudge := Server.judge_replace server h hstale
  obtain ⟨hdecode, hobjects, -⟩ := Server.serve_write hjudge
  have hcall := World.run_call server Deployment.codec
    (isSome_uri_replace (Deployment.codec.write scaled)) world
  rw [show Reply.decode Deployment.codec _ = _ from hdecode] at hcall
  have hclock : World.run server (Task.readClock : Task ClientFault Instant).run world =
      (.ok world.machine.clock, world) := rfl
  have hrun : World.run server (scaleDown deployment).run world =
      World.run server (do
        let stored ← replace Deployment.codec deployments deploymentName.name scaled
        Task.report (.scaledDown ⟨serviceNamespace, deploymentName.name⟩)
        return stored : Task ClientFault Deployment).run world := by
    refine (Task.run_bind_ok hclock).trans ?_
    simp only [hscaled, hname, hnamespace, Option.getD_some]
    rfl
  exact ⟨_, _, hrun.trans (Task.run_bind_ok hcall), rfl, hobjects⟩

/-- What a push of a url at a time makes of the objects that are kept. -/
inductive Pushed (server : Server) (url : String) (now : Instant) (objects : Objects) :
    Objects → Prop where
  | unset (h : url = "") : Pushed server url now objects objects
  | missing (h : keptConfigMap objects = none) : Pushed server url now objects objects
  | patched {configMap patched : ConfigMap} {count : Nat} (hurl : url ≠ "")
      (hfound : keptConfigMap objects = some configMap) (hnone : keptDeployment objects = none)
      (hpatched :
        patched = server.fill count configMaps (some configMap) (redirected url configMap)) :
      Pushed server url now objects (objects.put configMaps configMapName.name patched)
  | scaled {configMap patched : ConfigMap} {deployment scaled : Deployment}
      {count count' : Nat} (hurl : url ≠ "")
      (hfound : keptConfigMap objects = some configMap)
      (hdeployment : keptDeployment objects = some deployment)
      (hpatched :
        patched = server.fill count configMaps (some configMap) (redirected url configMap))
      (hscaled : scaled = server.fill count' deployments (some deployment)
        (scaledDown deployment now.rfc3339)) :
      Pushed server url now objects
        ((objects.put configMaps configMapName.name patched).put deployments deploymentName.name
          scaled)

theorem run_steps (url : Option String)
    (hnamed : KeepsNamed world.store.objects) :
    ∃ outcome after, World.run server (steps url).run world = (outcome, after) ∧
      Pushed server (url.getD "") world.machine.clock world.store.objects
        after.store.objects := by
  rw [steps_eq_dated]
  unfold stepsDated
  generalize url.getD "" = url
  by_cases hurl : url = ""
  · exact ⟨.error .redirectUrlNotSet, world, by simp only [hurl, if_true]; rfl, .unset hurl⟩
  simp only [hurl, if_false]
  cases hconfigMap : keptConfigMap world.store.objects with
  | none =>
    obtain ⟨fault, after, hrun, hobjects⟩ :=
      run_patchConfigMap_missing server url hconfigMap
    refine ⟨_, after, Task.run_bind_error (Task.run_mapFault hrun), ?_⟩
    rw [hobjects]
    exact .missing hconfigMap
  | some configMap =>
    obtain ⟨patched, between, hpatch, hpatched, hobjects⟩ :=
      run_patchConfigMap server url hconfigMap
    have hsame : keptDeployment between.store.objects = keptDeployment world.store.objects := by
      rw [hobjects, keptDeployment_put_configMap]
    cases hdeployment : keptDeployment world.store.objects with
    | none =>
      obtain ⟨fault, after, hget, hafter⟩ :=
        run_getDeployment_missing server (hsame.trans hdeployment)
      refine ⟨_, after, (Task.run_bind_ok (Task.run_mapFault hpatch)).trans
        (Task.run_bind_error (Task.run_mapFault hget)), ?_⟩
      rw [hafter, hobjects]
      exact .patched hurl hconfigMap hdeployment hpatched
    | some deployment =>
      obtain ⟨found, hget, hfound⟩ :=
        run_getDeployment server (hsame.trans hdeployment)
      obtain ⟨scaled, after, hscale, hscaled, hafter⟩ :=
        run_scaleDown server (hnamed _ hdeployment) (hfound ▸ hsame.trans hdeployment)
      -- the clock is read after the patch and the search, which leave it alone
      have hpatchClock := World.clock_run server (patchConfigMap url).run world
      have hgetClock := World.clock_run server
        (get Deployment.codec deployments deploymentName.name).run between
      rw [hpatch] at hpatchClock
      rw [hget] at hgetClock
      rw [show found.machine.clock = world.machine.clock from hgetClock.trans hpatchClock]
        at hscaled
      refine ⟨_, after, (Task.run_bind_ok (Task.run_mapFault hpatch)).trans
        ((Task.run_bind_ok (Task.run_mapFault hget)).trans
          (Task.run_bind_ok (Task.run_mapFault hscale))), ?_⟩
      rw [hafter, hfound, hobjects]
      exact .scaled hurl hconfigMap hdeployment hpatched hscaled

/-- A push ends, whatever the server keeps, and leads to nothing but what is listed. -/
theorem run_push (url : Option String) (world : World)
    (hnamed : KeepsNamed world.store.objects) :
    ∃ after, World.run server (push url) world = ((), after) ∧
      Pushed server (url.getD "") world.machine.clock world.store.objects
        after.store.objects := by
  obtain ⟨outcome, after, hrun, hpushed⟩ := run_steps server url hnamed
  have hsteps : Procedure.run (World.handler server) (steps url).run world = (outcome, after) :=
    hrun
  cases outcome with
  | ok value =>
    refine ⟨after, (Procedure.run_bind _ _ _ _).trans ?_, hpushed⟩
    rw [hsteps]
    rfl
  | error event =>
    -- the report does nothing to what is kept
    refine ⟨{ after with machine := after.machine.record [.reported event] },
      (Procedure.run_bind _ _ _ _).trans ?_, hpushed⟩
    rw [hsteps]
    rfl

end Push

end PreviewInstaller.OauthRedirect

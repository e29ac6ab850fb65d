import PreviewInstaller.Proofs.Cluster.Wire
import PreviewInstaller.Proofs.Installation.Actions
import PreviewInstaller.Proofs.OauthRedirect

set_option autoImplicit false

/-! # The effect of a push

What a push of the redirect url leaves in the store of a server that reads its requests from their
bytes. Main statement: the configuration map says the url, character by character, and the
deployment is scaled down and marked; all else that the two say, and every other object, is as
before. What is missing stays missing, and a later push with another url leaves the configuration
map that it would have left by itself. -/

namespace PreviewInstaller.OauthRedirect

open Cluster
open Procedure (Performs)

/-! ## Requests as bytes -/

theorem isReadable_redirectPatch (url : String) : (redirectPatch url).isReadable = true := rfl

theorem sendsReadable_of_redirectAction {action : Action} (h : Install.RedirectAction action) :
    World.SendsReadable action := by
  cases h with
  | tell hevent => exact .intro
  | patch url =>
    rintro body ⟨⟩
    exact isReadable_redirectPatch url
  | find => nofun
  | readClock => exact .intro
  | scale namespaceName name scaled =>
    rintro body ⟨⟩
    exact Deployment.lawful_codec.write_readable scaled

/-- A push runs as if the server were handed its requests. -/
theorem runWired_push (server : Server) (url : Option String) (world : World) :
    World.runWired server (push url) world = World.run server (push url) world :=
  World.runWired_eq server
    ((Install.performs_push url).mono fun _ => sendsReadable_of_redirectAction) world

/-! ## What is sent -/

/-- Texts say a value of a key, and of every other key what they said before. Texts that are absent
say nothing. -/
structure SetsText (key value : String) (before after : Option Texts) : Prop where
  set : after.bind (·.get? key) = some value
  others : ∀ other, other ≠ key → after.bind (·.get? other) = before.bind (·.get? other)

theorem setsText_insert (key value : String) (before : Option Texts) :
    SetsText key value before (some ((before.getD .empty).insert key value)) where
  set := by
    rw [Option.bind_some, TextMap.get?_insert, if_pos rfl]
  others other hother := by
    rw [Option.bind_some, TextMap.get?_insert, if_neg hother]
    cases before <;> rfl

/-- A configuration map points at a url, and says everything else that it said before. -/
structure PointsAt (url : String) (before after : ConfigMap) : Prop where
  data : SetsText redirectUrlKey url before.data after.data
  binaryData : after.binaryData = before.binaryData
  immutable : after.immutable = before.immutable
  metadata : after.metadata = before.metadata

theorem pointsAt_redirected (url : String) (configMap : ConfigMap) :
    PointsAt url configMap (redirected url configMap) :=
  ⟨setsText_insert redirectUrlKey url configMap.data, rfl, rfl, rfl⟩

/-- A deployment is scaled down and marked with a time, and says everything else that it said
before. A specification that is absent counts as the one that has nothing but defaults. -/
structure IsScaledDown (now : Instant) (before after : Deployment) : Prop where
  replicas : after.spec.bind (·.replicas) = some 0
  spec : after.spec.map ({ · with replicas := none }) =
    some { before.spec.getD {} with replicas := none }
  annotations :
    SetsText restartedAtKey now.rfc3339 before.metadata.annotations after.metadata.annotations
  metadata : { after.metadata with annotations := none } =
    { before.metadata with annotations := none }
  status : after.status = before.status

theorem isScaledDown_scaledDown (now : Instant) (deployment : Deployment) :
    IsScaledDown now deployment (scaledDown deployment now.rfc3339) :=
  ⟨rfl, rfl, setsText_insert restartedAtKey now.rfc3339 deployment.metadata.annotations, rfl, rfl⟩

/-! ## What is kept -/

/-- What a push of a url at a time makes of the objects of a server, as far as the server does not
fill them in by itself. -/
structure Effect (server : Server) (url : String) (now : Instant) (before after : Objects) :
    Prop where
  /-- The configuration map points at the url. -/
  configMap : ∀ found, keptConfigMap before = some found → ∃ sent,
    PointsAt url found sent ∧ server.Agree configMaps (keptConfigMap after) (some sent)
  /-- The deployment is scaled down. -/
  deployment : ∀ found, keptDeployment before = some found → keptConfigMap before ≠ none →
    ∃ sent, IsScaledDown now found sent ∧
      server.Agree deployments (keptDeployment after) (some sent)
  /-- Without the configuration map nothing changes. -/
  unpatched : keptConfigMap before = none → after = before
  /-- Without the deployment only the configuration map changes. -/
  unscaled : keptDeployment before = none → ∀ collection name,
    (collection, name) ≠ (configMaps, configMapName.name) →
      after collection name = before collection name
  /-- Nothing else changes. -/
  others : ∀ collection name, (collection, name) ≠ (configMaps, configMapName.name) →
    (collection, name) ≠ (deployments, deploymentName.name) →
      after collection name = before collection name
  /-- The deployment keeps its name. -/
  named : KeepsNamed before → KeepsNamed after

section Pushed

variable {server : Server} {url : String} {now : Instant} {objects after : Objects}

/-- A deployment has the name that it has without what the server fills in. -/
theorem isNamed_of_content {first second : Deployment}
    (h : deployments.content first = deployments.content second) (hnamed : IsNamed second) :
    IsNamed first :=
  have hmetadata := congrArg Deployment.metadata h
  ⟨(congrArg Metadata.name hmetadata).trans hnamed.1,
    (congrArg Metadata.namespaceName hmetadata).trans hnamed.2⟩

theorem configMap_of_pushed (h : Pushed server url now objects after) (hurl : url ≠ "") :
    server.Agree configMaps (keptConfigMap after)
      ((keptConfigMap objects).map (redirected url)) := by
  cases h with
  | unset hempty => exact absurd hempty hurl
  | missing hmissing =>
    rw [hmissing]
    exact .refl _
  | @patched configMap patched count _ hfound hnone hpatched =>
    rw [keptConfigMap_put, hfound, hpatched]
    exact .of_fill count _ _
  | @scaled configMap patched deployment scaled count count' _ hfound hkept hpatched hscaled =>
    rw [keptConfigMap_put_deployment, keptConfigMap_put, hfound, hpatched]
    exact .of_fill count _ _

theorem effect_of_pushed (h : Pushed server url now objects after) (hurl : url ≠ "") :
    Effect server url now objects after := by
  have hconfigMap : ∀ found, keptConfigMap objects = some found → ∃ sent,
      PointsAt url found sent ∧ server.Agree configMaps (keptConfigMap after) (some sent) := by
    intro found hfound
    have hagree := configMap_of_pushed h hurl
    rw [hfound] at hagree
    exact ⟨_, pointsAt_redirected url found, hagree⟩
  cases h with
  | unset hempty => exact absurd hempty hurl
  | missing hmissing =>
    exact ⟨hconfigMap, fun _ _ hthere => absurd hmissing hthere, fun _ => rfl, fun _ _ _ _ => rfl,
      fun _ _ _ _ => rfl, id⟩
  | @patched configMap patched count _ hfound hnone hpatched =>
    have hsame : keptDeployment (objects.put configMaps configMapName.name patched) = none :=
      keptDeployment_put_configMap.trans hnone
    refine ⟨hconfigMap, fun found hkept => ?_, fun hmissing => ?_,
      fun _ collection name hne => Objects.put_of_ne hne,
      fun collection name hne _ => Objects.put_of_ne hne, fun _ found hkept => ?_⟩
    · cases hnone.symm.trans hkept
    · cases hmissing.symm.trans hfound
    · cases hsame.symm.trans hkept
  | @scaled configMap patched deployment scaled count count' _ hfound hkept hpatched hscaled =>
    have hagree : server.Agree deployments (some scaled)
        (some (scaledDown deployment now.rfc3339)) := by
      rw [hscaled]
      exact .of_fill count' _ _
    refine ⟨hconfigMap, fun found hkept' _ => ?_, fun hmissing => ?_, fun hnone => ?_,
      fun collection name hne hne' =>
        (Objects.put_of_ne hne').trans (Objects.put_of_ne hne), fun hnamed found hkept' => ?_⟩
    · cases hkept.symm.trans hkept'
      refine ⟨_, isScaledDown_scaledDown now deployment, ?_⟩
      rw [keptDeployment_put]
      exact hagree
    · cases hmissing.symm.trans hfound
    · cases hnone.symm.trans hkept
    · cases keptDeployment_put.symm.trans hkept'
      exact isNamed_of_content (Option.some.inj hagree.content) (hnamed deployment hkept)

end Pushed

/-- What a push of a url makes of the store of a server, and that a later push leaves the
configuration map that it would have left without the earlier one. -/
theorem push_effect (server : Server) {url : String} (hurl : url ≠ "") (world : World)
    (hnamed : KeepsNamed world.store.objects) :
    ∃ after, World.runWired server (push (some url)) world = ((), after) ∧
      Effect server url world.machine.clock world.store.objects after.store.objects ∧
      ∀ url' later, url' ≠ "" → KeepsNamed later.store.objects →
        keptConfigMap later.store.objects = keptConfigMap after.store.objects →
          server.Agree configMaps
            (keptConfigMap (World.runWired server (push (some url')) later).2.store.objects)
            (keptConfigMap (World.runWired server (push (some url')) world).2.store.objects) := by
  have hpush : ∀ (url : String) (world : World), KeepsNamed world.store.objects →
      ∃ after, World.runWired server (push (some url)) world = ((), after) ∧
        Pushed server url world.machine.clock world.store.objects after.store.objects := by
    intro url world hnamed
    rw [runWired_push]
    exact run_push server (some url) world hnamed
  obtain ⟨after, hrun, hpushed⟩ := hpush url world hnamed
  refine ⟨after, hrun, effect_of_pushed hpushed hurl, fun url' later hurl' hlater hsame => ?_⟩
  obtain ⟨both, hboth, hpushedBoth⟩ := hpush url' later hlater
  obtain ⟨single, hsingle, hpushedSingle⟩ := hpush url' world hnamed
  rw [hboth, hsingle]
  -- the later push replaces the url in what the earlier one made of the configuration map
  have hearlier : server.Agree configMaps
      ((keptConfigMap later.store.objects).map (redirected url'))
      ((keptConfigMap world.store.objects).map (redirected url')) := by
    have hmapped : server.Agree configMaps _ (Option.map (redirected url') _) :=
      (configMap_of_pushed hpushed hurl).map (fun _ => rfl) (fun _ => rfl)
    rw [← hsame, Option.map_map] at hmapped
    simpa only [Function.comp_def, redirected_redirected] using hmapped
  exact (configMap_of_pushed hpushedBoth hurl').trans
    (hearlier.trans (configMap_of_pushed hpushedSingle hurl').symm)

/-- A configuration map with texts and bytes of its own. -/
def settledConfigMap : ConfigMap where
  binaryData := some (TextMap.empty.insert "ca.der" [48, 130, 1])
  data := some (TextMap.empty.insert "BASE_URL" "https://spi.example")
  metadata :=
    { name := some configMapName.name
      namespaceName := some serviceNamespace
      labels := some (TextMap.empty.insert "app" "spi") }

/-- The template of a pod with a volume and a container that takes its settings from the
configuration map. -/
def servingTemplate : Json :=
  .object
    [("metadata", .object [("labels", .object [("app", .text "spi")])]),
     ("spec", .object
      [("containers", .array [.object
        [("envFrom", .array
          [.object [("configMapRef", .object [("name", .text configMapName.name)])]]),
         ("image", .text "spi-oauth:1"), ("name", .text "oauth"),
         ("resources", .object [("limits", .object [("memory", .text "128Mi")])]),
         ("volumeMounts", .array [.object [("mountPath", .text "/ca"), ("name", .text "ca")]])]]),
       ("volumes", .array [.object
        [("name", .text "ca"), ("secret", .object [("secretName", .text "ca")])]])])]

/-- A deployment that runs two of these pods. -/
def servingJson : Json :=
  .object
    [("metadata", .object
      [("name", .text deploymentName.name), ("namespace", .text serviceNamespace)]),
     ("spec", .object
      [("replicas", .ofInt 2),
       ("selector", .object [("matchLabels", .object [("app", .text "spi")])]),
       ("template", servingTemplate)])]

/-- The deployment as it is read. -/
def servingDeployment : Deployment :=
  (Deployment.codec.read servingJson).getD {}

/-- A store that keeps these two. -/
def servingStore : Store where
  objects := (Store.empty.objects.put configMaps configMapName.name settledConfigMap).put
    deployments deploymentName.name servingDeployment
  served := 0

theorem isNamed_servingDeployment : IsNamed servingDeployment :=
  ⟨by decide +kernel, by decide +kernel⟩

set_option maxRecDepth 2000 in
/-- The template is read with all that it says. -/
theorem template_servingDeployment : ∃ spec, servingDeployment.spec = some spec ∧
    PodTemplate.codec.write spec.template = servingTemplate :=
  ⟨_, rfl, rfl⟩

/-- A push of a url with a quote, a backslash, a line break and a letter beyond ASCII, to a server
that keeps what it is sent. -/
theorem push_effect_quoted :
    let url := "https://proxy.example/\"é\"?a=\\\n"
    let world : World := ⟨bareMachine, servingStore⟩
    url ≠ "" ∧ KeepsNamed world.store.objects ∧
      ∃ after, World.runWired (Server.keeping true) (push (some url)) world = ((), after) ∧
        (∃ configMap, keptConfigMap after.store.objects = some configMap ∧
          configMap.data.bind (·.get? redirectUrlKey) = some url ∧
          configMap.data.bind (·.get? "BASE_URL") = some "https://spi.example" ∧
          configMap.binaryData = settledConfigMap.binaryData ∧
          configMap.metadata = settledConfigMap.metadata) ∧
        ∃ deployment, keptDeployment after.store.objects = some deployment ∧
          deployment.spec.bind (·.replicas) = some 0 ∧
          (deployment.spec.map (·.template)).map PodTemplate.codec.write =
            some servingTemplate := by
  intro url world
  have hurl : url ≠ "" := by decide
  have hdeployment : keptDeployment world.store.objects = some servingDeployment :=
    keptDeployment_put
  have hconfigMap : keptConfigMap world.store.objects = some settledConfigMap :=
    keptConfigMap_put_deployment.trans keptConfigMap_put
  have hnamed : KeepsNamed world.store.objects := by
    intro deployment hkept
    obtain rfl := Option.some.inj (hdeployment.symm.trans hkept)
    exact isNamed_servingDeployment
  have hnothing := Server.fillsNothing_keeping true
  obtain ⟨after, hrun, heffect, -⟩ := push_effect (Server.keeping true) hurl world hnamed
  obtain ⟨configMap, hpoints, hpatched⟩ := heffect.configMap _ hconfigMap
  obtain ⟨deployment, hdown, hscaled⟩ :=
    heffect.deployment _ hdeployment (by rw [hconfigMap]; nofun)
  have hother := hpoints.data.others "BASE_URL" (by decide)
  obtain ⟨spec, hspec, hwritten⟩ := template_servingDeployment
  have htemplate : deployment.spec.map (·.template) = some spec.template := by
    have hsame := congrArg (Option.map (·.template)) hdown.spec
    rwa [Option.map_map, hspec] at hsame
  exact ⟨hurl, hnamed, after, hrun,
    ⟨configMap, hpatched.same hnothing, hpoints.data.set, hother, hpoints.binaryData,
      hpoints.metadata⟩,
    ⟨deployment, hscaled.same hnothing, hdown.replicas, by
      rw [htemplate, Option.map_some, hwritten]⟩⟩

end PreviewInstaller.OauthRedirect

import PreviewInstaller.Install
import PreviewInstaller.Proofs.OauthRedirect

set_option autoImplicit false

/-! # The actions of an installation

What the parts of an installation can do at all: the checkout, the script, the redirect and the
secret. Each part has one list of its actions, and whatever the answers are, its runs consist of
these. What holds of all actions of a list so holds of every run of the part. -/

namespace PreviewInstaller.Install

open Procedure (Performs)
open Cluster

/-! ## The checkout -/

/-- What a checkout can do. -/
inductive CheckoutAction (checkout : Checkout) : Action → Prop where
  | find : CheckoutAction checkout (.findDirectory checkout.directory)
  | tellRemoval : CheckoutAction checkout (.report (.removingFolder checkout.directory))
  | remove : CheckoutAction checkout (.removeDirectory checkout.directory)
  | tellCloning : CheckoutAction checkout
      (.report (.cloning checkout.url (branchReference checkout.branch)))
  | clone : CheckoutAction checkout (.clone checkout.url checkout.branch checkout.directory)
  | addRemote : CheckoutAction checkout
      (.addRemote checkout.directory checkout.forkRemote checkout.forkUrl)
  | tellRemote : CheckoutAction checkout
      (.report (.addedRemote checkout.forkRemote checkout.forkUrl))

section Checkout

variable {property : Action → Prop}

theorem performs_removeStale {directory : Path} (hfind : property (.findDirectory directory))
    (htell : property (.report (.removingFolder directory)))
    (hremove : property (.removeDirectory directory)) :
    Performs property (Checkout.removeStale directory).run := by
  refine Task.performs_bind (Task.performs_act hfind) fun found => ?_
  cases found with
  | true =>
    refine Task.performs_bind (Task.performs_report htell) fun _ => ?_
    exact Task.performs_bind (Task.performs_act hremove) fun _ => Task.performs_orThrow _ _
  | false => exact .done _

theorem performs_cloneBranch {url branch : String} {directory : Path}
    (htell : property (.report (.cloning url (branchReference branch))))
    (hclone : property (.clone url branch directory)) :
    Performs property (Checkout.cloneBranch url branch directory).run := by
  refine Task.performs_bind (Task.performs_report htell) fun _ => ?_
  refine Task.performs_bind (Task.performs_act hclone) fun outcome => ?_
  cases outcome with
  | done => exact .done _
  | failed fault => exact .done _
  | crashed => exact .done _

theorem performs_addForkRemote {directory : Path} {name url : String}
    (hremote : property (.addRemote directory name url))
    (htell : property (.report (.addedRemote name url))) :
    Performs property (Checkout.addForkRemote directory name url).run := by
  refine Task.performs_bind (Task.performs_act hremote) fun _ => ?_
  exact Task.performs_bind (Task.performs_orThrow _ _) fun _ => Task.performs_report htell

end Checkout

theorem performs_sync (checkout : Checkout) :
    Performs (CheckoutAction checkout) checkout.sync.run := by
  refine Task.performs_bind (performs_removeStale .find .tellRemoval .remove) fun _ => ?_
  refine Task.performs_bind (performs_cloneBranch .tellCloning .clone) fun _ => ?_
  exact performs_addForkRemote .addRemote .tellRemote

/-! ## The script -/

/-- The command that runs the script of a checkout. -/
def scriptCommand (directory : Path) (environment : TextMap String) : Command where
  program := directory.join Bootstrap.previewScript
  arguments := Bootstrap.previewArguments
  workingDirectory := directory
  environment := environment.entries

/-- What the part that runs the script can do. -/
inductive ScriptAction (directory : Path) (environment : TextMap String) : Action → Prop where
  | tellStart : ScriptAction directory environment
      (.report (.running Bootstrap.previewScript Bootstrap.previewArguments directory))
  | launch : ScriptAction directory environment (.launch (scriptCommand directory environment))
  | tellEnd : ScriptAction directory environment (.report (.finished Bootstrap.previewScript))

theorem performs_runPreview (directory : Path) (environment : TextMap String) :
    Performs (ScriptAction directory environment)
      (Bootstrap.runPreview directory environment).run := by
  refine Task.performs_bind (Task.performs_report .tellStart) fun _ => ?_
  refine Task.performs_bind (Task.performs_act .launch) fun outcome => ?_
  refine Task.performs_bind (Task.performs_orThrow _ _) fun status => ?_
  cases status.isSuccess with
  | true => exact Task.performs_report .tellEnd
  | false => exact .done _

/-! ## The redirect -/

/-- What can be reported of the redirect. -/
inductive RedirectEvent : Event → Prop where
  | notSet : RedirectEvent .redirectUrlNotSet
  | patchFailed (fault : ClientFault) :
      RedirectEvent (.patchFailed OauthRedirect.configMapName fault)
  | patched : RedirectEvent (.patched OauthRedirect.configMapName OauthRedirect.redirectUrlKey)
  | lookupFailed (fault : ClientFault) :
      RedirectEvent (.deploymentLookupFailed OauthRedirect.deploymentName fault)
  | scaleDownFailed (fault : ClientFault) :
      RedirectEvent (.scaleDownFailed OauthRedirect.deploymentName fault)
  | scaledDown (deployment : ObjectName) : RedirectEvent (.scaledDown deployment)

/-- What the redirect can do. -/
inductive RedirectAction : Action → Prop where
  | tell {event : Event} (h : RedirectEvent event) : RedirectAction (.report event)
  | patch (url : String) : RedirectAction
      (.send (.mergePatch (.configMaps OauthRedirect.serviceNamespace)
        OauthRedirect.configMapName.name (OauthRedirect.redirectPatch url)))
  | find : RedirectAction
      (.send (.get (.deployments OauthRedirect.serviceNamespace)
        OauthRedirect.deploymentName.name))
  | readClock : RedirectAction .readClock
  | scale (namespaceName name : String) (scaled : Deployment) : RedirectAction
      (.send (.replace (.deployments namespaceName) name (Deployment.codec.write scaled)))

theorem performs_patchConfigMap (url : String) :
    Performs RedirectAction (OauthRedirect.patchConfigMap url).run := by
  unfold OauthRedirect.patchConfigMap
  refine Task.performs_bind (performs_call (.patch url)) fun patched => ?_
  exact Task.performs_bind (Task.performs_report (.tell .patched)) fun _ => Task.performs_pure _

theorem performs_scaleDown (deployment : Deployment) :
    Performs RedirectAction (OauthRedirect.scaleDown deployment).run := by
  unfold OauthRedirect.scaleDown
  refine Task.performs_bind (Task.performs_act .readClock) fun now => ?_
  refine Task.performs_bind (performs_call (.scale _ _ _)) fun stored => ?_
  exact Task.performs_bind (Task.performs_report (.tell (.scaledDown _))) fun _ =>
    Task.performs_pure _

theorem performs_steps (url : Option String) :
    Performs RedirectAction (OauthRedirect.steps url).run := by
  rw [OauthRedirect.steps_eq_dated]
  unfold OauthRedirect.stepsDated
  dsimp only
  split
  · exact .done _
  refine Task.performs_bind (Task.performs_mapFault (performs_patchConfigMap _)) fun _ => ?_
  refine Task.performs_bind (Task.performs_mapFault (performs_call .find)) fun deployment => ?_
  exact Task.performs_bind (Task.performs_mapFault (performs_scaleDown _)) fun _ =>
    Task.performs_pure _

theorem throws_steps (url : Option String) :
    Task.Throws RedirectEvent (OauthRedirect.steps url) := by
  unfold OauthRedirect.steps OauthRedirect.stepsDated
  dsimp only
  split
  · exact .done RedirectEvent.notSet
  refine Task.throws_bind (Task.throws_mapFault _ .patchFailed) fun _ => ?_
  refine Task.throws_bind (Task.throws_mapFault _ .lookupFailed) fun deployment => ?_
  exact Task.throws_bind (Task.throws_mapFault _ .scaleDownFailed) fun _ => Task.throws_pure _

theorem performs_push (url : Option String) :
    Performs RedirectAction (OauthRedirect.push url) := by
  refine (performs_steps url).bind_of_ends (throws_steps url) fun outcome houtcome => ?_
  cases outcome with
  | ok _ => exact .done _
  | error event => exact .perform (.tell houtcome) fun _ => .done _

/-! ## The secret -/

/-- What the provision of the secret can do. -/
inductive SecretAction : Action → Prop where
  | findNamespace : SecretAction (.send (.get .namespaces QuaySecret.secretNamespace))
  | createNamespace (body : Json) : SecretAction (.send (.create .namespaces body))
  | tellNamespace : SecretAction (.report (.createdNamespace QuaySecret.secretNamespace))
  | findSecret : SecretAction
      (.send (.get (.secrets QuaySecret.secretNamespace) QuaySecret.secretName))
  | createSecret (body : Json) : SecretAction
      (.send (.create (.secrets QuaySecret.secretNamespace) body))
  | tellCreated : SecretAction
      (.report (.createdSecret ⟨QuaySecret.secretNamespace, QuaySecret.secretName⟩))
  | updateSecret (body : Json) : SecretAction
      (.send (.replace (.secrets QuaySecret.secretNamespace) QuaySecret.secretName body))
  | tellUpdated : SecretAction
      (.report (.updatedSecret ⟨QuaySecret.secretNamespace, QuaySecret.secretName⟩))

theorem performs_ensureNamespace :
    Performs SecretAction (QuaySecret.ensureNamespace QuaySecret.secretNamespace).run := by
  unfold QuaySecret.ensureNamespace
  refine Task.performs_bind (Task.performs_outcome (performs_call .findNamespace)) fun found => ?_
  cases found with
  | ok _ => exact Task.performs_pure _
  | error fault =>
    dsimp only
    split
    · refine Task.performs_bind (Task.performs_mapFault (performs_call (.createNamespace _)))
        fun _ => ?_
      exact Task.performs_report .tellNamespace
    · exact Task.performs_throw _

theorem performs_applySecret (dockerConfig : List UInt8) :
    Performs SecretAction (QuaySecret.applySecret QuaySecret.secretName QuaySecret.secretNamespace
      dockerConfig).run := by
  unfold QuaySecret.applySecret
  refine Task.performs_bind (Task.performs_outcome (performs_call .findSecret)) fun found => ?_
  cases found with
  | ok secret =>
    refine Task.performs_bind (Task.performs_mapFault (performs_call (.updateSecret _)))
      fun _ => ?_
    exact Task.performs_bind (Task.performs_report .tellUpdated) fun _ => Task.performs_pure _
  | error fault =>
    dsimp only
    split
    · refine Task.performs_bind (Task.performs_mapFault (performs_call (.createSecret _)))
        fun _ => ?_
      exact Task.performs_bind (Task.performs_report .tellCreated) fun _ => Task.performs_pure _
    · exact Task.performs_throw _

theorem performs_provision (token : String) :
    Performs SecretAction (QuaySecret.provision token).run := by
  unfold QuaySecret.provision
  refine Task.performs_bind (Task.performs_orThrow _ _) fun dockerConfig => ?_
  exact Task.performs_bind performs_ensureNamespace fun _ => performs_applySecret _

/-! ## The whole -/

/-- What an installation can do. -/
inductive InstallationAction (checkout : Checkout) (config : Config) : Action → Prop where
  | tell (event : Event) : InstallationAction checkout config (.report event)
  | checkout {action : Action} :
      CheckoutAction checkout action → InstallationAction checkout config action
  | script {action : Action} : ScriptAction checkout.directory config.environment action →
      InstallationAction checkout config action
  | redirect {action : Action} : RedirectAction action → InstallationAction checkout config action
  | secret {action : Action} : SecretAction action → InstallationAction checkout config action

theorem performs_runFrom (checkout : Checkout) (config : Config) :
    Performs (InstallationAction checkout config) (runFrom checkout config).run := by
  unfold runFrom
  refine Task.performs_bind ((performs_sync _).mono fun _ => .checkout) fun _ => ?_
  refine Task.performs_bind (Task.performs_report (.tell _)) fun _ => ?_
  refine Task.performs_bind ((performs_runPreview _ _).mono fun _ => .script) fun _ => ?_
  refine Task.performs_bind (Task.performs_lift ((performs_push _).mono fun _ => .redirect))
    fun _ => ?_
  refine Task.performs_bind ((performs_provision _).mono fun _ => .secret) fun _ => ?_
  exact Task.performs_report (.tell _)

theorem performs_installation (config : Config) :
    Performs (InstallationAction (.ofConfig config) config) (run config).run :=
  Task.performs_bind (Task.performs_report (.tell _)) fun _ => performs_runFrom _ config

end PreviewInstaller.Install

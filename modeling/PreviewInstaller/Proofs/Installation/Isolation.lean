import PreviewInstaller.Proofs.Installation.Order
import PreviewInstaller.Proofs.TwoRuns

set_option autoImplicit false

/-! # The redirect in isolation

The redirect is a courtesy: whatever becomes of it, the rest of the installation does not notice.
Without the steps of the redirect, the steps of an installation are those of an installation that
has none, and so two installations that are told different urls, or get different answers about the
redirect, do the same otherwise and end in the same way. -/

namespace PreviewInstaller.Install

open Procedure Cluster

/-! ## Steps of the redirect -/

/-- Whether an event tells of the redirect. -/
def tellsOfRedirect : Event → Bool
  | .redirectUrlNotSet | .patchFailed .. | .patched .. | .deploymentLookupFailed ..
  | .scaleDownFailed .. | .scaledDown _ => true
  | _ => false

/-- Whether an action is the redirect's: a request for its objects, a report of it, or the look at
the clock. -/
def belongsToRedirect : Action → Bool
  | .report event => tellsOfRedirect event
  | .send request => Stage.ofCollection request.collection = .redirect
  | .readClock => true
  | _ => false

theorem belongsToRedirect_redirect {action : Action} (h : RedirectAction action) :
    belongsToRedirect action = true := by
  cases h with
  | tell h => cases h <;> rfl
  | _ => rfl

theorem belongsToRedirect_checkout {checkout : Checkout} {action : Action}
    (h : CheckoutAction checkout action) : belongsToRedirect action = false := by
  cases h <;> rfl

theorem belongsToRedirect_script {directory : Path} {environment : TextMap String}
    {action : Action} (h : ScriptAction directory environment action) :
    belongsToRedirect action = false := by
  cases h <;> rfl

theorem belongsToRedirect_secret {action : Action} (h : SecretAction action) :
    belongsToRedirect action = false := by
  cases h <;> rfl

/-- The steps that are not the redirect's, in order. -/
def apart (steps : List Step) : List Step :=
  steps.filter fun step => !belongsToRedirect step.action

theorem apart_append (before after : List Step) :
    apart (before ++ after) = apart before ++ apart after :=
  List.filter_append before after

theorem apart_eq_self {α : Type} {procedure : Procedure α} {steps : List Step} {value : α}
    (h : Performs (fun action => belongsToRedirect action = false) procedure)
    (hsteps : Yields procedure steps value) : apart steps = steps := by
  refine List.filter_eq_self.2 fun step hstep => ?_
  simp [h.of_mem_steps hsteps step hstep]

theorem apart_eq_nil {url : Option String} {steps : List Step}
    (h : Yields (OauthRedirect.push url) steps ()) : apart steps = [] := by
  refine List.filter_eq_nil_iff.2 fun step hstep => ?_
  simp [belongsToRedirect_redirect ((performs_push url).of_mem_steps h step hstep)]

/-! ## Installations without the redirect -/

/-- An installation that has no redirect. -/
def runApart (checkout : Checkout) (config : Config) : Task Error Unit := do
  prepare checkout config
  let _ ← QuaySecret.provision config.quayToken
  Task.report .installed

variable {checkout : Checkout} {config : Config} {steps : List Step} {result : Except Error Unit}

theorem performs_prepare_apart (checkout : Checkout) (config : Config) :
    Performs (fun action => belongsToRedirect action = false) (prepare checkout config).run := by
  refine Task.performs_bind ((performs_sync _).mono fun _ h => belongsToRedirect_checkout h)
    fun _ => ?_
  refine Task.performs_bind (Task.performs_report rfl) fun _ => ?_
  exact (performs_runPreview _ _).mono fun _ h => belongsToRedirect_script h

theorem performs_provision_apart (token : String) :
    Performs (fun action => belongsToRedirect action = false)
      (do let _ ← QuaySecret.provision token; Task.report .installed : Task Error Unit).run :=
  Task.performs_bind ((performs_provision _).mono fun _ h => belongsToRedirect_secret h)
    fun _ => Task.performs_report rfl

/-- What an installation does without the redirect's steps is what one without a redirect does. -/
theorem yields_apart (h : Yields (runFrom checkout config).run steps result) :
    Yields (runApart checkout config).run (apart steps) result := by
  rcases yields_iff_prepared.1 h with
    ⟨error, hprepared, rfl⟩ | ⟨prepared, deployed, rfl, hprepared, hdeployed⟩
  · rw [apart_eq_self (performs_prepare_apart _ _) hprepared]
    exact Task.yields_bind_iff.2 (.inl ⟨error, hprepared, rfl⟩)
  · obtain ⟨pushed, ⟨⟩, provided, rfl, hpush, hprovided⟩ := Task.yields_lift_bind_iff.1 hdeployed
    rw [apart_append, apart_append, apart_eq_self (performs_prepare_apart _ _) hprepared,
      apart_eq_nil hpush, apart_eq_self (performs_provision_apart _) hprovided, List.nil_append]
    exact Task.yields_bind_iff.2 (.inr ⟨prepared, (), provided, rfl, hprepared, hprovided⟩)

/-! ## Two installations -/

/-- The requests for the namespace of the secret and for the secret in it, in order. -/
def secretRequests (steps : List Step) : List Request :=
  (requests steps).filter fun request => Stage.ofCollection request.collection = .secret

theorem secretRequests_append (before after : List Step) :
    secretRequests (before ++ after) = secretRequests before ++ secretRequests after := by
  simp [secretRequests, requests]

theorem secretRequests_eq_nil {step : Step} (h : belongsToRedirect step.action = true) :
    secretRequests [step] = [] := by
  obtain ⟨action, answer⟩ := step
  cases action with
  | send request =>
    have hstage : Stage.ofCollection request.collection = .redirect := by
      simpa [belongsToRedirect] using h
    simp [secretRequests, requests, hstage]
  | _ => rfl

/-- The redirect sends no request for the namespace or for the secret. -/
theorem secretRequests_apart (steps : List Step) :
    secretRequests (apart steps) = secretRequests steps := by
  induction steps with
  | nil => rfl
  | cons step rest ih =>
    rw [← List.singleton_append, apart_append, secretRequests_append, secretRequests_append, ih]
    cases hbelongs : belongsToRedirect step.action with
    | true =>
      have hdropped : apart [step] = [] := by simp [apart, hbelongs]
      rw [hdropped, secretRequests_eq_nil hbelongs]
      rfl
    | false =>
      have hkept : apart [step] = [step] := by simp [apart, hbelongs]
      rw [hkept]

/-- Two installations that differ in the redirect url, and in what is answered to the requests of
the redirect, end in the same way and ask the same of the namespace and the secret; what they do
apart from the redirect is the same throughout. -/
theorem runFrom_isolates_redirect (checkout : Checkout) (config : Config) (url : Option String)
    (steps steps' : List Step) (result result' : Except Error Unit)
    (h : Yields (runFrom checkout config).run steps result)
    (h' : Yields (runFrom checkout { config with oauthRedirectProxyUrl := url }).run steps' result')
    (hanswers : AnsweredAlike Eq (apart steps) (apart steps')) :
    result = result' ∧ secretRequests steps = secretRequests steps' ∧
      apart steps = apart steps' := by
  have hother : runApart checkout { config with oauthRedirectProxyUrl := url } =
      runApart checkout config := rfl
  obtain ⟨hsteps, hresult⟩ := yields_unique (yields_apart h) (hother ▸ yields_apart h') hanswers
  refine ⟨hresult, ?_, hsteps⟩
  rw [← secretRequests_apart steps, hsteps, secretRequests_apart]

/-- The steps of the same installation with a redirect url, where the patch fails as well. -/
def unpatchedSteps : List Step :=
  unavailableSteps.take 9 ++
    [⟨.send (.mergePatch (.configMaps OauthRedirect.serviceNamespace)
        OauthRedirect.configMapName.name (OauthRedirect.redirectPatch "https://proxy")),
        .serviceFailure "unavailable"⟩,
     ⟨.report (.patchFailed OauthRedirect.configMapName (.service "unavailable")), ()⟩] ++
    unavailableSteps.drop 10

theorem yields_unpatched :
    Yields (runFrom (.ofConfig plainConfig)
        { plainConfig with oauthRedirectProxyUrl := some "https://proxy" }).run unpatchedSteps
      (.error (.namespaceLookup QuaySecret.secretNamespace (.service "unavailable"))) :=
  .perform _ <| .perform _ <| .perform _ <| .perform _ <| .perform _ <| .perform _ <|
    .perform _ <| .perform _ <| .perform _ <| .perform _ <| .perform _ <| .perform _ <| .done _

theorem runFrom_isolates_redirect_unpatched :
    AnsweredAlike Eq (apart unavailableSteps) (apart unpatchedSteps) ∧
      secretRequests unavailableSteps = secretRequests unpatchedSteps ∧
      apart unavailableSteps = apart unpatchedSteps := by
  have hanswers : AnsweredAlike Eq (apart unavailableSteps) (apart unpatchedSteps) :=
    .of_forall₂ (List.forall₂_same.2 fun _ _ => ⟨rfl, .rfl⟩)
  obtain ⟨-, hrequests, hapart⟩ := runFrom_isolates_redirect (.ofConfig plainConfig) plainConfig
    "https://proxy" _ _ _ _ yields_unavailable yields_unpatched hanswers
  exact ⟨hanswers, hrequests, hapart⟩

end PreviewInstaller.Install

import PreviewInstaller.Proofs.Config
import PreviewInstaller.Proofs.Disk.Launch
import PreviewInstaller.Proofs.Installation.Order
import PreviewInstaller.Proofs.QuaySecret.Phase
import PreviewInstaller.Proofs.TwoRuns

set_option autoImplicit false

/-! # Confidentiality

Two installations that differ in their secrets, and in nothing else, cannot be told apart: they
report the same, fail with the same error or not at all, and send the same requests but for the
docker configuration that the secret is there to hold. The secrets go to the script, as variables,
and nowhere else. -/

namespace PreviewInstaller.Install

open Procedure Cluster QuaySecret

/-! ## Secrets -/

/-- What a configuration holds that nobody is to see. -/
structure Secrets where
  githubToken : String
  defaultQuayOrgToken : String
  pacGithubAppPrivateKey : String
  quayToken : String

/-- The configuration with these secrets. -/
def withSecrets (config : Config) (secrets : Secrets) : Config :=
  { config with
    githubToken := secrets.githubToken
    defaultQuayOrgToken := secrets.defaultQuayOrgToken
    pacGithubAppPrivateKey := secrets.pacGithubAppPrivateKey
    quayToken := secrets.quayToken }

/-- A text that a variable can hold. -/
def IsClean (text : String) : Prop :=
  '\x00' ∉ text.toList

/-- Secrets that variables can hold. -/
structure Secrets.Clean (secrets : Secrets) : Prop where
  githubToken : IsClean secrets.githubToken
  defaultQuayOrgToken : IsClean secrets.defaultQuayOrgToken
  pacGithubAppPrivateKey : IsClean secrets.pacGithubAppPrivateKey
  quayToken : IsClean secrets.quayToken

/-- Tokens that are equal or both accepted. -/
def TokensAlike (first second : String) : Prop :=
  first = second ∨
    ∃ dockerConfig dockerConfig', decodeToken first = .ok dockerConfig ∧
      decodeToken second = .ok dockerConfig'

/-! ## Requests with the docker configuration withheld -/

/-- An object with the members of a key changed. -/
def changeMember (key : String) (change : Json → Json) : Json → Json
  | .object members =>
    .object (members.map fun (k, value) => (k, if k = key then change value else value))
  | json => json

/-- A secret without the value of its docker configuration. -/
def withheldBody : Json → Json :=
  changeMember "data" (changeMember dockerConfigKey fun _ => .null)

/-- A request without the value of the docker configuration that it stores in a secret. -/
def withheld : Request → Request
  | .create (.secrets namespaceName) body =>
    .create (.secrets namespaceName) (withheldBody body)
  | .replace (.secrets namespaceName) name body =>
    .replace (.secrets namespaceName) name (withheldBody body)
  | request => request

theorem withheldBody_updatedSecret (secret : Secret) (first second : List UInt8) :
    withheldBody (Secret.codec.write (updatedSecret secret first)) =
      withheldBody (Secret.codec.write (updatedSecret secret second)) := rfl

theorem withheldBody_freshSecret (name namespaceName : String) (first second : List UInt8) :
    withheldBody (Secret.codec.write (freshSecret name namespaceName first)) =
      withheldBody (Secret.codec.write (freshSecret name namespaceName second)) := rfl

/-! ## Actions that are alike -/

/-- The variables of the script that hold secrets. -/
def secretVariables : List String :=
  ["MY_GITHUB_TOKEN", "QUAY_TOKEN", "IMAGE_CONTROLLER_QUAY_TOKEN", "PAC_GITHUB_APP_PRIVATE_KEY"]

/-- A variable with the same value, or another one that is no less fit for a variable if it is a
secret. -/
def VariablesAlike (first second : String × String) : Prop :=
  first.1 = second.1 ∧
    (first.2 = second.2 ∨ first.1 ∈ secretVariables ∧ IsClean first.2 ∧ IsClean second.2)

theorem VariablesAlike.refl (entry : String × String) : VariablesAlike entry entry :=
  ⟨rfl, .inl rfl⟩

/-- Commands that differ in secrets at most. -/
structure CommandsAlike (first second : Command) : Prop where
  program : first.program = second.program
  arguments : first.arguments = second.arguments
  workingDirectory : first.workingDirectory = second.workingDirectory
  environment : List.Forall₂ VariablesAlike first.environment second.environment

theorem CommandsAlike.refl (command : Command) : CommandsAlike command command :=
  ⟨rfl, rfl, rfl, List.forall₂_same.2 fun _ _ => .refl _⟩

/-- Actions that differ in secrets at most. -/
inductive ActionsAlike : Action → Action → Prop where
  | same (action : Action) : ActionsAlike action action
  | launch {command command' : Command} (h : CommandsAlike command command') :
      ActionsAlike (.launch command) (.launch command')
  | send {request request' : Request} (h : withheld request = withheld request') :
      ActionsAlike (.send request) (.send request')

variable {first second : Secrets} {config : Config} {checkout : Checkout} {ε α : Type}

/-! ## Installations in step -/

theorem environment_withSecrets (hfirst : first.Clean) (hsecond : second.Clean) :
    List.Forall₂ VariablesAlike (withSecrets config first).environment.entries
      (withSecrets config second).environment.entries := by
  have hsecret : ∀ name value value', name ∈ secretVariables → IsClean value → IsClean value' →
      VariablesAlike (name, value) (name, value') :=
    fun _ _ _ hname hvalue hvalue' => ⟨rfl, .inr ⟨hname, hvalue, hvalue'⟩⟩
  rw [Config.entries_environment, Config.entries_environment]
  refine .cons (.refl _) (.cons ?_ (.cons (.refl _) (.cons (.refl _) (.cons ?_ (.cons (.refl _)
    (.cons ?_ (.cons (.refl _) (.cons (.refl _) (.cons ?_ .nil)))))))))
  · exact hsecret _ _ _ (by decide) hfirst.githubToken hsecond.githubToken
  · exact hsecret _ _ _ (by decide) hfirst.quayToken hsecond.quayToken
  · exact hsecret _ _ _ (by decide) hfirst.defaultQuayOrgToken hsecond.defaultQuayOrgToken
  · exact hsecret _ _ _ (by decide) hfirst.pacGithubAppPrivateKey hsecond.pacGithubAppPrivateKey

theorem inStep_same (task : Task ε α) :
    InStep ActionsAlike (Task.SameOutcome Eq) task.run task.run :=
  Task.inStep_refl .same task

/-- Calls whose requests differ in what is withheld are in step. -/
theorem inStep_call {codec : Codec α} {request request' : Request}
    (huri : request.uri? = request'.uri?) (h : withheld request = withheld request') :
    InStep ActionsAlike (Task.SameOutcome Eq) (call codec request).run
      (call codec request').run := by
  unfold call
  rw [huri]
  cases request'.uri? with
  | none => exact inStep_same _
  | some uri =>
    refine .perform (.send h) fun reply reply' hreply => ?_
    obtain rfl := eq_of_heq hreply
    exact inStep_same (Task.orThrow id (reply.decode codec))

theorem inStep_runPreview {directory : Path} {environment environment' : TextMap String}
    (h : List.Forall₂ VariablesAlike environment.entries environment'.entries) :
    InStep ActionsAlike (Task.SameOutcome Eq) (Bootstrap.runPreview directory environment).run
      (Bootstrap.runPreview directory environment').run := by
  refine Task.inStep_bind (inStep_same (Task.report _)) fun _ _ _ => ?_
  refine .perform (.launch ⟨rfl, rfl, rfl, h⟩) fun outcome outcome' houtcome => ?_
  obtain rfl := eq_of_heq houtcome
  exact inStep_same (do
    let status ← Task.orThrow (Error.launch Bootstrap.previewScript) outcome
    if status.isSuccess then Task.report (.finished Bootstrap.previewScript)
    else throw (.bootstrapFailed Bootstrap.previewScript status))

theorem inStep_applySecret (name namespaceName : String) (dockerConfig dockerConfig' : List UInt8) :
    InStep ActionsAlike (Task.SameOutcome Eq) (applySecret name namespaceName dockerConfig).run
      (applySecret name namespaceName dockerConfig').run := by
  refine Task.inStep_bind (inStep_same _) fun found found' hfound => ?_
  subst hfound
  cases found with
  | ok secret =>
    have hreplace : withheld (.replace (.secrets namespaceName) name
          (Secret.codec.write (updatedSecret secret dockerConfig))) =
        withheld (.replace (.secrets namespaceName) name
          (Secret.codec.write (updatedSecret secret dockerConfig'))) :=
      congrArg (Request.replace _ _) (withheldBody_updatedSecret secret _ _)
    refine Task.inStep_bind (Task.inStep_mapFault _ (inStep_call rfl hreplace)) ?_
    rintro stored _ rfl
    exact inStep_same _
  | error fault =>
    dsimp only
    split
    · have hcreate : withheld (.create (.secrets namespaceName)
            (Secret.codec.write (freshSecret name namespaceName dockerConfig))) =
          withheld (.create (.secrets namespaceName)
            (Secret.codec.write (freshSecret name namespaceName dockerConfig'))) :=
        congrArg (Request.create _) (withheldBody_freshSecret name namespaceName _ _)
      refine Task.inStep_bind (Task.inStep_mapFault _ (inStep_call rfl hcreate)) ?_
      rintro stored _ rfl
      exact inStep_same _
    · exact inStep_same _

theorem inStep_provision {token token' : String} (h : TokensAlike token token') :
    InStep ActionsAlike (Task.SameOutcome Eq) (provision token).run (provision token').run := by
  obtain rfl | ⟨dockerConfig, dockerConfig', htoken, htoken'⟩ := h
  · exact inStep_same _
  · rw [Phase.run_provision htoken, Phase.run_provision htoken']
    refine Task.inStep_bind (inStep_same (ensureNamespace secretNamespace)) fun _ _ _ => ?_
    exact inStep_applySecret _ _ _ _

theorem announcement_withSecrets (config : Config) (secrets : Secrets) :
    announcement (withSecrets config secrets) = announcement config := by
  rw [announcement, announcement, Config.get?_testBranchIdVariable,
    Config.get?_testBranchIdVariable]
  rfl

theorem inStep_prepare (checkout : Checkout) (config : Config) (hfirst : first.Clean)
    (hsecond : second.Clean) :
    InStep ActionsAlike (Task.SameOutcome Eq) (prepare checkout (withSecrets config first)).run
      (prepare checkout (withSecrets config second)).run := by
  unfold prepare
  rw [announcement_withSecrets, announcement_withSecrets]
  refine Task.inStep_bind (inStep_same checkout.sync) fun _ _ _ => ?_
  refine Task.inStep_bind (inStep_same (Task.report (announcement config))) fun _ _ _ => ?_
  exact inStep_runPreview (environment_withSecrets hfirst hsecond)

/-- Installations that differ in their secrets are in step. -/
theorem inStep_runFrom (checkout : Checkout) (config : Config) (hfirst : first.Clean)
    (hsecond : second.Clean) (htokens : TokensAlike first.quayToken second.quayToken) :
    InStep ActionsAlike (Task.SameOutcome Eq) (runFrom checkout (withSecrets config first)).run
      (runFrom checkout (withSecrets config second)).run := by
  rw [runFrom_eq, runFrom_eq]
  refine Task.inStep_bind (inStep_prepare checkout config hfirst hsecond) fun _ _ _ => ?_
  refine Task.inStep_bind (inStep_same (ExceptT.lift _)) fun _ _ _ => ?_
  refine Task.inStep_bind (inStep_provision htokens) fun _ _ _ => ?_
  exact inStep_same (Task.report .installed)

/-! ## Machines -/

/-- Whether a NUL byte stands in the name or in the value of a variable. -/
def entryHasNul (entry : String × String) : Bool :=
  entry.1.toList.contains '\x00' || entry.2.toList.contains '\x00'

theorem entryHasNul_eq {entry entry' : String × String} (h : VariablesAlike entry entry') :
    entryHasNul entry = entryHasNul entry' := by
  obtain ⟨hname, hvalue | ⟨-, hclean, hclean'⟩⟩ := h
  · simp only [entryHasNul, hname, hvalue]
  · simp_all [entryHasNul, IsClean]

/-- Commands that are alike are fit to be started or not together. -/
theorem commandHasNul_eq {command command' : Command} (h : CommandsAlike command command') :
    Disk.commandHasNul command = Disk.commandHasNul command' := by
  have hentries : ∀ {entries entries' : List (String × String)},
      List.Forall₂ VariablesAlike entries entries' →
        entries.any entryHasNul = entries'.any entryHasNul := by
    intro entries entries' hentries
    induction hentries with
    | nil => rfl
    | cons hentry _ ih => rw [List.any_cons, List.any_cons, ih, entryHasNul_eq hentry]
  have hnul := hentries h.environment
  unfold Disk.commandHasNul
  rw [h.program, h.workingDirectory, h.arguments]
  exact congrArg _ hnul

theorem launch_alike {command command' : Command} (h : CommandsAlike command command')
    (disk : Disk) (here : Location) (inherited : TextMap String) :
    (disk.launch here inherited command).1 = (disk.launch here inherited command').1 ∧
      (disk.launch here inherited command).2.2 = (disk.launch here inherited command').2.2 := by
  refine Disk.launch_of_prepare ?_ inherited
  unfold Disk.prepare
  rw [commandHasNul_eq h, h.program, h.workingDirectory]

/-- Whether a line or a text is a report of the installer or of the cluster client, and not what
the script printed. -/
def isLogged : Emission → Bool
  | .printed _ => false
  | _ => true

/-- What was logged on a machine, in order. -/
def logged (machine : Machine) : List Emission :=
  machine.entries.filter isLogged

theorem logged_record (machine : Machine) (entries : List Emission) :
    logged (machine.record entries) = logged machine ++ entries.filter isLogged := by
  simp [logged, Machine.entries, Machine.record]

/-- Machines that differ at most in what was printed and in what is withheld of the requests. -/
structure MachinesAlike (first second : Machine) : Prop where
  machine : ∃ transcript requests, second = { first with transcript, requests }
  logged : logged first = logged second
  requests : first.requests.map withheld = second.requests.map withheld

theorem MachinesAlike.refl (machine : Machine) : MachinesAlike machine machine :=
  ⟨⟨_, _, rfl⟩, rfl, rfl⟩

/-- What is printed may differ, what is logged may not. -/
theorem MachinesAlike.record {machine machine' : Machine} {entries entries' : List Emission}
    (h : MachinesAlike machine machine')
    (hentries : entries.filter isLogged = entries'.filter isLogged) :
    MachinesAlike (machine.record entries) (machine'.record entries') := by
  obtain ⟨⟨transcript, requests, rfl⟩, hlogged, hrequests⟩ := h
  refine ⟨⟨_, _, rfl⟩, ?_, hrequests⟩
  rw [logged_record, logged_record, hlogged, hentries]

theorem filter_isLogged_printed (printed : List Printed) :
    (printed.map Emission.printed).filter isLogged = [] := by
  simp [isLogged]

theorem answer_launch (machine : Machine) (command : Command) :
    machine.answer (.launch command) =
      let launched := machine.disk.launch machine.here machine.environment command
      (launched.1, Machine.record { machine with disk := launched.2.2 }
        (launched.2.1.map .printed)) := rfl

theorem machinesAlike_launch {command command' : Command} {machine machine' : Machine}
    (hcommand : CommandsAlike command command') (h : MachinesAlike machine machine') :
    (machine.answer (.launch command)).1 = (machine'.answer (.launch command')).1 ∧
      MachinesAlike (machine.answer (.launch command)).2
        (machine'.answer (.launch command')).2 := by
  obtain ⟨⟨transcript, requests, rfl⟩, hlogged, hrequests⟩ := h
  obtain ⟨hanswer, hdisk⟩ :=
    launch_alike hcommand machine.disk machine.here machine.environment
  refine ⟨hanswer, ?_⟩
  rw [answer_launch, answer_launch]
  dsimp only
  rw [hdisk]
  have hmachine : ∀ disk, MachinesAlike { machine with disk }
      { machine with disk, transcript, requests } :=
    fun disk => ⟨⟨_, _, rfl⟩, hlogged, hrequests⟩
  -- the two scripts may have printed what they were given
  refine (hmachine _).record ?_
  rw [filter_isLogged_printed, filter_isLogged_printed]

theorem machinesAlike_send {request request' : Request} {machine machine' : Machine}
    (hrequest : withheld request = withheld request') (h : MachinesAlike machine machine') :
    (machine.send request).1 = (machine'.send request').1 ∧
      MachinesAlike (machine.send request).2 (machine'.send request').2 := by
  have hmachine := h
  obtain ⟨⟨transcript, requests, rfl⟩, hlogged, hrequests⟩ := h
  obtain ⟨disk, environment, directory, aliases, network, fault, clock, letters, _, _⟩ := machine
  cases network with
  | unreachable => exact ⟨rfl, hmachine.record rfl⟩
  | scripted replies =>
    refine ⟨rfl, ⟨_, _, rfl⟩, hlogged, ?_⟩
    exact congrArg₂ List.cons hrequest hrequests

/-- Machines that are alike answer actions that are alike in the same way, and stay alike. -/
theorem machinesAlike_answer {action action' : Action} {machine machine' : Machine}
    (haction : ActionsAlike action action') (h : MachinesAlike machine machine') :
    HEq (machine.answer action).1 (machine'.answer action').1 ∧
      MachinesAlike (machine.answer action).2 (machine'.answer action').2 := by
  cases haction with
  | launch hcommand =>
    obtain ⟨hanswer, hafter⟩ := machinesAlike_launch hcommand h
    exact ⟨heq_of_eq hanswer, hafter⟩
  | send hrequest =>
    obtain ⟨hanswer, hafter⟩ := machinesAlike_send hrequest h
    exact ⟨heq_of_eq hanswer, hafter⟩
  | same =>
    cases action with
    | report event => exact ⟨.rfl, h.record rfl⟩
    | launch command =>
      obtain ⟨hanswer, hafter⟩ := machinesAlike_launch (.refl command) h
      exact ⟨heq_of_eq hanswer, hafter⟩
    | send request =>
      have hrequest : withheld request = withheld request := rfl
      obtain ⟨hanswer, hafter⟩ := machinesAlike_send hrequest h
      exact ⟨heq_of_eq hanswer, hafter⟩
    | _ =>
      obtain ⟨⟨transcript, requests, rfl⟩, hlogged, hrequests⟩ := h
      exact ⟨.rfl, ⟨_, _, rfl⟩, hlogged, hrequests⟩

/-! ## Two installations -/

theorem reports_eq {steps steps' : List Step}
    (h : List.Forall₂ (StepsAlike ActionsAlike) steps steps') : reports steps = reports steps' := by
  refine filterMap_eq_of_forall₂ h fun ⟨_, _⟩ ⟨_, _⟩ ⟨haction, _⟩ => ?_
  cases haction <;> rfl

theorem withheld_requests_eq {steps steps' : List Step}
    (h : List.Forall₂ (StepsAlike ActionsAlike) steps steps') :
    (requests steps).map withheld = (requests steps').map withheld := by
  simp only [requests, List.map_filterMap]
  refine filterMap_eq_of_forall₂ h fun ⟨_, _⟩ ⟨_, _⟩ ⟨haction, _⟩ => ?_
  cases haction with
  | same => rfl
  | launch h => rfl
  | send h => exact congrArg some h

/-- Installations that differ in their secrets report the same, end with the same result and send
the same requests but for the docker configuration, as long as the world answers them alike; and a
machine does, where the client logs the same as well. -/
theorem runFrom_hides_secrets (checkout : Checkout) (config : Config) (first second : Secrets)
    (hfirst : first.Clean) (hsecond : second.Clean)
    (htokens : TokensAlike first.quayToken second.quayToken) :
    (∀ steps steps' result result',
      Yields (runFrom checkout (withSecrets config first)).run steps result →
      Yields (runFrom checkout (withSecrets config second)).run steps' result' →
      AnsweredAlike ActionsAlike steps steps' →
        result = result' ∧ reports steps = reports steps' ∧
          (requests steps).map withheld = (requests steps').map withheld) ∧
      ∀ machine : Machine,
        let (result, after) := machine.run (runFrom checkout (withSecrets config first)).run
        let (result', after') := machine.run (runFrom checkout (withSecrets config second)).run
        result = result' ∧ logged after = logged after' ∧
          after.requests.map withheld = after'.requests.map withheld := by
  have hinstep := inStep_runFrom checkout config hfirst hsecond htokens
  constructor
  · intro steps steps' result result' hsteps hsteps' hanswers
    obtain ⟨halike, hresult⟩ := hinstep.yields hsteps hsteps' hanswers
    exact ⟨hresult.eq, reports_eq halike, withheld_requests_eq halike⟩
  · intro machine
    have hanswers : ∀ action action' (machine machine' : Machine), ActionsAlike action action' →
        MachinesAlike machine machine' →
          HEq (Machine.handler.answer action machine).1
              (Machine.handler.answer action' machine').1 ∧
            MachinesAlike (Machine.handler.answer action machine).2
              (Machine.handler.answer action' machine').2 :=
      fun _ _ _ _ => machinesAlike_answer
    obtain ⟨hresult, hafter⟩ := hinstep.run hanswers (.refl machine)
    exact ⟨hresult.eq, hafter.logged, hafter.requests⟩

/-- The secrets of one user. -/
def someSecrets : Secrets := ⟨"ghp_1", "quay_1", "-----BEGIN KEY-----", "YWJj"⟩

/-- The secrets of another one. -/
def otherSecrets : Secrets := ⟨"ghp_2", "", "", "ZGVm"⟩

/-- The steps of an installation with these secrets whose first request fails. -/
def unavailableStepsWith (secrets : Secrets) : List Step :=
  let environment := (withSecrets plainConfig secrets).environment
  unavailableSteps.set 7
    ⟨.launch (scriptCommand plainConfig.cloneDirectory environment), Except.ok (.exited 0)⟩

theorem yields_unavailableStepsWith {secrets : Secrets} {dockerConfig : List UInt8}
    (htoken : decodeToken secrets.quayToken = .ok dockerConfig) :
    Yields (runFrom (.ofConfig plainConfig) (withSecrets plainConfig secrets)).run
      (unavailableStepsWith secrets)
      (.error (.namespaceLookup QuaySecret.secretNamespace (.service "unavailable"))) := by
  have hprovision : Yields (provision secrets.quayToken).run (unavailableSteps.drop 10)
      (.error (.namespaceLookup QuaySecret.secretNamespace (.service "unavailable"))) := by
    rw [Phase.run_provision htoken]
    exact .perform _ (.done _)
  refine .perform _ <| .perform _ <| .perform _ <| .perform _ <| .perform _ <| .perform _ <|
    .perform _ <| .perform _ <| .perform _ <| .perform _ <| Task.yields_bind_iff.2 (.inl ?_)
  exact ⟨_, hprovision, rfl⟩

theorem runFrom_hides_secrets_unavailable :
    someSecrets.Clean ∧ otherSecrets.Clean ∧
      TokensAlike someSecrets.quayToken otherSecrets.quayToken ∧
      reports (unavailableStepsWith someSecrets) = reports (unavailableStepsWith otherSecrets) ∧
      (requests (unavailableStepsWith someSecrets)).map withheld =
        (requests (unavailableStepsWith otherSecrets)).map withheld := by
  have hfirst : someSecrets.Clean := by
    constructor <;> simp [someSecrets, IsClean]
  have hsecond : otherSecrets.Clean := by
    constructor <;> simp [otherSecrets, IsClean]
  have hfirstToken : decodeToken someSecrets.quayToken = .ok [97, 98, 99] := by decide
  have hsecondToken : decodeToken otherSecrets.quayToken = .ok [100, 101, 102] := by decide
  have htokens : TokensAlike someSecrets.quayToken otherSecrets.quayToken :=
    .inr ⟨[97, 98, 99], [100, 101, 102], hfirstToken, hsecondToken⟩
  have hsame : ∀ step : Step, StepsAlike ActionsAlike step step := fun step => ⟨.same _, .rfl⟩
  have hlaunch : CommandsAlike
      (scriptCommand plainConfig.cloneDirectory (withSecrets plainConfig someSecrets).environment)
      (scriptCommand plainConfig.cloneDirectory
        (withSecrets plainConfig otherSecrets).environment) :=
    ⟨rfl, rfl, rfl, environment_withSecrets hfirst hsecond⟩
  have hanswers : AnsweredAlike ActionsAlike (unavailableStepsWith someSecrets)
      (unavailableStepsWith otherSecrets) := by
    refine .of_forall₂ <| .cons (hsame _) <| .cons (hsame _) <| .cons (hsame _) <|
      .cons (hsame _) <| .cons (hsame _) <| .cons (hsame _) <| .cons (hsame _) <|
      .cons ⟨.launch hlaunch, .rfl⟩ ?_
    exact List.forall₂_same.2 fun _ _ => hsame _
  obtain ⟨-, hreports, hrequests⟩ := (runFrom_hides_secrets (.ofConfig plainConfig) plainConfig
    someSecrets otherSecrets hfirst hsecond htokens).1 _ _ _ _
      (yields_unavailableStepsWith hfirstToken) (yields_unavailableStepsWith hsecondToken) hanswers
  exact ⟨hfirst, hsecond, htokens, hreports, hrequests⟩

end PreviewInstaller.Install

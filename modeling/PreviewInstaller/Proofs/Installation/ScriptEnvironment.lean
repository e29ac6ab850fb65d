import PreviewInstaller.Machine
import PreviewInstaller.Proofs.CommandLine.Grammar
import PreviewInstaller.Proofs.Config
import PreviewInstaller.Proofs.Installation.Actions
import PreviewInstaller.Proofs.Program

set_option autoImplicit false

/-! # The environment of the script

What the bootstrap script finds in its environment, from the command line on: the options under the
names that the script knows them by, the identifier of the test run, and everything else as the
installer inherited it. Two of the names are read as well as set, so what is inherited under these
shows if the option is not given; what is inherited under the others never does. -/

namespace PreviewInstaller.Program

open CommandLine Install
open Config (scriptVariables testBranchIdVariable)
open Procedure (Step Yields Performs Reaches)

variable {environment first second : Environment} {given : Given} {name : String} {flag : Flag}

/-! ## Options and variables -/

/-- The options by the names that the script knows them by. -/
def scriptOptions : List (String × Flag) :=
  [("MY_GITHUB_ORG", .forkOrg),
   ("MY_GITHUB_TOKEN", .githubToken),
   ("MY_GIT_FORK_REMOTE", .forkRemote),
   ("QUAY_TOKEN", .quayToken),
   ("IMAGE_CONTROLLER_QUAY_ORG", .defaultQuayOrg),
   ("IMAGE_CONTROLLER_QUAY_TOKEN", .defaultQuayOrgToken),
   ("BUILD_SERVICE_IMAGE_TAG_EXPIRATION", .imageTagExpiration),
   ("PAC_GITHUB_APP_ID", .pacGithubAppId),
   ("PAC_GITHUB_APP_PRIVATE_KEY", .pacGithubAppPrivateKey)]

/-- An option is read from the variable that it sets. -/
def IsPassedOn (name : String) : Prop :=
  ∃ flag, (name, flag) ∈ scriptOptions ∧ flag.variableName? = some name

/-- Environments with the same variables but for those that are set without being read. -/
def AgreeOnRead (first second : Environment) : Prop :=
  ∀ name, (name ∈ scriptVariables → IsPassedOn name) → first.get? name = second.get? name

/-- An option that the script reads always has a value. -/
theorem valueOf?_isSome (h : (name, flag) ∈ scriptOptions) (environment : Environment)
    (given : Given) : (valueOf? environment given flag).isSome := by
  have hdefaults : ∀ entry ∈ scriptOptions, entry.2.default?.isSome := by decide
  have hdefault : flag.default?.isSome := hdefaults _ h
  simp [valueOf?, hdefault]

/-- The script's variables have the values of their options. -/
theorem get?_environment_of_mem (h : (name, flag) ∈ scriptOptions) (environment : Environment)
    (given : Given) (directory : Path) (testBranchId : String) :
    (Config.ofOptions (optionsOf environment given) directory testBranchId).environment.get? name =
      valueOf? environment given flag := by
  obtain ⟨value, hvalue⟩ := Option.isSome_iff_exists.1 (valueOf?_isSome h environment given)
  have hget : (Config.ofOptions (optionsOf environment given) directory
      testBranchId).environment.get? name = some ((valueOf? environment given flag).getD "") := by
    simp only [scriptOptions, List.mem_cons, Prod.mk.injEq, List.not_mem_nil, or_false] at h
    rcases h with ⟨rfl, rfl⟩ | ⟨rfl, rfl⟩ | ⟨rfl, rfl⟩ | ⟨rfl, rfl⟩ | ⟨rfl, rfl⟩ | ⟨rfl, rfl⟩ |
      ⟨rfl, rfl⟩ | ⟨rfl, rfl⟩ | ⟨rfl, rfl⟩ <;> rfl
  rw [hget, hvalue, Option.getD_some]

theorem isPassedOn_of_variableName? (h : flag.variableName? = some name)
    (hmem : name ∈ scriptVariables) : IsPassedOn name := by
  -- the other options are read from variables that the script does not know
  cases flag <;> cases h
  case forkOrg => exact ⟨.forkOrg, by decide, rfl⟩
  case quayToken => exact ⟨.quayToken, by decide, rfl⟩
  all_goals exact absurd hmem (by decide)

/-- What is set without being read makes no difference to the options. -/
theorem optionsOf_eq (h : AgreeOnRead first second) (given : Given) :
    optionsOf first given = optionsOf second given := by
  have hvalue : valueOf? first given = valueOf? second given := by
    funext flag
    unfold valueOf?
    cases hname : flag.variableName? with
    | none => rfl
    | some name =>
      have hget := h name (isPassedOn_of_variableName? hname)
      rw [Option.bind_some, Option.bind_some, hget]
  simp only [optionsOf, hvalue]

/-! ## The environment of a child -/

theorem get?_childVariables (inherited : TextMap String) (directory : Path)
    (own : TextMap String) (name : String) :
    (Disk.childVariables inherited (scriptCommand directory own)).get? name =
      (own.get? name).or (inherited.get? name) :=
  TextMap.get?_foldl_insert own.distinct inherited name

/-- What a script finds in its environment. -/
structure ScriptEnvironment (environment : Environment) (given : Given) (testBranchId : String)
    (child : Environment) : Prop where
  options : ∀ name flag, (name, flag) ∈ scriptOptions →
    ∃ value, child.get? name = some value ∧
      ∀ value', OptionValue environment given flag value' ↔ value' = value
  testBranchId : child.get? testBranchIdVariable = some testBranchId
  others : ∀ name, name ∉ scriptVariables → child.get? name = environment.get? name

theorem scriptEnvironment_childVariables (hnodup : (given.map (·.1)).Nodup)
    (environment : Environment) (directory : Path) (testBranchId : String) :
    let config := Config.ofOptions (optionsOf environment given) directory testBranchId
    let command := scriptCommand config.cloneDirectory config.environment
    ScriptEnvironment environment given testBranchId
      (Disk.childVariables environment command) := by
  intro config command
  constructor
  · intro name flag h
    obtain ⟨value, hvalue⟩ := Option.isSome_iff_exists.1 (valueOf?_isSome h environment given)
    refine ⟨value, ?_, fun value' => ?_⟩
    · rw [get?_childVariables, get?_environment_of_mem h, hvalue, Option.some_or]
    · rw [optionValue_iff hnodup, hvalue, Option.some_inj, eq_comm]
  · rw [get?_childVariables, Config.get?_testBranchIdVariable]
    rfl
  · intro name h
    rw [get?_childVariables, Config.get?_environment_eq_none_iff.2 h, Option.none_or]

/-- What is set without being read is not seen by the script. -/
theorem get?_childVariables_eq (h : AgreeOnRead first second) (directory : Path) (config : Config)
    (name : String) :
    (Disk.childVariables first (scriptCommand directory config.environment)).get? name =
      (Disk.childVariables second (scriptCommand directory config.environment)).get? name := by
  rw [get?_childVariables, get?_childVariables]
  by_cases hmem : name ∈ scriptVariables
  · have hsome : config.environment.get? name ≠ none :=
      fun hnone => Config.get?_environment_eq_none_iff.1 hnone hmem
    obtain ⟨value, hvalue⟩ := Option.ne_none_iff_exists'.1 hsome
    rw [hvalue, Option.some_or, Option.some_or]
  · rw [h name fun h => absurd h hmem]

/-! ## What is launched -/

/-- An action that launches nothing but the command and draws no letter. -/
structure LaunchesOnly (command : Command) (action : Action) : Prop where
  launch : ∀ other, action = .launch other → other = command
  letter : action ≠ .drawLetter

theorem performs_run (config : Config) :
    Performs (LaunchesOnly (scriptCommand config.cloneDirectory config.environment))
      (Install.run config).run := by
  refine (performs_installation config).mono fun action h => ?_
  cases h with
  | tell event => exact ⟨nofun, nofun⟩
  | checkout h => cases h <;> exact ⟨nofun, nofun⟩
  | script h =>
    cases h with
    | launch => exact ⟨fun _ h => (Action.launch.inj h).symm, nofun⟩
    | tellStart => exact ⟨nofun, nofun⟩
    | tellEnd => exact ⟨nofun, nofun⟩
  | redirect h => cases h <;> exact ⟨nofun, nofun⟩
  | secret h => cases h <;> exact ⟨nofun, nofun⟩

theorem drawnLetters_eq_nil {steps : List Step} (h : ∀ step ∈ steps, step.action ≠ .drawLetter) :
    drawnLetters steps = [] := by
  refine List.filterMap_eq_nil_iff.2 fun step hstep => ?_
  obtain ⟨action, answer⟩ := step
  cases action with
  | drawLetter => exact absurd rfl (h _ hstep)
  | _ => rfl

theorem report_of_mem_lastSteps {outcome : Except Error Unit} {step : Step}
    (h : step ∈ lastSteps outcome) : ∃ event, step.action = .report event := by
  cases outcome with
  | ok value => cases h
  | error error =>
    by_cases hcrash : error = .crash
    · subst hcrash
      cases h
    · rw [lastSteps, if_pos hcrash] at h
      obtain rfl := List.mem_singleton.1 h
      exact ⟨_, rfl⟩

/-- A session that installs launches the script of its configuration and nothing else. -/
theorem command_of_launch {arguments : List String} {steps : List Step} {ending : Ending}
    {command : Command} {answer : Except DiskFault ExitStatus}
    (hparse : parse arguments = .ok (.install, given))
    (h : Yields (session environment arguments) steps ending)
    (hlaunch : ⟨.launch command, answer⟩ ∈ steps) :
    (drawnLetters steps).length = testBranchIdLength ∧
      ∃ directory,
        let config := Config.ofOptions (optionsOf environment given) directory
          (String.ofList (drawnLetters steps));
        command = scriptCommand config.cloneDirectory config.environment := by
  obtain ⟨before, outcome, hexecute, rfl, -⟩ := (yields_session_iff hparse).1 h
  -- the last steps only report, so what is launched and drawn is launched and drawn before them
  have hlast : drawnLetters (lastSteps outcome) = [] := by
    refine drawnLetters_eq_nil fun step hstep => ?_
    obtain ⟨event, hevent⟩ := report_of_mem_lastSteps hstep
    rw [hevent]
    nofun
  have hbefore : ⟨.launch command, answer⟩ ∈ before := by
    refine (List.mem_append.1 hlaunch).resolve_right fun hstep => ?_
    obtain ⟨event, ⟨⟩⟩ := report_of_mem_lastSteps hstep
  rw [drawnLetters_append, hlast, List.append_nil]
  obtain ⟨_, hconfigure, -⟩ | ⟨made, config, ran, rfl, hmade, hran⟩ :=
    Task.yields_bind_iff.1 hexecute
  · cases (performs_configureWithCluster _).of_mem_steps hconfigure _ hbefore
  · -- letters are drawn for the configuration only, and it is the installation that launches
    have hdone := (performs_run config).of_mem_steps hran
    have hmem : ⟨.launch command, answer⟩ ∈ ran := by
      refine (List.mem_append.1 hbefore).resolve_left fun hstep => ?_
      cases (performs_configureWithCluster _).of_mem_steps hmade _ hstep
    rw [drawnLetters_append, drawnLetters_eq_nil fun step hstep => (hdone step hstep).letter,
      List.append_nil]
    obtain ⟨⟨directory, rfl⟩, hlength⟩ := yields_configureWithCluster hmade
    exact ⟨hlength, directory, (hdone _ hmem).launch command rfl⟩

/-- No action changes the environment of the machine that the installer runs on. -/
theorem environment_answer (machine : Machine) (action : Action) :
    (machine.answer action).2.environment = machine.environment := by
  cases action with
  | send request =>
    obtain ⟨_, _, _, _, network, _, _, _, _, _⟩ := machine
    cases network <;> rfl
  | _ => rfl

/-- A machine gives an action this answer, and is that one after it. -/
def AnsweredBy (action : Action) (answer : action.Answer) (machine after : Machine) : Prop :=
  machine.answer action = (answer, after)

theorem environment_of_reaches {α : Type} {procedure : Procedure α} {machine after : Machine}
    (h : Reaches AnsweredBy procedure machine after) : after.environment = machine.environment := by
  induction h with
  | stop procedure machine => rfl
  | @perform action _ machine between _ answer hstep _ ih =>
    have hbetween : (machine.answer action).2 = between := congrArg Prod.snd hstep
    exact ih.trans (hbetween ▸ environment_answer machine action)

/-- The script of an installation is launched with the options of the command line, with an
identifier of letters that were drawn, and else with what the installer inherited, whose own
environment is the same all along. What is inherited under a name that is set without being read
makes no difference to the session and is not seen by the script. -/
theorem session_configures_script (environment : Environment) (arguments : List String)
    (given : Given) (hparse : parse arguments = .ok (.install, given)) :
    (∃ words, (arguments = "install" :: words ∨ arguments = "install" :: words ++ ["--"]) ∧
      Accepts words given) ∧
    (∀ steps ending command answer, Yields (session environment arguments) steps ending →
      ⟨.launch command, answer⟩ ∈ steps →
      (drawnLetters steps).length = testBranchIdLength ∧
      ScriptEnvironment environment given (String.ofList (drawnLetters steps))
        (Disk.childVariables environment command) ∧
      ∀ inherited, AgreeOnRead environment inherited →
        Yields (session inherited arguments) steps ending ∧
        ∀ name, (Disk.childVariables inherited command).get? name =
          (Disk.childVariables environment command).get? name) ∧
    ∀ machine after, Reaches AnsweredBy (session environment arguments) machine after →
      after.environment = machine.environment := by
  have hsound := parse_sound hparse
  obtain ⟨words, -, haccepts⟩ := id hsound
  refine ⟨hsound, ?_, fun _ _ => environment_of_reaches⟩
  intro steps ending command answer h hlaunch
  obtain ⟨hlength, directory, rfl⟩ := command_of_launch hparse h hlaunch
  refine ⟨hlength, scriptEnvironment_childVariables haccepts.nodup environment directory _, ?_⟩
  intro inherited hagree
  refine ⟨?_, fun name => (get?_childVariables_eq hagree _ _ name).symm⟩
  rw [session_of_ok hparse, ← optionsOf_eq hagree, ← session_of_ok hparse]
  exact h

/-- The flags of a command line that gives two of them. -/
def someGiven : Given := [(.forkOrg, "me"), (.quayToken, "YWJj")]

/-- Variables of which the flags leave the first one unread. -/
def someEnvironment : Environment :=
  .ofEntries [("MY_GITHUB_ORG", "other"), ("GITHUB_TOKEN", "ghp_1"), ("PAC_GITHUB_APP_ID", "7"),
    ("PATH", "/bin")]

/-- The configuration that they make. -/
def someConfig : Config :=
  .ofOptions (optionsOf someEnvironment someGiven) ⟨"/work"⟩ "abcd"

/-- The steps of a session with it in which the script fails. -/
def failedSteps : List Step :=
  let directory := someConfig.cloneDirectory
  let status : ExitStatus := .exited 1
  [⟨.findWorkingDirectory, Except.ok ⟨"/work"⟩⟩,
   ⟨.drawLetter, Fin.mk 0 (by decide)⟩,
   ⟨.drawLetter, Fin.mk 1 (by decide)⟩,
   ⟨.drawLetter, Fin.mk 2 (by decide)⟩,
   ⟨.drawLetter, Fin.mk 3 (by decide)⟩,
   ⟨.connect, Except.ok ()⟩,
   ⟨.report (.usingTemporaryDirectory someConfig.tmpDir), ()⟩,
   ⟨.findDirectory directory, false⟩,
   ⟨.report (.cloning someConfig.infraDeploymentsUrl someConfig.infraDeploymentsReference), ()⟩,
   ⟨.clone someConfig.infraDeploymentsUrl someConfig.infraDeploymentsBranch directory,
      CloneOutcome.done⟩,
   ⟨.addRemote directory someConfig.forkRemote someConfig.forkAddress, Except.ok ()⟩,
   ⟨.report (.addedRemote someConfig.forkRemote someConfig.forkAddress), ()⟩,
   ⟨.report (.installing testBranchIdVariable "abcd"), ()⟩,
   ⟨.report (.running Bootstrap.previewScript Bootstrap.previewArguments directory), ()⟩,
   ⟨.launch (scriptCommand directory someConfig.environment), Except.ok status⟩,
   ⟨.report (.failed (.bootstrapFailed Bootstrap.previewScript status)), ()⟩]

theorem yields_failedSteps :
    Yields (session someEnvironment ["install", "--fork-org", "me", "--quay-token=YWJj"])
      failedSteps (.failed (.bootstrapFailed Bootstrap.previewScript (.exited 1))) :=
  .perform _ <| .perform _ <| .perform _ <| .perform _ <| .perform _ <| .perform _ <|
    .perform _ <| .perform _ <| .perform _ <| .perform _ <| .perform _ <| .perform _ <|
    .perform _ <| .perform _ <| .perform _ <| .perform _ <| .done _

theorem session_configures_script_failed :
    let inherited := someEnvironment.insert "PAC_GITHUB_APP_ID" "8"
    let command := scriptCommand someConfig.cloneDirectory someConfig.environment
    parse ["install", "--fork-org", "me", "--quay-token=YWJj"] = .ok (.install, someGiven) ∧
      AgreeOnRead someEnvironment inherited ∧
      ScriptEnvironment someEnvironment someGiven "abcd"
        (Disk.childVariables someEnvironment command) ∧
      ∀ name, (Disk.childVariables inherited command).get? name =
        (Disk.childVariables someEnvironment command).get? name := by
  intro inherited command
  have hparse : parse ["install", "--fork-org", "me", "--quay-token=YWJj"] =
      .ok (.install, someGiven) := rfl
  have hlaunch : ⟨.launch command, Except.ok (.exited 1)⟩ ∈ failedSteps := by
    simp [failedSteps, command]
  have hagree : AgreeOnRead someEnvironment inherited := by
    intro name hname
    refine (if_neg fun heq => ?_).symm.trans (TextMap.get?_insert _ _ name _).symm
    subst heq
    obtain ⟨flag, hflag, hread⟩ := hname (by decide)
    cases flag <;> revert hflag hread <;> decide
  obtain ⟨-, hscript, -⟩ := session_configures_script someEnvironment _ someGiven hparse
  obtain ⟨-, hfound, hsame⟩ := hscript _ _ _ _ yields_failedSteps hlaunch
  exact ⟨hparse, hagree, hfound, (hsame inherited hagree).2⟩

end PreviewInstaller.Program

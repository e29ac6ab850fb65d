import PreviewInstaller.Proofs.Checkout
import PreviewInstaller.Proofs.Installation.Actions
import PreviewInstaller.Proofs.Path.Join
import PreviewInstaller.Proofs.Program

set_option autoImplicit false

/-! # The clone directory

The clone lies in the temporary directory under the name of the repository, however the temporary
directory is written. Paths are compared by their names, among which `..` counts like any other,
because where it leads is up to the disk. Main statement: the only directory that a run removes is
the clone, which is neither the temporary directory nor on the way to it, and the script is found
in the clone no matter where its path is followed from. -/

namespace PreviewInstaller.Config

open Disk (startOf)
open Install (InstallationAction performs_installation performs_sync performs_provision
  performs_push)
open Procedure (Step Yields Performs)
open Program (execute ConfiguringAction)

variable {options : Options} {workingDirectory clone outer : Path} {disk : Disk} {here : Location}

/-! ## The names of the clone directory -/

theorem components_join_repositoryName (outer : Path) :
    (outer.join repositoryName).components = outer.components ++ [repositoryName] :=
  Path.components_join_of_relative rfl

/-- Names with more behind them do not start with all of these. -/
theorem not_append_prefix {names rest : List String} (hne : rest ≠ []) :
    ¬names ++ rest <+: names := by
  intro hprefix
  have hlength := hprefix.length_le
  have hrest := List.length_pos_iff.2 hne
  rw [List.length_append] at hlength
  omega

/-- Where a configuration puts the clone, by the working directory and by what is told as the
temporary directory. -/
structure PlacesClone (workingDirectory : Path) (tmpDir : String) (config : Config) : Prop where
  isAbsolute_tmpDir : config.tmpDir.isAbsolute = true
  isAbsolute : config.cloneDirectory.isAbsolute = true
  name : config.cloneDirectory.components.getLast? = some repositoryName
  parent : config.cloneDirectory.components.dropLast = config.tmpDir.components
  components_of_relative : Path.isAbsolute ⟨tmpDir⟩ = false → config.cloneDirectory.components =
    workingDirectory.components ++ Path.components ⟨tmpDir⟩ ++ [repositoryName]
  components_of_absolute : Path.isAbsolute ⟨tmpDir⟩ = true → config.cloneDirectory.components =
    Path.components ⟨tmpDir⟩ ++ [repositoryName]
  /-- It is not the temporary directory and not on the way to it. -/
  spares_tmpDir : ¬config.cloneDirectory.components <+: config.tmpDir.components
  /-- Nor is it the working directory or on the way to it, unless the temporary directory is told
  by an absolute path. -/
  spares_workingDirectory : Path.isAbsolute ⟨tmpDir⟩ = false →
    ¬config.cloneDirectory.components <+: workingDirectory.components

theorem placesClone_ofOptions (options : Options) (testBranchId : String)
    (habsolute : workingDirectory.isAbsolute = true) :
    PlacesClone workingDirectory options.tmpDir
      (.ofOptions options workingDirectory testBranchId) := by
  generalize hconfig : Config.ofOptions options workingDirectory testBranchId = config
  have htmpDir : config.tmpDir = workingDirectory.join options.tmpDir := hconfig ▸ rfl
  have hclone : config.cloneDirectory = config.tmpDir.join repositoryName := hconfig ▸ rfl
  have hcomponents : config.cloneDirectory.components =
      config.tmpDir.components ++ [repositoryName] := by
    rw [hclone, components_join_repositoryName]
  have hstarts : config.tmpDir.isAbsolute = true := by
    rw [htmpDir, Path.isAbsolute_join, habsolute, Bool.true_or]
  have hrelative : Path.isAbsolute ⟨options.tmpDir⟩ = false → config.cloneDirectory.components =
      workingDirectory.components ++ Path.components ⟨options.tmpDir⟩ ++ [repositoryName] := by
    intro h
    rw [hcomponents, htmpDir, Path.components_join_of_relative h]
  constructor
  case isAbsolute_tmpDir => exact hstarts
  case isAbsolute => rw [hclone, Path.isAbsolute_join, hstarts, Bool.true_or]
  case name => rw [hcomponents, List.getLast?_concat]
  case parent => rw [hcomponents, List.dropLast_concat]
  case components_of_relative => exact hrelative
  case components_of_absolute =>
    intro h
    rw [hcomponents, htmpDir, Path.join_of_isAbsolute h]
  case spares_tmpDir =>
    rw [hcomponents]
    exact not_append_prefix (List.cons_ne_nil _ _)
  case spares_workingDirectory =>
    intro h
    rw [hrelative h, List.append_assoc]
    exact not_append_prefix (List.append_ne_nil_of_right_ne_nil _ (List.cons_ne_nil _ _))

/-! ## What a run does with the directory -/

/-- A command that runs the script of a clone in the clone. -/
structure RunsScript (clone : Path) (command : Command) : Prop where
  workingDirectory : command.workingDirectory = clone
  isAbsolute : command.program.isAbsolute = true
  components : command.program.components = clone.components ++ ["hack", "bootstrap-cluster.sh"]
  /-- The script is the same before and after the change into the directory. -/
  follow : ∀ (disk : Disk) here directory,
    disk.follow here command.workingDirectory = .ok directory →
      disk.follow directory command.program = disk.follow here command.program

/-- An action that removes no directory but the clone, and launches nothing but its script. -/
structure KeepsToClone (clone : Path) (action : Action) : Prop where
  removal : ∀ path, action = .removeDirectory path → path = clone
  launch : ∀ command, action = .launch command → RunsScript clone command

theorem runsScript_scriptCommand (habsolute : clone.isAbsolute = true)
    (environment : TextMap String) :
    RunsScript clone (Install.scriptCommand clone environment) := by
  have hprogram : (clone.join Bootstrap.previewScript).isAbsolute = true := by
    rw [Path.isAbsolute_join, habsolute, Bool.true_or]
  exact ⟨rfl, hprogram, Path.components_join_of_relative rfl,
    fun _ here directory _ => Disk.follow_of_isAbsolute hprogram directory here⟩

/-- What makes a configuration removes nothing and launches nothing. -/
theorem keepsToClone_of_configuring {action : Action} (h : ConfiguringAction action) :
    KeepsToClone clone action := by
  cases h <;> exact ⟨nofun, nofun⟩

theorem keepsToClone_of_installation {checkout : Checkout} {config : Config} {action : Action}
    (habsolute : checkout.directory.isAbsolute = true)
    (h : InstallationAction checkout config action) : KeepsToClone checkout.directory action := by
  cases h with
  | tell event => exact ⟨nofun, nofun⟩
  | checkout h =>
    cases h with
    | remove => exact ⟨fun _ h => (Action.removeDirectory.inj h).symm, nofun⟩
    | _ => exact ⟨nofun, nofun⟩
  | script h =>
    cases h with
    | launch =>
      refine ⟨nofun, fun _ h => ?_⟩
      rw [← Action.launch.inj h]
      exact runsScript_scriptCommand habsolute _
    | tellStart => exact ⟨nofun, nofun⟩
    | tellEnd => exact ⟨nofun, nofun⟩
  | redirect h => cases h <;> exact ⟨nofun, nofun⟩
  | secret h => cases h <;> exact ⟨nofun, nofun⟩

theorem not_findWorkingDirectory {checkout : Checkout} {config : Config} :
    ¬InstallationAction checkout config .findWorkingDirectory := by
  intro h
  cases h with
  | checkout h => cases h
  | script h => cases h
  | redirect h => cases h
  | secret h => cases h

/-- The steps tell the working directory. -/
def Tells (steps : List Step) (workingDirectory : Path) : Prop :=
  ⟨.findWorkingDirectory, Except.ok workingDirectory⟩ ∈ steps

/-- A task behind a configuration keeps to the clone if it is part of an installation. -/
theorem keepsToClone_behind {make : Task Error Config} {next : Config → Task Error Unit}
    {steps : List Step} {outcome : Except Error Unit}
    (habsolute : workingDirectory.isAbsolute = true)
    (h : Yields (make >>= next).run steps outcome) (htells : Tells steps workingDirectory)
    (hmake : Performs ConfiguringAction make.run)
    (hmade : ∀ {before config}, Yields make.run before (.ok config) →
      Tells before workingDirectory →
        ∃ testBranchId, config = .ofOptions options workingDirectory testBranchId)
    (hnext : ∀ config, Performs (InstallationAction (.ofConfig config) config) (next config).run) :
    ∀ step ∈ steps, KeepsToClone ((workingDirectory.join options.tmpDir).join repositoryName)
      step.action := by
  obtain ⟨_, hfailed, -⟩ | ⟨before, config, after, rfl, hbefore, hafter⟩ := Task.yields_bind_iff.1 h
  · exact fun step hstep => keepsToClone_of_configuring (hmake.of_mem_steps hfailed step hstep)
  have hdone := (hnext config).of_mem_steps hafter
  -- nothing asks for the working directory any more when the configuration is made
  have htells : Tells before workingDirectory :=
    (List.mem_append.1 htells).resolve_right fun hmem => not_findWorkingDirectory (hdone _ hmem)
  obtain ⟨testBranchId, rfl⟩ := hmade hbefore htells
  have hclone : (Checkout.ofConfig
      (.ofOptions options workingDirectory testBranchId)).directory.isAbsolute = true :=
    (placesClone_ofOptions options testBranchId habsolute).isAbsolute
  intro step hstep
  rcases List.mem_append.1 hstep with hstep | hstep
  · exact keepsToClone_of_configuring (hmake.of_mem_steps hbefore step hstep)
  · exact keepsToClone_of_installation hclone (hdone step hstep)

/-- Every subcommand keeps to the clone in the working directory that it is told. -/
theorem keepsToClone_of_yields {subcommand : CommandLine.Subcommand} {steps : List Step}
    {outcome : Except Error Unit} (habsolute : workingDirectory.isAbsolute = true)
    (h : Yields (execute subcommand options).run steps outcome)
    (htells : Tells steps workingDirectory) :
    ∀ step ∈ steps, KeepsToClone ((workingDirectory.join options.tmpDir).join repositoryName)
      step.action := by
  have hcluster {before : List Step} {config : Config} :=
    @Program.exists_ofOptions_of_configureWithCluster before options config workingDirectory
  cases subcommand with
  | install =>
    exact keepsToClone_behind habsolute h htells (Program.performs_configureWithCluster _) hcluster
      performs_installation
  | clone =>
    exact keepsToClone_behind habsolute h htells (Program.performs_configure _)
      Program.exists_ofOptions_of_configure fun _ => (performs_sync _).mono fun _ => .checkout
  | quaySecret =>
    refine keepsToClone_behind habsolute h htells (Program.performs_configureWithCluster _) hcluster
      fun _ => Task.performs_bind ((performs_provision _).mono fun _ => .secret) fun _ => ?_
    exact Task.performs_pure _
  | oauthRedirect =>
    exact keepsToClone_behind habsolute h htells (Program.performs_configureWithCluster _) hcluster
      fun _ => Task.performs_lift ((performs_push _).mono fun _ => .redirect)

/-! ## What a removal takes from the disk -/

/-- What is found under the name of the repository is in the directory that the path before the name
leads to. -/
theorem exists_place_of_isDirectory (hne : outer.text ≠ "")
    (h : disk.isDirectory here (outer.join repositoryName) = true) :
    ∃ place entry, disk.follow here outer = .ok place ∧
      disk.stat here (outer.join repositoryName) = .ok (place ++ [repositoryName], entry) := by
  unfold Disk.isDirectory at h
  split at h
  · next location hfollow =>
    have hcomponents := components_join_repositoryName outer
    obtain ⟨-, hnul, hnames, -⟩ := Disk.follow_eq_ok_iff.1 hfollow
    rw [hcomponents] at hnames
    obtain ⟨place, hleads, hdirectory, ⟨hup, -⟩ | ⟨-, entry, hentry, -⟩⟩ :=
      Disk.leadsOn_of_followFrom hnames
    · exact absurd hup (by decide)
    have hlocate := Disk.locate_directory hcomponents hleads hdirectory
    rw [if_neg (by decide)] at hlocate
    have hnames : Disk.namesDirectory (outer.join repositoryName) = false := by
      rw [Disk.namesDirectory, Path.endsInSlash_join (by decide), Path.lastPiece_join (by decide)]
      rfl
    have hrelative : Path.isAbsolute ⟨repositoryName⟩ = false := rfl
    have hstart : startOf here (outer.join repositoryName) = startOf here outer := by
      rw [startOf, startOf, Path.isAbsolute_join, hrelative, Bool.or_false]
    rw [hstart] at hleads
    have hfollow := Disk.follow_directory hne (Path.hasNul_of_join hrelative hnul) hleads hdirectory
    exact ⟨place, entry, hfollow,
      Disk.stat_located (Bool.eq_false_iff.1 hnames) hlocate hentry⟩
  · cases h

/-- Whatever the removal of a stale clone changes lies in the clone, in the directory that the path
before its name leads to. -/
theorem exists_place_of_removeStale {machine : Machine} {location : Location}
    (hne : outer.text ≠ "")
    (h : (machine.run (Checkout.removeStale (outer.join repositoryName)).run).2.disk.entry?
      location ≠ machine.disk.entry? location) :
    ∃ place, machine.disk.follow machine.here outer = .ok place ∧
      place ++ [repositoryName] <+: location := by
  rw [Checkout.run_removeStale] at h
  split at h
  · next hfound =>
    obtain ⟨place, entry, hfollow, hstat⟩ := exists_place_of_isDirectory hne hfound
    refine ⟨place, hfollow, ?_⟩
    by_contra hother
    exact h (Disk.entry?_removeTree hstat hother)
  · exact absurd rfl h

/-! ## The clone directory of a configuration -/

/-- The clone of a configuration lies in its temporary directory, which lies in the working
directory unless it is told by an absolute path. A run removes no other directory, and of the disk
nothing but what is in the place of the clone; it launches nothing but the script, which is the same
file wherever its path is followed from. -/
theorem ofOptions_places_clone (options : Options) (workingDirectory : Path) (testBranchId : String)
    (habsolute : workingDirectory.isAbsolute = true) :
    let config := Config.ofOptions options workingDirectory testBranchId
    PlacesClone workingDirectory options.tmpDir config ∧
      (∀ subcommand steps outcome, Yields (execute subcommand options).run steps outcome →
        Tells steps workingDirectory →
          ∀ step ∈ steps, KeepsToClone config.cloneDirectory step.action) ∧
      RunsScript config.cloneDirectory
        (Install.scriptCommand config.cloneDirectory config.environment) ∧
      ∀ (machine : Machine) location,
        (machine.run (Checkout.removeStale config.cloneDirectory).run).2.disk.entry? location ≠
            machine.disk.entry? location →
          ∃ place, machine.disk.follow machine.here config.tmpDir = .ok place ∧
            place ++ [repositoryName] <+: location := by
  intro config
  have hplaces : PlacesClone workingDirectory options.tmpDir config :=
    placesClone_ofOptions options testBranchId habsolute
  have hne : config.tmpDir.text ≠ "" := by
    intro hempty
    have hstarts := hplaces.isAbsolute_tmpDir
    rw [Path.isAbsolute, hempty] at hstarts
    cases hstarts
  exact ⟨hplaces, fun _ _ _ => keepsToClone_of_yields habsolute,
    runsScript_scriptCommand hplaces.isAbsolute _, fun _ _ => exists_place_of_removeStale hne⟩

/-- Options whose temporary directory is a relative path with steps that name nothing and one that
leads up. -/
def dottedOptions : Options :=
  CommandLine.optionsOf .empty [(.tmpDir, "./scratch//../x/")]

/-- The configuration that they make. -/
def dottedConfig : Config :=
  .ofOptions dottedOptions ⟨"/work/e2e"⟩ "zzzz"

/-- The steps of an installation with it that replaces a clone and in which the script fails. -/
def replacedSteps : List Step :=
  let directory := dottedConfig.cloneDirectory
  let status : ExitStatus := .exited 1
  [⟨.findWorkingDirectory, Except.ok ⟨"/work/e2e"⟩⟩,
   ⟨.drawLetter, Fin.last 25⟩,
   ⟨.drawLetter, Fin.last 25⟩,
   ⟨.drawLetter, Fin.last 25⟩,
   ⟨.drawLetter, Fin.last 25⟩,
   ⟨.connect, Except.ok ()⟩,
   ⟨.report (.usingTemporaryDirectory dottedConfig.tmpDir), ()⟩,
   ⟨.findDirectory directory, true⟩,
   ⟨.report (.removingFolder directory), ()⟩,
   ⟨.removeDirectory directory, Except.ok ()⟩,
   ⟨.report (.cloning dottedConfig.infraDeploymentsUrl dottedConfig.infraDeploymentsReference), ()⟩,
   ⟨.clone dottedConfig.infraDeploymentsUrl dottedConfig.infraDeploymentsBranch directory,
      CloneOutcome.done⟩,
   ⟨.addRemote directory dottedConfig.forkRemote dottedConfig.forkAddress, Except.ok ()⟩,
   ⟨.report (.addedRemote dottedConfig.forkRemote dottedConfig.forkAddress), ()⟩,
   ⟨.report (.installing testBranchIdVariable "zzzz"), ()⟩,
   ⟨.report (.running Bootstrap.previewScript Bootstrap.previewArguments directory), ()⟩,
   ⟨.launch (Install.scriptCommand directory dottedConfig.environment), Except.ok status⟩]

theorem yields_replacedSteps :
    Yields (execute .install dottedOptions).run replacedSteps
      (.error (.bootstrapFailed Bootstrap.previewScript (.exited 1))) :=
  .perform _ <| .perform _ <| .perform _ <| .perform _ <| .perform _ <| .perform _ <|
    .perform _ <| .perform _ <| .perform _ <| .perform _ <| .perform _ <| .perform _ <|
    .perform _ <| .perform _ <| .perform _ <| .perform _ <| .perform _ <| .done _

/-- A file in the old clone. -/
def oldPlace : Location :=
  ["work", "e2e", "x", repositoryName, "old.txt"]

/-- A machine with an old clone in the temporary directory. -/
def clonedMachine : Machine :=
  { Checkout.staleMachine with
    disk := ⟨[(["work"], .directory), (["work", "e2e"], .directory),
      (["work", "e2e", "scratch"], .directory), (["work", "e2e", "x"], .directory),
      (["work", "e2e", "x", repositoryName], .directory),
      (oldPlace, .file Checkout.oldFile)]⟩
    workingDirectory := some ["work", "e2e"] }

/-- The removal and the script of such an installation keep to the clone, and on the machine the
removal keeps to its place. -/
theorem ofOptions_places_clone_dotted :
    let removed := (clonedMachine.run (Checkout.removeStale dottedConfig.cloneDirectory).run).2
    Path.isAbsolute ⟨"/work/e2e"⟩ = true ∧
      dottedConfig.cloneDirectory.components =
        ["work", "e2e", "scratch", "..", "x", "infra-deployments"] ∧
      PlacesClone ⟨"/work/e2e"⟩ "./scratch//../x/" dottedConfig ∧
      Yields (execute .install dottedOptions).run replacedSteps
        (.error (.bootstrapFailed Bootstrap.previewScript (.exited 1))) ∧
      Tells replacedSteps ⟨"/work/e2e"⟩ ∧
      (∀ step ∈ replacedSteps, KeepsToClone dottedConfig.cloneDirectory step.action) ∧
      removed.disk.entry? oldPlace ≠ clonedMachine.disk.entry? oldPlace ∧
      ∃ place, clonedMachine.disk.follow clonedMachine.here dottedConfig.tmpDir = .ok place ∧
        place ++ [repositoryName] <+: oldPlace := by
  intro removed
  have habsolute : Path.isAbsolute ⟨"/work/e2e"⟩ = true := rfl
  have htells : Tells replacedSteps ⟨"/work/e2e"⟩ := List.mem_cons_self
  have hchanged : removed.disk.entry? oldPlace ≠ clonedMachine.disk.entry? oldPlace := by
    decide +kernel
  obtain ⟨hplaces, hkeeps, -, hplace⟩ :=
    ofOptions_places_clone dottedOptions ⟨"/work/e2e"⟩ "zzzz" habsolute
  exact ⟨habsolute, rfl, hplaces, yields_replacedSteps, htells,
    hkeeps _ _ _ yields_replacedSteps htells, hchanged, hplace clonedMachine oldPlace hchanged⟩

end PreviewInstaller.Config

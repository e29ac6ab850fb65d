import PreviewInstaller.Proofs.Checkout.Remaking
import PreviewInstaller.Proofs.Disk.Launch
import PreviewInstaller.Proofs.Installation.Attempt

set_option autoImplicit false

/-! # Recovery

An installation in which nothing of the machine fails succeeds, and ends as if no attempt before it
had ever been made. The directory is made new whatever of it was there, and what the cluster keeps
after it is settled by what was kept before the attempt. -/

namespace PreviewInstaller.Install

open Procedure Cluster OauthRedirect QuaySecret

/-! ## Runs with a script -/

/-- What a bootstrap script does when it is launched: how that ends, what it prints and the disk it
leaves, which is up to the command and the entries of the disk. -/
structure Script where
  launch : Disk → Location → TextMap String → Command →
    Except DiskFault ExitStatus × List Printed × Disk
  launch_congr : ∀ {first second : Disk} (here : Location) (inherited : TextMap String)
    (command : Command), first.entry? = second.entry? →
      (launch first here inherited command).1 = (launch second here inherited command).1 ∧
        Disk.entry? (launch first here inherited command).2.2 =
          Disk.entry? (launch second here inherited command).2.2

/-- The script that is found on the disk. -/
def Script.found : Script where
  launch := Disk.launch
  launch_congr := fun here inherited command h => Disk.launch_congr here inherited command h

namespace Script

variable (script : Script) (server : Server)

/-- The answer to an action where the script decides what a launch does. -/
def answer (world : World) : (action : Action) → action.Answer × World
  | .launch command =>
    let (outcome, printed, disk) := script.launch world.machine.disk world.machine.here
      world.machine.environment command
    (outcome, { world with
      machine := { world.machine with disk }.record (printed.map .printed) })
  | action => world.answer server action

/-- What a world does with procedures that launch a script. -/
def handler : Handler World :=
  ⟨fun action world => script.answer server world action⟩

/-- The value of a procedure that launches a script, and the world after it. -/
def run {α : Type} (procedure : Procedure α) (world : World) : α × World :=
  procedure.run (script.handler server) world

theorem setting_answer (action : Action) (world : World) :
    SameSetting ((script.handler server).answer action world).2 world := by
  cases action with
  | _ => exact ⟨rfl, rfl, rfl⟩

/-- No procedure changes what paths and urls mean. -/
theorem setting_run {α : Type} (procedure : Procedure α) (world : World) :
    SameSetting (script.run server procedure world).2 world := by
  induction procedure generalizing world with
  | done value => exact .refl world
  | perform action resume ih => exact (ih _ _).trans (script.setting_answer server action world)

theorem store_answer {action : Action} (h : IsOffline action) (world : World) :
    ((script.handler server).answer action world).2.store = world.store := by
  cases action with
  | send request => exact absurd rfl (h request)
  | _ => rfl

end Script

/-! ## Installations in which nothing of the machine fails -/

/-- Whether a step is none of the machine that fails: no removal, clone, remote or launch. -/
def succeeds : Step → Bool
  | ⟨.removeDirectory _, outcome⟩ => Except.isOk (show Except DiskFault Unit from outcome)
  | ⟨.clone .., outcome⟩ => (show CloneOutcome from outcome) = .done
  | ⟨.addRemote .., outcome⟩ => Except.isOk (show Except GitFault Unit from outcome)
  | ⟨.launch _, outcome⟩ =>
    (show Except DiskFault ExitStatus from outcome).toOption.any ExitStatus.isSuccess
  | _ => true

/-- The task ends in a value as long as nothing of the machine fails. -/
def Unfailing {ε α : Type} (task : Task ε α) : Prop :=
  ∀ {steps : List Step} {result : Except ε α}, Yields task.run steps result →
    (∀ step ∈ steps, succeeds step = true) → ∃ value, result = .ok value

section Unfailing

variable {ε α β : Type}

theorem unfailing_pure (value : α) : Unfailing (pure value : Task ε α) :=
  fun h _ => ⟨value, (yields_done_iff.1 h).2⟩

theorem unfailing_bind {task : Task ε α} {next : α → Task ε β} (h : Unfailing task)
    (hnext : ∀ value, Unfailing (next value)) : Unfailing (task >>= next) := by
  intro steps result hsteps hsucceed
  rcases Task.yields_bind_iff.1 hsteps with
    ⟨error, hbefore, -⟩ | ⟨before, value, after, rfl, -, hafter⟩
  · obtain ⟨value, hvalue⟩ := h hbefore hsucceed
    cases hvalue
  · exact hnext value hafter fun step hstep => hsucceed step (List.mem_append_right _ hstep)

/-- A task goes on from the answer of an action that succeeds. -/
theorem unfailing_act_bind {action : Action} {next : action.Answer → Task ε α}
    (hnext : ∀ answer, succeeds ⟨action, answer⟩ = true → Unfailing (next answer)) :
    Unfailing (Task.act action >>= next) := by
  intro steps result hsteps hsucceed
  obtain ⟨answer, rest, rfl, hrest⟩ := yields_perform_iff.1 hsteps
  exact hnext answer (hsucceed _ List.mem_cons_self) hrest fun step hstep =>
    hsucceed step (List.mem_cons_of_mem _ hstep)

theorem unfailing_report (event : Event) : Unfailing (Task.report event : Task ε Unit) :=
  fun h _ => ⟨(), (Task.yields_report_iff.1 h).2⟩

end Unfailing

theorem unfailing_removeStale (directory : Path) : Unfailing (Checkout.removeStale directory) := by
  refine unfailing_act_bind fun found _ => ?_
  cases found with
  | false => exact unfailing_pure ()
  | true =>
    refine unfailing_bind (unfailing_report _) fun _ => unfailing_act_bind fun outcome h => ?_
    cases outcome with
    | error fault => cases h
    | ok _ => exact unfailing_pure ()

theorem unfailing_cloneBranch (url branch : String) (directory : Path) :
    Unfailing (Checkout.cloneBranch url branch directory) := by
  refine unfailing_bind (unfailing_report _) fun _ => unfailing_act_bind fun outcome h => ?_
  cases outcome with
  | done => exact unfailing_pure ()
  | failed fault => cases h
  | crashed => cases h

theorem unfailing_addForkRemote (directory : Path) (name url : String) :
    Unfailing (Checkout.addForkRemote directory name url) := by
  refine unfailing_act_bind fun outcome h => ?_
  cases outcome with
  | error fault => cases h
  | ok _ => exact unfailing_bind (unfailing_pure ()) fun _ => unfailing_report _

theorem unfailing_runPreview (directory : Path) (environment : TextMap String) :
    Unfailing (Bootstrap.runPreview directory environment) := by
  refine unfailing_bind (unfailing_report _) fun _ => unfailing_act_bind fun outcome h => ?_
  cases outcome with
  | error fault => cases h
  | ok status =>
    have hsuccess : status.isSuccess = true := h
    show Unfailing (if status.isSuccess then Task.report _ else throw _ : Task Error Unit)
    rw [if_pos hsuccess]
    exact unfailing_report _

theorem unfailing_prepare (checkout : Checkout) (config : Config) :
    Unfailing (prepare checkout config) := by
  refine unfailing_bind ?_ fun _ => unfailing_bind (unfailing_report _) fun _ =>
    unfailing_runPreview _ _
  exact unfailing_bind (unfailing_removeStale _) fun _ =>
    unfailing_bind (unfailing_cloneBranch _ _ _) fun _ => unfailing_addForkRemote _ _ _

/-! ## Checkouts in two worlds -/

/-- Worlds that cannot be told apart once the checkout is there. -/
structure Alike (first second : World) : Prop where
  setting : SameSetting first second
  entries : first.machine.disk.entry? = second.machine.disk.entry?

/-- The actions that come after the checkout, up to the end of the script. -/
inductive FollowsCheckout : Action → Prop where
  | report (event : Event) : FollowsCheckout (.report event)
  | launch (command : Command) : FollowsCheckout (.launch command)

theorem SameSetting.here_eq {first second : World} (h : SameSetting first second) :
    first.machine.here = second.machine.here :=
  congrArg (Option.getD · []) h.workingDirectory

theorem SameSetting.symm {first second : World} (h : SameSetting first second) :
    SameSetting second first :=
  ⟨h.workingDirectory.symm, h.aliases.symm, h.environment.symm⟩

section Checkouts

variable (script : Script) (server : Server) {checkout : Checkout} {config : Config}
  {world first second : World}

theorem alike_answer {action : Action} (haction : FollowsCheckout action)
    (h : Alike first second) :
    ((script.handler server).answer action first).1 =
        ((script.handler server).answer action second).1 ∧
      Alike ((script.handler server).answer action first).2
        ((script.handler server).answer action second).2 := by
  have hsetting := ((script.setting_answer server action first).trans h.setting).trans
    (script.setting_answer server action second).symm
  cases haction with
  | report event => exact ⟨rfl, hsetting, h.entries⟩
  | launch command =>
    obtain ⟨hanswer, hentries⟩ :=
      script.launch_congr first.machine.here first.machine.environment command h.entries
    refine ⟨hanswer.trans ?_, hsetting, hentries.trans ?_⟩
    · rw [h.setting.here_eq, h.setting.environment]
      rfl
    · rw [h.setting.here_eq, h.setting.environment]
      rfl

/-- The machine of a world carries out the checkout. -/
theorem run_checkout {α : Type} {procedure : Procedure α}
    (h : Performs (CheckoutAction checkout) procedure) (world : World) :
    script.run server procedure world =
      ((world.machine.run procedure).1,
        { world with machine := (world.machine.run procedure).2 }) := by
  induction h generalizing world with
  | done value => rfl
  | perform haction _ ih => cases haction <;> exact ih _ _

/-- The part of an installation between the checkout and the end of the script. -/
def finish (checkout : Checkout) (config : Config) : Task Error Unit := do
  Task.report (announcement config)
  Bootstrap.runPreview checkout.directory config.environment

theorem performs_finish (checkout : Checkout) (config : Config) :
    Performs FollowsCheckout (finish checkout config).run := by
  refine Task.performs_bind (Task.performs_report (.report _)) fun _ => ?_
  refine (performs_runPreview _ _).mono fun action h => ?_
  cases h with
  | tellStart => exact .report _
  | launch => exact .launch _
  | tellEnd => exact .report _

variable (config) in
/-- If the checkouts of two worlds end in the same way, so do the scripts. -/
theorem run_prepare_same {ahead ahead' : List Event} (hsetting : SameSetting first second)
    (h : Checkout.EndAlike ahead ahead' first.machine second.machine
      (first.machine.run checkout.sync.run) (second.machine.run checkout.sync.run)) :
    (script.run server (prepare checkout config).run first).1 =
        (script.run server (prepare checkout config).run second).1 ∧
      Alike (script.run server (prepare checkout config).run first).2
        (script.run server (prepare checkout config).run second).2 := by
  have hfirst := run_checkout script server (performs_sync checkout) first
  have hsecond := run_checkout script server (performs_sync checkout) second
  have halike : Alike { first with machine := (first.machine.run checkout.sync.run).2 }
      { second with machine := (second.machine.run checkout.sync.run).2 } := by
    have hkept := script.setting_run server checkout.sync.run first
    have hkept' := script.setting_run server checkout.sync.run second
    rw [hfirst] at hkept
    rw [hsecond] at hkept'
    exact ⟨(hkept.trans hsetting).trans hkept'.symm, h.entries_eq⟩
  rw [← h.result_eq] at hsecond
  rw [show prepare checkout config = checkout.sync >>= fun _ => finish checkout config from rfl]
  cases houtcome : (first.machine.run checkout.sync.run).1 with
  | error error =>
    rw [houtcome] at hfirst hsecond
    rw [show script.run server _ _ = _ from Task.run_bind_error hfirst,
      show script.run server _ _ = _ from Task.run_bind_error hsecond]
    exact ⟨rfl, halike⟩
  | ok _ =>
    rw [houtcome] at hfirst hsecond
    rw [show script.run server _ _ = _ from Task.run_bind_ok hfirst,
      show script.run server _ _ = _ from Task.run_bind_ok hsecond]
    exact (performs_finish checkout config).run_related
      (fun _ _ _ => alike_answer script server) halike

/-- When a script succeeds, so did the checkout. -/
theorem sync_ok_of_prepare (h : (script.run server (prepare checkout config).run world).1 = .ok ()) :
    (world.machine.run checkout.sync.run).1 = .ok () := by
  obtain ⟨⟨⟩, after, hsync, -⟩ := Task.exists_of_run_bind_ok h
  have hmachine := run_checkout script server (performs_sync checkout) world
  exact congrArg Prod.fst (hmachine.symm.trans hsync)

end Checkouts

/-! ## Recovery -/

section Recovery

variable (script : Script) (server : Server) {checkout : Checkout} {config : Config}
  {dockerConfig : List UInt8} {initial stopped world : World}

theorem keepsFiles : KeepsFiles (script.handler server) fun world => world.machine.disk := by
  intro action world h
  cases action with
  | removeDirectory path => cases h
  | clone url branch path => cases h
  | addRemote path name url => cases h
  | launch command => cases h
  | _ => rfl

/-- After the script an installation needs nothing but the cluster. -/
theorem run_runFrom (htoken : decodeToken config.quayToken = .ok dockerConfig)
    (hnamed : KeepsNamed world.store.objects)
    (h : (script.run server (prepare checkout config).run world).1 = .ok ()) :
    ∃ after, script.run server (runFrom checkout config).run world = (.ok (), after) ∧
      after.machine.disk =
        (script.run server (prepare checkout config).run world).2.machine.disk ∧
      essences after.store.objects =
        settled (config.oauthRedirectProxyUrl.getD "") dockerConfig
          (essences world.store.objects) := by
  rcases hprepare : script.run server (prepare checkout config).run world with ⟨outcome, prepared⟩
  obtain rfl : outcome = .ok () := (congrArg Prod.fst hprepare).symm.trans h
  have hstore := (performs_prepare checkout config).run_unchanged (script.handler server)
    (fun action world haction => script.store_answer server haction world) world
  rw [show Procedure.run (script.handler server) _ _ = _ from hprepare] at hstore
  obtain ⟨after, hdeploy, hobjects⟩ := run_deploy server htoken prepared (hstore ▸ hnamed)
  have hscript : script.run server (deploy config).run prepared =
      World.run server (deploy config).run prepared := by
    refine (performs_deploy config).run_congr (fun action world haction => ?_) prepared
    cases action with
    | launch command => cases haction
    | _ => rfl
  have hrun : script.run server (runFrom checkout config).run world = (.ok (), after) := by
    rw [runFrom_eq, show script.run server _ _ = _ from Task.run_bind_ok hprepare]
    exact hscript.trans hdeploy
  have hfiles : (script.run server (runFrom checkout config).run world).2.machine.disk =
      (script.run server (prepare checkout config).run world).2.machine.disk :=
    files_runFrom (keepsFiles script server) world
  rw [hrun, hprepare] at hfiles
  exact ⟨after, hrun, hfiles, hstore ▸ hobjects⟩

end Recovery

/-! ## A recovery -/

/-- A repository with a script that leaves a file. -/
def sourceRepository : Git.Repository where
  head := "main"
  branches := [("main", [(["hack", "bootstrap-cluster.sh"],
    .file ⟨.script [.printArguments, .touch "started"], File.plainMode true⟩)])]
  fetched := []
  tags := []
  remotes := []
  trackings := []

/-- A checkout of a repository on the disk. -/
def localCheckout : Checkout where
  url := "file:///src"
  branch := "main"
  directory := ⟨"/clone"⟩
  forkRemote := "preview"
  forkUrl := "https://github.com/me/infra-deployments.git"

/-- A disk with the repository and an old checkout. -/
def localDisk : Disk :=
  ⟨[(["src"], .repository sourceRepository), (["clone"], .directory),
    (["clone", "old.txt"], .file Checkout.oldFile)]⟩

/-- The world before the first installation. -/
def localWorld : World := ⟨{ bareMachine with disk := localDisk }, .empty⟩

/-- The world after a clone that failed and was not cleaned up. -/
def staleWorld : World :=
  ⟨{ bareMachine with
      disk := (localCheckout.clearedDisk localWorld.machine).insert ["clone"] .directory }, .empty⟩

theorem canRemake_localWorld : localCheckout.CanRemake ["clone"] localWorld.machine where
  place := by
    have hbreak : Disk.BreaksOff (localCheckout.clearedDisk localWorld.machine)
        (Disk.startOf localWorld.machine.here localCheckout.directory)
        localCheckout.directory.components [] [] "clone" [] :=
      ⟨by decide, by decide, rfl, rfl, by decide +kernel⟩
    exact .missing hbreak
  missing := by decide +kernel

theorem workedOn_staleWorld :
    Checkout.WorkedOn ["clone"] (localCheckout.clearedDisk localWorld.machine)
      staleWorld.machine.disk where
  isTree := Disk.isTree_of_entries (by decide +kernel)
  outside place hplace := by
    refine .inl (Disk.entry?_insert_of_ne ?_)
    rintro rfl
    exact hplace (List.prefix_refl _)
  isDirectory := by decide +kernel

theorem reaches_staleWorld (server : Server) :
    Reaches (Attempted (localCheckout.MayLeave localWorld.machine) server)
      (runFrom localCheckout plainConfig).run localWorld staleWorld := by
  have hoffline : ∀ action, IsOffline action → ∀ (answer : action.Answer) (world : World),
      Attempted (localCheckout.MayLeave localWorld.machine) server action answer world world :=
    fun action haction answer world => ⟨.refl world, .inl rfl, .offline haction answer _⟩
  refine .perform (show Bool from true) (hoffline _ (by rintro _ ⟨⟩) _ _) ?_
  refine .perform () (hoffline _ (by rintro _ ⟨⟩) _ _) ?_
  refine .perform (show Except DiskFault Unit from .ok ()) (hoffline _ (by rintro _ ⟨⟩) _ _) ?_
  refine .perform () (hoffline _ (by rintro _ ⟨⟩) _ _) ?_
  refine .perform (CloneOutcome.failed .unsupportedProtocol) ?_ (.stop _ _)
  have hleaves : localCheckout.MayLeave localWorld.machine staleWorld.machine.disk :=
    ⟨fun _ => by decide +kernel, .inr ⟨_, canRemake_localWorld, workedOn_staleWorld⟩⟩
  exact ⟨⟨rfl, rfl, rfl⟩, .inr ⟨rfl, hleaves⟩, .offline (by rintro _ ⟨⟩) _ _⟩

/-- Nothing of the machine fails after the script. -/
theorem succeeds_runFrom (script : Script) (server : Server) {checkout : Checkout} {config : Config}
    {world : World}
    (h : ∀ step ∈ trace (script.handler server) (prepare checkout config).run world,
      succeeds step = true) :
    ∀ step ∈ trace (script.handler server) (runFrom checkout config).run world,
      succeeds step = true := by
  intro step hstep
  rw [runFrom_eq, Task.run_bind, trace_bind] at hstep
  rcases List.mem_append.1 hstep with hstep | hstep
  · exact h step hstep
  generalize Procedure.run (script.handler server) (prepare checkout config).run world = prepared
    at hstep
  obtain ⟨outcome, world⟩ := prepared
  cases outcome with
  | error error => cases hstep
  | ok _ =>
    have hfiles := (performs_deploy config).of_mem_steps
      (yields_trace (script.handler server) (deploy config).run world) step hstep
    obtain ⟨action, answer⟩ := step
    cases action with
    | removeDirectory path => cases hfiles
    | clone url branch path => cases hfiles
    | addRemote path name url => cases hfiles
    | launch command => cases hfiles
    | _ => rfl

end PreviewInstaller.Install

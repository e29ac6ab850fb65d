import PreviewInstaller.Machine
import PreviewInstaller.Proofs.Installation.Actions

set_option autoImplicit false

/-! # The order of an installation

An installation goes through stages: the stale directory is removed, the repository is cloned, the
remote of the fork is added, the script runs, the redirect is pushed and the secret is provided. A
stage is only entered when the ones before it allow it, and the first part that fails, the redirect
aside, is the result. `Course` lists the courses an installation can take, `yields_iff_course` says
that these are all of them, and the order of the stages follows from the stages of each part. -/

namespace PreviewInstaller.Install

open Procedure Cluster

/-! ## Stages -/

/-- What an installation does to the world. -/
inductive Stage where
  | removal
  | cloning
  | remote
  | script
  /-- Requests for the configuration and the deployment of the OAuth service. -/
  | redirect
  /-- Requests for the namespace and the secret with the docker configuration. -/
  | secret
deriving DecidableEq, Repr

namespace Stage

/-- The place of a stage in the order. -/
def place : Stage → Nat
  | removal => 0
  | cloning => 1
  | remote => 2
  | script => 3
  | redirect => 4
  | secret => 5

/-- Whether a stage can consist of several actions. -/
def isRepeatable : Stage → Bool
  | redirect | secret => true
  | _ => false

/-- Whether the action of one stage may come before that of another. -/
def Precedes (first second : Stage) : Prop :=
  first.place < second.place ∨ first = second ∧ first.isRepeatable = true

instance (first second : Stage) : Decidable (first.Precedes second) :=
  inferInstanceAs (Decidable (_ ∨ _))

/-- The stage of the requests for a collection. -/
def ofCollection : Collection → Stage
  | .configMaps _ | .deployments _ => redirect
  | .namespaces | .secrets _ => secret

/-- The stage of an action; `none` if it does nothing to the world but tell or ask. -/
def ofAction? : Action → Option Stage
  | .removeDirectory _ => some removal
  | .clone .. => some cloning
  | .addRemote .. => some remote
  | .launch _ => some script
  | .send request => some (ofCollection request.collection)
  | _ => none

end Stage

/-- The stages of steps, in order. -/
def stages (steps : List Step) : List Stage :=
  steps.filterMap fun step => Stage.ofAction? step.action

theorem stages_append (before after : List Step) :
    stages (before ++ after) = stages before ++ stages after :=
  List.filterMap_append

/-- Whether an action can change files. -/
def changesFiles (action : Action) : Bool :=
  (Stage.ofAction? action).any fun stage => stage.place < Stage.redirect.place

/-! ## Courses -/

/-- The event that tells the identifier of the run before its script starts. -/
def announcement (config : Config) : Event :=
  .installing Config.testBranchIdVariable
    ((config.environment.get? Config.testBranchIdVariable).getD "")

/-- The course of an installation: the steps it takes and its result. -/
inductive Course (checkout : Checkout) (config : Config) :
    List Step → Except Error Unit → Prop where
  | syncFailed {synced : List Step} {error : Error}
      (hsync : Yields checkout.sync.run synced (.error error)) :
      Course checkout config synced (.error error)
  | scriptFailed {synced ran : List Step} {error : Error}
      (hsync : Yields checkout.sync.run synced (.ok ()))
      (hscript : Yields (Bootstrap.runPreview checkout.directory config.environment).run ran
        (.error error)) :
      Course checkout config (synced ++ ⟨.report (announcement config), ()⟩ :: ran) (.error error)
  | secretFailed {synced ran pushed provided : List Step} {error : Error}
      (hsync : Yields checkout.sync.run synced (.ok ()))
      (hscript : Yields (Bootstrap.runPreview checkout.directory config.environment).run ran
        (.ok ()))
      (hpush : Yields (OauthRedirect.push config.oauthRedirectProxyUrl) pushed ())
      (hsecret : Yields (QuaySecret.provision config.quayToken).run provided (.error error)) :
      Course checkout config
        (synced ++ ⟨.report (announcement config), ()⟩ :: ran ++ (pushed ++ provided))
        (.error error)
  | installed {synced ran pushed provided : List Step} {secret : Secret}
      (hsync : Yields checkout.sync.run synced (.ok ()))
      (hscript : Yields (Bootstrap.runPreview checkout.directory config.environment).run ran
        (.ok ()))
      (hpush : Yields (OauthRedirect.push config.oauthRedirectProxyUrl) pushed ())
      (hsecret : Yields (QuaySecret.provision config.quayToken).run provided (.ok secret)) :
      Course checkout config
        (synced ++ ⟨.report (announcement config), ()⟩ :: ran ++
          (pushed ++ provided ++ [⟨.report .installed, ()⟩]))
        (.ok ())

variable {checkout : Checkout} {config : Config} {steps : List Step} {result : Except Error Unit}

/-- The steps of an installation are those of its courses. -/
theorem yields_iff_course :
    Yields (runFrom checkout config).run steps result ↔ Course checkout config steps result := by
  constructor
  · intro h
    rcases Task.yields_bind_iff.1 h with ⟨error, hsync, rfl⟩ | ⟨synced, ⟨⟩, _, rfl, hsync, htold⟩
    · exact .syncFailed hsync
    obtain ⟨_, rfl, hran⟩ := Task.yields_report_bind_iff.1 htold
    rcases Task.yields_bind_iff.1 hran with
      ⟨error, hscript, rfl⟩ | ⟨ran, ⟨⟩, _, rfl, hscript, hpushed⟩
    · exact .scriptFailed hsync hscript
    obtain ⟨pushed, ⟨⟩, _, rfl, hpush, hprovided⟩ := Task.yields_lift_bind_iff.1 hpushed
    rcases Task.yields_bind_iff.1 hprovided with
      ⟨error, hsecret, rfl⟩ | ⟨provided, secret, _, rfl, hsecret, hend⟩
    · simpa [announcement] using Course.secretFailed hsync hscript hpush hsecret
    obtain ⟨rfl, rfl⟩ := Task.yields_report_iff.1 hend
    simpa [announcement] using Course.installed hsync hscript hpush hsecret
  · intro h
    cases h with
    | syncFailed hsync => exact Task.yields_bind_iff.2 (.inl ⟨_, hsync, rfl⟩)
    | scriptFailed hsync hscript =>
      refine Task.yields_bind_iff.2 (.inr ⟨_, (), _, rfl, hsync, ?_⟩)
      refine Task.yields_report_bind_iff.2 ⟨_, rfl, ?_⟩
      exact Task.yields_bind_iff.2 (.inl ⟨_, hscript, rfl⟩)
    | secretFailed hsync hscript hpush hsecret =>
      rw [List.append_assoc]
      refine Task.yields_bind_iff.2 (.inr ⟨_, (), _, rfl, hsync, ?_⟩)
      refine Task.yields_report_bind_iff.2 ⟨_, rfl, ?_⟩
      refine Task.yields_bind_iff.2 (.inr ⟨_, (), _, rfl, hscript, ?_⟩)
      refine Task.yields_lift_bind_iff.2 ⟨_, (), _, rfl, hpush, ?_⟩
      exact Task.yields_bind_iff.2 (.inl ⟨_, hsecret, rfl⟩)
    | installed hsync hscript hpush hsecret =>
      rw [List.append_assoc]
      refine Task.yields_bind_iff.2 (.inr ⟨_, (), _, rfl, hsync, ?_⟩)
      refine Task.yields_report_bind_iff.2 ⟨_, rfl, ?_⟩
      refine Task.yields_bind_iff.2 (.inr ⟨_, (), _, rfl, hscript, ?_⟩)
      refine Task.yields_lift_bind_iff.2 ⟨_, (), _, List.append_assoc .., hpush, ?_⟩
      refine Task.yields_bind_iff.2 (.inr ⟨_, _, _, rfl, hsecret, ?_⟩)
      exact Task.yields_report_iff.2 ⟨rfl, rfl⟩

/-! ## Stages of the parts -/

/-- Whatever the answers are, the procedure goes through some of these stages, in this order and
each at most once. -/
def GoesThrough {α : Type} (procedure : Procedure α) (allowed : List Stage) : Prop :=
  ∀ {steps : List Step} {value : α}, Yields procedure steps value →
    (stages steps).Sublist allowed

theorem goesThrough_bind {ε α β : Type} {task : Task ε α} {next : α → Task ε β}
    {first second : List Stage} (h : GoesThrough task.run first)
    (hnext : ∀ value, GoesThrough (next value).run second) :
    GoesThrough (task >>= next).run (first ++ second) := by
  intro steps result hsteps
  rcases Task.yields_bind_iff.1 hsteps with
    ⟨error, hbefore, -⟩ | ⟨before, value, after, rfl, hbefore, hafter⟩
  · exact (h hbefore).trans (List.sublist_append_left _ _)
  · rw [stages_append]
    exact (h hbefore).append (hnext value hafter)

theorem goesThrough_act {ε : Type} (action : Action) :
    GoesThrough (Task.act action : Task ε action.Answer).run (Stage.ofAction? action).toList := by
  intro steps result hsteps
  obtain ⟨answer, rfl, -⟩ := Task.yields_act_iff.1 hsteps
  cases h : Stage.ofAction? action <;> simp [stages, h]

theorem goesThrough_done {α : Type} (value : α) : GoesThrough (.done value) [] := by
  intro steps result hsteps
  obtain ⟨rfl, -⟩ := yields_done_iff.1 hsteps
  exact List.Sublist.refl _

theorem goesThrough_orThrow {ε φ α : Type} (toError : φ → ε) (outcome : Except φ α) :
    GoesThrough (Task.orThrow toError outcome).run [] := by
  rw [Task.run_orThrow]
  exact goesThrough_done _

theorem goesThrough_removeStale (directory : Path) :
    GoesThrough (Checkout.removeStale directory).run [.removal] := by
  refine goesThrough_bind (goesThrough_act (.findDirectory directory)) fun found => ?_
  cases found with
  | true =>
    refine goesThrough_bind (goesThrough_act (.report _)) fun _ => ?_
    refine goesThrough_bind (goesThrough_act (.removeDirectory directory)) fun _ => ?_
    exact goesThrough_orThrow _ _
  | false =>
    intro steps result hsteps
    exact ((goesThrough_done _) hsteps).trans (List.nil_sublist _)

theorem goesThrough_cloneBranch (url branch : String) (directory : Path) :
    GoesThrough (Checkout.cloneBranch url branch directory).run [.cloning] := by
  refine goesThrough_bind (goesThrough_act (.report _)) fun _ => ?_
  refine goesThrough_bind (goesThrough_act (.clone url branch directory)) fun outcome => ?_
  cases outcome with
  | done => exact goesThrough_done _
  | failed fault => exact goesThrough_done _
  | crashed => exact goesThrough_done _

theorem goesThrough_addForkRemote (directory : Path) (name url : String) :
    GoesThrough (Checkout.addForkRemote directory name url).run [.remote] := by
  refine goesThrough_bind (goesThrough_act (.addRemote directory name url)) fun _ => ?_
  exact goesThrough_bind (goesThrough_orThrow _ _) fun _ => goesThrough_act (.report _)

theorem goesThrough_sync (checkout : Checkout) :
    GoesThrough checkout.sync.run [.removal, .cloning, .remote] := by
  refine goesThrough_bind (goesThrough_removeStale _) fun _ => ?_
  exact goesThrough_bind (goesThrough_cloneBranch _ _ _) fun _ => goesThrough_addForkRemote _ _ _

theorem goesThrough_runPreview (directory : Path) (environment : TextMap String) :
    GoesThrough (Bootstrap.runPreview directory environment).run [.script] := by
  refine goesThrough_bind (goesThrough_act (.report _)) fun _ => ?_
  refine goesThrough_bind (goesThrough_act (.launch _)) fun outcome => ?_
  refine goesThrough_bind (goesThrough_orThrow _ _) fun status => ?_
  cases h : status.isSuccess with
  | true => exact goesThrough_act (.report _)
  | false => exact goesThrough_done _

/-- The action belongs to this stage or to none. -/
def Within (stage : Stage) (action : Action) : Prop :=
  Stage.ofAction? action = none ∨ Stage.ofAction? action = some stage

theorem within_report (stage : Stage) (event : Event) : Within stage (.report event) :=
  .inl rfl

theorem within_redirect (action : Action) (h : RedirectAction action) :
    Within .redirect action := by
  cases h with
  | tell h => exact within_report _ _
  | readClock => exact .inl rfl
  | patch url => exact .inr rfl
  | find => exact .inr rfl
  | scale namespaceName name scaled => exact .inr rfl

theorem within_secret (action : Action) (h : SecretAction action) : Within .secret action := by
  cases h with
  | tellNamespace => exact within_report _ _
  | tellCreated => exact within_report _ _
  | tellUpdated => exact within_report _ _
  | findNamespace => exact .inr rfl
  | createNamespace body => exact .inr rfl
  | findSecret => exact .inr rfl
  | createSecret body => exact .inr rfl
  | updateSecret body => exact .inr rfl

/-- The script succeeds only if it was started and exited with status 0. -/
theorem launched_of_yields_runPreview {directory : Path} {environment : TextMap String}
    {ran : List Step} (h : Yields (Bootstrap.runPreview directory environment).run ran (.ok ())) :
    ∃ command : Command, command.program = directory.join Bootstrap.previewScript ∧
      ⟨.launch command, .ok (.exited 0)⟩ ∈ ran := by
  unfold Bootstrap.runPreview Bootstrap.runScript at h
  obtain ⟨_, rfl, hlaunch⟩ := Task.yields_report_bind_iff.1 h
  obtain ⟨outcome, rest, rfl, hstatus⟩ := Task.yields_act_bind_iff.1 hlaunch
  obtain ⟨status, rfl, hend⟩ := Task.yields_orThrow_bind_ok_iff.1 hstatus
  cases hsuccess : status.isSuccess with
  | false =>
    simp only [hsuccess] at hend
    exact absurd (yields_done_iff.1 hend).2 (by simp)
  | true =>
    obtain rfl : status = .exited 0 := by simpa [ExitStatus.isSuccess] using hsuccess
    refine ⟨_, ?_, .tail _ (.head _)⟩
    rfl

/-! ## The order of the stages -/

/-- The part of an installation up to the end of the script. -/
def prepare (checkout : Checkout) (config : Config) : Task Error Unit := do
  checkout.sync
  Task.report (announcement config)
  Bootstrap.runPreview checkout.directory config.environment

/-- The part of an installation after the script, which only talks to the cluster. -/
def deploy (config : Config) : Task Error Unit := do
  ExceptT.lift (OauthRedirect.push config.oauthRedirectProxyUrl)
  let _ ← QuaySecret.provision config.quayToken
  Task.report .installed

theorem runFrom_eq (checkout : Checkout) (config : Config) :
    runFrom checkout config = (do prepare checkout config; deploy config) := by
  simp only [runFrom, prepare, deploy, announcement, bind_assoc]

theorem mem_stages {steps : List Step} {step : Step} {stage : Stage} (h : step ∈ steps)
    (hstage : Stage.ofAction? step.action = some stage) : stage ∈ stages steps :=
  List.mem_filterMap.2 ⟨step, h, hstage⟩

theorem goesThrough_prepare (checkout : Checkout) (config : Config) :
    GoesThrough (prepare checkout config).run [.removal, .cloning, .remote, .script] := by
  refine goesThrough_bind (goesThrough_sync _) fun _ => ?_
  exact goesThrough_bind (goesThrough_act (.report _)) fun _ => goesThrough_runPreview _ _

/-- The steps of a procedure that keeps within a stage are all of that stage. -/
theorem stages_eq_replicate {α : Type} {procedure : Procedure α} {stage : Stage} {value : α}
    (h : Performs (Within stage) procedure) (hsteps : Yields procedure steps value) :
    stages steps = List.replicate (stages steps).length stage := by
  refine List.eq_replicate_iff.2 ⟨rfl, fun found hfound => ?_⟩
  obtain ⟨step, hstep, hfound⟩ := List.mem_filterMap.1 hfound
  rcases h.of_mem_steps hsteps step hstep with hnone | hsome
  · rw [hnone] at hfound
    cases hfound
  · rw [hsome] at hfound
    exact (Option.some.inj hfound).symm

theorem yields_deploy {result : Except Error Unit} (h : Yields (deploy config).run steps result) :
    ∃ redirects secrets, stages steps =
      List.replicate redirects .redirect ++ List.replicate secrets .secret := by
  obtain ⟨pushed, ⟨⟩, rest, rfl, hpush, hrest⟩ := Task.yields_lift_bind_iff.1 h
  have hpushed := stages_eq_replicate ((performs_push _).mono within_redirect) hpush
  have hprovided : stages rest = List.replicate (stages rest).length .secret := by
    refine stages_eq_replicate ?_ hrest
    exact Task.performs_bind ((performs_provision _).mono within_secret) fun _ =>
      Task.performs_report (within_report _ _)
  exact ⟨_, _, by rw [stages_append, hpushed, hprovided]⟩

/-- An installation is either its preparation, which failed, or goes on from a preparation that
succeeded. -/
theorem yields_iff_prepared :
    Yields (runFrom checkout config).run steps result ↔
      (∃ error, Yields (prepare checkout config).run steps (.error error) ∧
          result = .error error) ∨
        ∃ prepared deployed, steps = prepared ++ deployed ∧
          Yields (prepare checkout config).run prepared (.ok ()) ∧
          Yields (deploy config).run deployed result := by
  rw [runFrom_eq, Task.yields_bind_iff]
  exact or_congr_right ⟨fun ⟨prepared, _, deployed, h⟩ => ⟨prepared, deployed, h⟩,
    fun ⟨prepared, deployed, h⟩ => ⟨prepared, (), deployed, h⟩⟩

theorem pairwise_precedes (redirects secrets : Nat) :
    ([Stage.removal, .cloning, .remote, .script] ++
      (List.replicate redirects Stage.redirect ++ List.replicate secrets Stage.secret)).Pairwise
        Stage.Precedes := by
  have hrepeat : ∀ stage : Stage, stage.isRepeatable = true → ∀ count : Nat,
      (List.replicate count stage).Pairwise Stage.Precedes := by
    intro stage hstage count
    exact List.pairwise_replicate.2 (.inr (.inr ⟨rfl, hstage⟩))
  refine List.pairwise_append.2 ⟨by decide, List.pairwise_append.2
    ⟨hrepeat _ rfl _, hrepeat _ rfl _, ?_⟩, ?_⟩
  · intro first hfirst second hsecond
    rw [List.eq_of_mem_replicate hfirst, List.eq_of_mem_replicate hsecond]
    decide
  · intro first hfirst second hsecond
    have hplace : first.place ≤ 3 := by
      revert hfirst
      revert first
      decide
    have hsecond : second = .redirect ∨ second = .secret := by
      rcases List.mem_append.1 hsecond with h | h
      · exact .inl (List.eq_of_mem_replicate h)
      · exact .inr (List.eq_of_mem_replicate h)
    left
    rcases hsecond with rfl | rfl
    · exact Nat.lt_of_le_of_lt hplace (by decide)
    · exact Nat.lt_of_le_of_lt hplace (by decide)

/-- The stages of an installation come in their order. -/
theorem stages_pairwise (h : Yields (runFrom checkout config).run steps result) :
    (stages steps).Pairwise Stage.Precedes := by
  rcases yields_iff_prepared.1 h with
    ⟨error, h, -⟩ | ⟨prepared, deployed, rfl, hprepared, hdeployed⟩
  · exact (pairwise_precedes 0 0).sublist (by simpa using goesThrough_prepare _ _ h)
  · obtain ⟨redirects, secrets, hstages⟩ := yields_deploy hdeployed
    rw [stages_append, hstages]
    exact (pairwise_precedes redirects secrets).sublist
      ((goesThrough_prepare _ _ hprepared).append (List.Sublist.refl _))

/-- What comes after the first part of a sequence that lacks a step, up to that step. -/
theorem eq_append_of_notMem {first second before after : List Step} {step : Step}
    (h : first ++ second = before ++ step :: after) (hnot : step ∉ first) :
    ∃ between, before = first ++ between ∧ second = between ++ step :: after := by
  rcases List.append_eq_append_iff.1 h with ⟨between, hbefore, hsecond⟩ | ⟨rest, hfirst, hrest⟩
  · exact ⟨between, hbefore, hsecond⟩
  · cases rest with
    | nil => exact ⟨[], by simpa using hfirst.symm, by simpa using hrest.symm⟩
    | cons found rest =>
      obtain ⟨rfl, -⟩ := List.cons.inj hrest
      exact absurd (hfirst ▸ by simp) hnot

/-- The stages after a step of a stage are those that it precedes. -/
theorem precedes_of_append {before after : List Step} {step later : Step} {stage next : Stage}
    (h : Yields (runFrom checkout config).run (before ++ step :: after) result)
    (hstage : Stage.ofAction? step.action = some stage) (hlater : later ∈ after)
    (hnext : Stage.ofAction? later.action = some next) : stage.Precedes next := by
  have hpairwise := stages_pairwise h
  have hcons : stages (step :: after) = stage :: stages after := List.filterMap_cons_some hstage
  rw [stages_append, hcons] at hpairwise
  obtain ⟨-, hafter, -⟩ := List.pairwise_append.1 hpairwise
  exact (List.pairwise_cons.1 hafter).1 next (mem_stages hlater hnext)

theorem notMem_of_goesThrough {α : Type} {procedure : Procedure α} {allowed : List Stage}
    {steps : List Step} {value : α} {step : Step} {stage : Stage}
    (h : GoesThrough procedure allowed) (hsteps : Yields procedure steps value)
    (hstage : Stage.ofAction? step.action = some stage) (hnot : stage ∉ allowed) :
    step ∉ steps :=
  fun hmem => hnot ((h hsteps).subset (mem_stages hmem hstage))

/-- The script comes after a checkout that succeeded. -/
theorem synced_of_launch {before after : List Step} {command : Command}
    {answer : (Action.launch command).Answer}
    (h : Yields (runFrom checkout config).run (before ++ ⟨.launch command, answer⟩ :: after)
      result) :
    ∃ synced between, before = synced ++ between ∧ Yields checkout.sync.run synced (.ok ()) := by
  have hnot : ∀ {synced : List Step} {outcome : Except Error Unit},
      Yields checkout.sync.run synced outcome → ⟨.launch command, answer⟩ ∉ synced :=
    fun hsync => notMem_of_goesThrough (goesThrough_sync checkout) hsync rfl (by decide)
  rcases Task.yields_bind_iff.1 h with
    ⟨error, hsync, -⟩ | ⟨synced, ⟨⟩, rest, happend, hsync, -⟩
  · exact absurd (by simp) (hnot hsync)
  · obtain ⟨between, hbefore, -⟩ := eq_append_of_notMem happend.symm (hnot hsync)
    exact ⟨synced, between, hbefore, hsync⟩

/-- A request comes after a script that exited with status 0. -/
theorem launched_of_send {before after : List Step} {request : Request}
    {answer : (Action.send request).Answer}
    (h : Yields (runFrom checkout config).run (before ++ ⟨.send request, answer⟩ :: after)
      result) :
    ∃ command : Command, command.program = checkout.directory.join Bootstrap.previewScript ∧
      ⟨.launch command, .ok (.exited 0)⟩ ∈ before := by
  have hnot : ∀ {prepared : List Step} {outcome : Except Error Unit},
      Yields (prepare checkout config).run prepared outcome →
        ⟨.send request, answer⟩ ∉ prepared := by
    intro prepared outcome hprepared
    refine notMem_of_goesThrough (goesThrough_prepare checkout config) hprepared rfl ?_
    cases request.collection <;> simp [Stage.ofCollection]
  rcases yields_iff_prepared.1 h with
    ⟨error, hprepared, -⟩ | ⟨prepared, deployed, happend, hprepared, -⟩
  · exact absurd (by simp) (hnot hprepared)
  obtain ⟨between, rfl, -⟩ := eq_append_of_notMem happend.symm (hnot hprepared)
  rcases Task.yields_bind_iff.1 hprepared with ⟨_, -, ⟨⟩⟩ | ⟨synced, ⟨⟩, _, rfl, -, htold⟩
  obtain ⟨ran, rfl, hran⟩ := Task.yields_report_bind_iff.1 htold
  obtain ⟨command, hprogram, hmem⟩ := launched_of_yields_runPreview hran
  exact ⟨command, hprogram, by simp [hmem]⟩

/-! ## Files -/

/-- Only the actions that can change files do. -/
def KeepsFiles {World Files : Type} (handler : Handler World) (files : World → Files) : Prop :=
  ∀ (action : Action) (world : World), changesFiles action = false →
    files (handler.answer action world).2 = files world

/-- The files of a machine are on its disk. -/
theorem machine_keepsFiles : KeepsFiles Machine.handler Machine.disk := by
  intro action machine h
  cases action with
  | removeDirectory path => cases h
  | clone url branch path => cases h
  | addRemote path name url => cases h
  | launch command => cases h
  | send request =>
    show (machine.send request).2.disk = machine.disk
    unfold Machine.send
    split <;> rfl
  | _ => rfl

theorem performs_deploy (config : Config) :
    Performs (fun action => changesFiles action = false) (deploy config).run := by
  have hwithin : ∀ stage action, Within stage action → stage = .redirect ∨ stage = .secret →
      changesFiles action = false := by
    rintro stage action (hnone | hsome) hstage
    · simp [changesFiles, hnone]
    · rcases hstage with rfl | rfl <;> simp [changesFiles, hsome, Stage.place]
  refine Task.performs_bind (Task.performs_lift ?_) fun _ => ?_
  · exact (performs_push _).mono fun action h => hwithin _ action (within_redirect _ h) (.inl rfl)
  refine Task.performs_bind ?_ fun _ => Task.performs_report rfl
  exact (performs_provision _).mono fun action h => hwithin _ action (within_secret _ h) (.inr rfl)

/-- What follows the script leaves the files as they are. -/
theorem files_runFrom {World Files : Type} {handler : Handler World} {files : World → Files}
    (h : KeepsFiles handler files) (world : World) :
    files (Procedure.run handler (runFrom checkout config).run world).2 =
      files (Procedure.run handler (prepare checkout config).run world).2 := by
  rw [runFrom_eq, Task.run_bind, Procedure.run_bind]
  cases (Procedure.run handler (prepare checkout config).run world).1 with
  | ok _ => exact (performs_deploy config).run_unchanged handler h _
  | error _ => rfl

/-! ## The order of an installation -/

/-- An installation does everything in its order and ends with the first failure. -/
structure Orderly (checkout : Checkout) (config : Config) (steps : List Step)
    (result : Except Error Unit) : Prop where
  /-- Removal, clone, remote, script, redirect and secret come in this order. -/
  ordered : (stages steps).Pairwise Stage.Precedes
  /-- The script is only started after a checkout that succeeded. -/
  synced : ∀ before command answer after, steps = before ++ ⟨.launch command, answer⟩ :: after →
    ∃ synced between, before = synced ++ between ∧ Yields checkout.sync.run synced (.ok ())
  /-- Requests are only sent after the script exited with status 0. -/
  launched : ∀ before request answer after, steps = before ++ ⟨.send request, answer⟩ :: after →
    ∃ command : Command, command.program = checkout.directory.join Bootstrap.previewScript ∧
      ⟨.launch command, .ok (.exited 0)⟩ ∈ before
  /-- After a request of the secret's stage there is none of the redirect's. -/
  redirected : ∀ before request answer after,
    steps = before ++ ⟨.send request, answer⟩ :: after →
      Stage.ofCollection request.collection = .secret →
        ∀ step ∈ after, Stage.ofAction? step.action ≠ some .redirect
  /-- After the start of the script no action changes files. -/
  untouched : ∀ before command answer after,
    steps = before ++ ⟨.launch command, answer⟩ :: after →
      ∀ step ∈ after, changesFiles step.action = false
  /-- The parts succeed up to the one whose error is the result, or all of them do. -/
  course : Course checkout config steps result

/-- Whatever its answers are, an installation does everything in its order, and wherever it ends,
the files are those that the checkout and the script left. -/
theorem runFrom_orderly (checkout : Checkout) (config : Config) :
    (∀ steps result, Yields (runFrom checkout config).run steps result →
      Orderly checkout config steps result) ∧
    ∀ {World Files : Type} (handler : Handler World) (files : World → Files),
      KeepsFiles handler files → ∀ world,
        files (Procedure.run handler (runFrom checkout config).run world).2 =
          files (Procedure.run handler (prepare checkout config).run world).2 := by
  refine ⟨fun steps result h => ?_, fun handler files h world => files_runFrom h world⟩
  refine ⟨stages_pairwise h, ?_, ?_, ?_, ?_, yields_iff_course.1 h⟩
  · rintro before command answer after rfl
    exact synced_of_launch h
  · rintro before request answer after rfl
    exact launched_of_send h
  · rintro before request answer after rfl hsecret step hstep hredirect
    have hprecedes := precedes_of_append h (congrArg some hsecret) hstep hredirect
    exact absurd hprecedes (by decide)
  · rintro before command answer after rfl step hstep
    cases hstage : Stage.ofAction? step.action with
    | none => simp [changesFiles, hstage]
    | some stage =>
      have hprecedes : Stage.script.Precedes stage := precedes_of_append h rfl hstep hstage
      revert hprecedes
      cases stage <;> simp [changesFiles, hstage, Stage.Precedes, Stage.place, Stage.isRepeatable]

/-- The configuration of a preview without a redirect. -/
def plainConfig : Config where
  tmpDir := ⟨"/tmp"⟩
  cloneDirectory := ⟨"/tmp/infra-deployments"⟩
  infraDeploymentsBranch := "main"
  infraDeploymentsOrg := "redhat-appstudio"
  forkRemote := "preview"
  forkOrg := "me"
  quayToken := "YWJj"
  defaultQuayOrg := "redhat-appstudio-qe"
  defaultQuayOrgToken := ""
  imageTagExpiration := "6h"
  githubToken := ""
  pacGithubAppId := ""
  pacGithubAppPrivateKey := ""
  oauthRedirectProxyUrl := none
  testBranchId := "abcd"

/-- The steps of an installation into an empty directory whose first request fails. -/
def unavailableSteps : List Step :=
  let config := plainConfig
  let directory := config.cloneDirectory
  [⟨.findDirectory directory, false⟩,
   ⟨.report (.cloning config.infraDeploymentsUrl config.infraDeploymentsReference), ()⟩,
   ⟨.clone config.infraDeploymentsUrl config.infraDeploymentsBranch directory, CloneOutcome.done⟩,
   ⟨.addRemote directory config.forkRemote config.forkAddress, Except.ok ()⟩,
   ⟨.report (.addedRemote config.forkRemote config.forkAddress), ()⟩,
   ⟨.report (announcement config), ()⟩,
   ⟨.report (.running Bootstrap.previewScript Bootstrap.previewArguments directory), ()⟩,
   ⟨.launch ⟨directory.join Bootstrap.previewScript, Bootstrap.previewArguments, directory,
      config.environment.entries⟩, Except.ok (.exited 0)⟩,
   ⟨.report (.finished Bootstrap.previewScript), ()⟩,
   ⟨.report .redirectUrlNotSet, ()⟩,
   ⟨.send (.get .namespaces QuaySecret.secretNamespace), .serviceFailure "unavailable"⟩]

theorem yields_unavailable :
    Yields (runFrom (.ofConfig plainConfig) plainConfig).run unavailableSteps
      (.error (.namespaceLookup QuaySecret.secretNamespace (.service "unavailable"))) :=
  .perform _ <| .perform _ <| .perform _ <| .perform _ <| .perform _ <| .perform _ <|
    .perform _ <| .perform _ <| .perform _ <| .perform _ <| .perform _ <| .done _

theorem runFrom_orderly_unavailable :
    Orderly (.ofConfig plainConfig) plainConfig unavailableSteps
        (.error (.namespaceLookup QuaySecret.secretNamespace (.service "unavailable"))) ∧
      ∀ machine : Machine,
        (machine.run (runFrom (.ofConfig plainConfig) plainConfig).run).2.disk =
          (machine.run (prepare (.ofConfig plainConfig) plainConfig).run).2.disk := by
  have horderly := runFrom_orderly (.ofConfig plainConfig) plainConfig
  exact ⟨horderly.1 _ _ yields_unavailable,
    horderly.2 Machine.handler Machine.disk machine_keepsFiles⟩

end PreviewInstaller.Install

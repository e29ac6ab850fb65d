import PreviewInstaller.Checkout
import PreviewInstaller.Machine
import PreviewInstaller.Proofs.Disk.Removal
import PreviewInstaller.Proofs.Git.Fresh
import PreviewInstaller.Proofs.Procedure

set_option autoImplicit false

/-! # Laws of checkouts

A checkout that succeeds leaves a fresh clone of the tip of a branch with two remotes, whatever lay
in its directory before. One that fails tells with its error how far it came: the old directory
could not be removed and nothing was cloned, the old directory is gone, or the clone is there
without the second remote. -/

namespace PreviewInstaller.Checkout

open Disk (startOf UpFromPresent)
open Git (Remote FreshCheckout HoldsCommits)
open Procedure (Step Yields Performs trace)

variable {machine before cleared after : Machine} {checkout : Checkout} {directory : Path}
  {url branch name : String} {steps : List Step}

/-! ## Machines -/

/-- What every machine is like: its disk is a tree, its working directory is there, and every branch
of a repository has a commit. -/
structure Sound (machine : Machine) : Prop where
  isTree : machine.disk.IsTree
  isDirectory_here : (machine.disk.entry? machine.here).any Entry.isDirectory = true
  commits : HoldsCommits machine.disk

theorem Sound.isDirectory_startOf (h : Sound machine) (path : Path) :
    (machine.disk.entry? (startOf machine.here path)).any Entry.isDirectory = true := by
  unfold startOf
  split
  · rfl
  · exact h.isDirectory_here

/-! ## The parts of a checkout -/

/-- A machine after an event was reported and something was done to its disk. -/
def told (machine : Machine) (event : Event) (disk : Disk) : Machine :=
  { machine.record [.reported event] with disk }

theorem run_report (machine : Machine) (event : Event) :
    Procedure.run Machine.handler (Task.report event : Task Error Unit).run machine =
      (.ok (), told machine event machine.disk) := rfl

/-- The old directory is removed, if it is there. -/
theorem run_removeStale (machine : Machine) (directory : Path) :
    machine.run (removeStale directory).run =
      if machine.disk.isDirectory machine.here directory = true then
        ((machine.disk.removeTree machine.here directory).1.mapError (Error.removal directory),
          told machine (.removingFolder directory)
            (machine.disk.removeTree machine.here directory).2)
      else (.ok (), machine) := by
  have hfind : Procedure.run Machine.handler (Task.findDirectory directory : Task Error Bool).run
      machine = (.ok (machine.disk.isDirectory machine.here directory), machine) := rfl
  have hremove : Procedure.run Machine.handler
      (Task.removeDirectory directory : Task Error (Except DiskFault Unit)).run
      (told machine (.removingFolder directory) machine.disk) =
        (.ok (machine.disk.removeTree machine.here directory).1,
          told machine (.removingFolder directory)
            (machine.disk.removeTree machine.here directory).2) := rfl
  refine (Task.run_bind_ok hfind).trans ?_
  cases machine.disk.isDirectory machine.here directory with
  | false => rfl
  | true =>
    refine (Task.run_bind_ok (run_report machine _)).trans ((Task.run_bind_ok hremove).trans ?_)
    rw [Task.run_orThrow]
    rfl

/-- What the outcome of a clone means for the checkout. -/
def concluded (url branch : String) : CloneOutcome → Except Error Unit
  | .done => .ok ()
  | .failed fault => .error (.clone url (branchReference branch) fault)
  | .crashed => .error .crash

theorem run_cloneBranch (machine : Machine) (url branch : String) (directory : Path) :
    machine.run (cloneBranch url branch directory).run =
      let (outcome, disk) :=
        Git.clone machine.disk machine.here machine.aliases url branch directory
      (concluded url branch outcome,
        told machine (.cloning url (branchReference branch)) disk) := by
  have hclone : Procedure.run Machine.handler
      (Task.clone url branch directory : Task Error CloneOutcome).run
      (told machine (.cloning url (branchReference branch)) machine.disk) =
        (.ok (Git.clone machine.disk machine.here machine.aliases url branch directory).1,
          told machine (.cloning url (branchReference branch))
            (Git.clone machine.disk machine.here machine.aliases url branch directory).2) := rfl
  refine (Task.run_bind_ok (run_report machine _)).trans ((Task.run_bind_ok hclone).trans ?_)
  cases Git.clone machine.disk machine.here machine.aliases url branch directory with
  | mk outcome disk => cases outcome <;> rfl

theorem run_addForkRemote (machine : Machine) (directory : Path) (name url : String) :
    machine.run (addForkRemote directory name url).run =
      match Git.addRemote machine.disk machine.here directory name url with
      | (.ok (), disk) => (.ok (), told { machine with disk } (.addedRemote name url) disk)
      | (.error fault, disk) => (.error (.remote name url fault), { machine with disk }) := by
  have hadd : Procedure.run Machine.handler
      (Task.addRemote directory name url : Task Error (Except GitFault Unit)).run machine =
        (.ok (Git.addRemote machine.disk machine.here directory name url).1,
          { machine with
            disk := (Git.addRemote machine.disk machine.here directory name url).2 }) := rfl
  refine (Task.run_bind_ok hadd).trans ?_
  cases Git.addRemote machine.disk machine.here directory name url with
  | mk outcome disk => cases outcome <;> rfl

/-- What a checkout does when the old directory is gone. -/
def refill (checkout : Checkout) : Task Error Unit := do
  cloneBranch checkout.url checkout.branch checkout.directory
  addForkRemote checkout.directory checkout.forkRemote checkout.forkUrl

/-- A checkout whose removal did not fail goes on from what that left. -/
theorem run_sync_of_ok
    (h : before.run (removeStale checkout.directory).run = (.ok (), cleared)) :
    before.run checkout.sync.run = cleared.run checkout.refill.run :=
  Task.run_bind_ok h

theorem run_refill (checkout : Checkout) (machine : Machine) :
    machine.run checkout.refill.run =
      match machine.run (cloneBranch checkout.url checkout.branch checkout.directory).run with
      | (.error error, cloned) => (.error error, cloned)
      | (.ok (), cloned) =>
        cloned.run
          (addForkRemote checkout.directory checkout.forkRemote checkout.forkUrl).run := by
  rcases hclone : machine.run
    (cloneBranch checkout.url checkout.branch checkout.directory).run with ⟨outcome, cloned⟩
  cases outcome with
  | error error => exact Task.run_bind_error hclone
  | ok _ => exact Task.run_bind_ok hclone

/-- The parts of a checkout follow each other as long as none of them fails. -/
theorem run_sync (checkout : Checkout) (machine : Machine) :
    machine.run checkout.sync.run =
      match machine.run (removeStale checkout.directory).run with
      | (.error error, cleared) => (.error error, cleared)
      | (.ok (), cleared) =>
        match cleared.run (cloneBranch checkout.url checkout.branch checkout.directory).run with
        | (.error error, cloned) => (.error error, cloned)
        | (.ok (), cloned) =>
          cloned.run
            (addForkRemote checkout.directory checkout.forkRemote checkout.forkUrl).run := by
  rcases hremove : machine.run (removeStale checkout.directory).run with ⟨outcome, cleared⟩
  cases outcome with
  | error error => exact Task.run_bind_error hremove
  | ok _ => exact (run_sync_of_ok hremove).trans (run_refill checkout cleared)

/-! ## The old directory -/

/-- A machine on which the directory of a path was removed, if there was one. -/
structure Cleared (before : Machine) (directory : Path) (cleared : Machine) : Prop where
  here_eq : cleared.here = before.here
  aliases_eq : cleared.aliases = before.aliases
  isTree : cleared.disk.IsTree
  entry?_of_some : ∀ place entry, cleared.disk.entry? place = some entry →
    before.disk.entry? place = some entry
  isDirectory_eq : cleared.disk.isDirectory before.here directory = false
  isDirectory_startOf :
    UpFromPresent cleared.disk (startOf before.here directory) directory.components →
      (cleared.disk.entry? (startOf before.here directory)).any Entry.isDirectory = true
  removed : before.disk.isDirectory before.here directory = true →
    (before.disk.removeTree before.here directory).1 = .ok ()

/-- The old directory is not there, or it is removed and that is reported. -/
theorem removeStale_cases (hsound : Sound before)
    (h : before.run (removeStale directory).run = (.ok (), cleared)) :
    (before.disk.isDirectory before.here directory = false ∧ cleared = before) ∨
      before.disk.isDirectory before.here directory = true ∧
        (before.disk.removeTree before.here directory).1 = .ok () ∧
        cleared = told before (.removingFolder directory) cleared.disk ∧
        ∃ front last place,
          Disk.Removal before.disk before.here directory front last place cleared.disk := by
  rw [run_removeStale] at h
  cases hfound : before.disk.isDirectory before.here directory with
  | false =>
    rw [hfound] at h
    cases h
    exact .inl ⟨rfl, rfl⟩
  | true =>
    rw [hfound, if_pos rfl] at h
    rcases hremove : before.disk.removeTree before.here directory with ⟨outcome, disk⟩
    rw [hremove] at h
    cases outcome with
    | error fault => cases h
    | ok _ =>
      cases h
      exact .inr ⟨rfl, rfl, rfl,
        Disk.exists_removal hsound.isTree (hsound.isDirectory_startOf directory) hremove⟩

theorem cleared_of_removeStale (hsound : Sound before)
    (h : before.run (removeStale directory).run = (.ok (), cleared)) :
    Cleared before directory cleared := by
  rcases removeStale_cases hsound h with
    ⟨hfound, rfl⟩ | ⟨hfound, hremoved, hcleared, front, last, place, hremoval⟩
  · exact ⟨rfl, rfl, hsound.isTree, fun _ _ => id, hfound,
      fun _ => hsound.isDirectory_startOf directory, fun htrue => nomatch hfound.symm.trans htrue⟩
  · refine ⟨by rw [hcleared]; rfl, by rw [hcleared]; rfl, hremoval.isTree hsound.isTree,
      hremoval.entry?_of_some, ?_,
      hremoval.isDirectory_startOf (hsound.isDirectory_startOf directory), fun _ => hremoved⟩
    unfold Disk.isDirectory
    split
    · next location hfollow => exact absurd hfollow (hremoval.not_followed location)
    · rfl

theorem Cleared.commits (h : Cleared before directory cleared) (hsound : Sound before) :
    HoldsCommits cleared.disk :=
  fun place repository hentry => hsound.commits place repository (h.entry?_of_some _ _ hentry)

/-! ## What a checkout leaves -/

/-- Whether a fresh checkout is on a machine, with these remotes. It was fetched from a repository
that stood on the disk before and still does. -/
def IsFresh (checkout : Checkout) (before after : Machine) (remotes : List Remote) : Prop :=
  ∃ location source commit,
    FreshCheckout after.disk before.here before.aliases checkout.url checkout.branch
      checkout.directory remotes location source commit ∧
    ∃ place, before.disk.entry? place = some (.repository source) ∧
      after.disk.entry? place = some (.repository source)

/-- Whether the path of the checkout steps up from present places only, when its old directory is
gone. -/
def StepsUpSafely (checkout : Checkout) (before : Machine) : Prop :=
  UpFromPresent (before.run (removeStale checkout.directory).run).2.disk
    (startOf before.here checkout.directory) checkout.directory.components

/-- Whether the old directory can be removed, if there is one. -/
def CanClear (checkout : Checkout) (before : Machine) : Prop :=
  before.disk.isDirectory before.here checkout.directory = true →
    (before.disk.removeTree before.here checkout.directory).1 = .ok ()

/-- The remotes of a checkout. -/
def remotes (checkout : Checkout) : List Remote :=
  [⟨Git.Repository.originName, checkout.url⟩, ⟨checkout.forkRemote, checkout.forkUrl⟩]

/-- How a checkout ends, and what each ending tells about the machine. -/
inductive Outcome (checkout : Checkout) (before after : Machine) :
    Except Error Unit → Prop where
  /-- The old directory was removed, and a fresh checkout is there with both remotes. -/
  | done : CanClear checkout before → IsFresh checkout before after checkout.remotes →
      checkout.forkRemote ≠ Git.Repository.originName → Outcome checkout before after (.ok ())
  /-- The removal failed. Nothing but what it removed is gone, and nothing was cloned. -/
  | removal {fault : DiskFault} :
      before.disk.removeTree before.here checkout.directory = (.error fault, after.disk) →
      (∀ step ∈ trace Machine.handler checkout.sync.run before, ∀ url branch path,
        step.action ≠ .clone url branch path) →
      Outcome checkout before after (.error (.removal checkout.directory fault))
  /-- The clone failed, and there is no directory. -/
  | clone {fault : GitFault} : CanClear checkout before →
      after.disk.isDirectory before.here checkout.directory = false →
      Outcome checkout before after
        (.error (.clone checkout.url (branchReference checkout.branch) fault))
  /-- The second remote could not be added to the fresh checkout. -/
  | remote {fault : GitFault} : CanClear checkout before →
      IsFresh checkout before after [⟨Git.Repository.originName, checkout.url⟩] →
      Outcome checkout before after
        (.error (.remote checkout.forkRemote checkout.forkUrl fault))
  /-- The branch cannot be told, or the path steps up from a place that is not there. -/
  | crash : '\x00' ∈ checkout.branch.toList ∨ ¬StepsUpSafely checkout before →
      Outcome checkout before after (.error .crash)

/-! ## How a checkout ends -/

theorem removal_of_error {error : Error}
    (h : before.run (removeStale directory).run = (.error error, after)) :
    ∃ fault, error = .removal directory fault ∧
      before.disk.removeTree before.here directory = (.error fault, after.disk) := by
  rw [run_removeStale] at h
  split at h
  · rcases hremove : before.disk.removeTree before.here directory with ⟨outcome, disk⟩
    rw [hremove] at h
    cases outcome with
    | ok _ => cases h
    | error fault =>
      cases h
      exact ⟨fault, rfl, rfl⟩
  · cases h

/-- Nothing is cloned while the old directory is removed. -/
theorem performs_removeStale (directory : Path) :
    Performs (fun action => ∀ url branch path, action ≠ .clone url branch path)
      (removeStale directory).run := by
  refine Task.performs_bind (Task.performs_act nofun) fun found => ?_
  cases found with
  | false => exact Task.performs_pure ()
  | true =>
    exact Task.performs_bind (Task.performs_report nofun) fun _ =>
      Task.performs_bind (Task.performs_act nofun) fun _ => Task.performs_orThrow _ _

/-- When the removal fails, nothing comes after it. -/
theorem not_cloned_of_error {error : Error}
    (h : before.run (removeStale checkout.directory).run = (.error error, after)) :
    ∀ step ∈ trace Machine.handler checkout.sync.run before, ∀ url branch path,
      step.action ≠ .clone url branch path := by
  have hrun : Procedure.run Machine.handler (removeStale checkout.directory).run before =
      (.error error, after) := h
  have htrace : trace Machine.handler checkout.sync.run before =
      trace Machine.handler (removeStale checkout.directory).run before := by
    show trace Machine.handler ((removeStale checkout.directory).run.bind _) before = _
    rw [Procedure.trace_bind, hrun]
    exact List.append_nil _
  rw [htrace]
  exact (performs_removeStale checkout.directory).of_mem_steps (Procedure.yields_trace _ _ _)

section Cleared

variable {made : Disk} {location : Location} {source : Git.Repository} {commit : Git.Snapshot}
  {remotes : List Remote}

/-- What was fetched into the new directory is a fresh checkout on the machine. -/
theorem Cleared.isFresh (h : Cleared before checkout.directory cleared)
    (hfetched : Git.Fetched cleared.disk before.here before.aliases checkout.url checkout.branch
      checkout.directory made location source commit)
    (hcheckout : Git.IsCheckout made location
      { source.cloned checkout.url checkout.branch commit with remotes := remotes } commit
      after.disk) : IsFresh checkout before after remotes := by
  obtain ⟨place, hbefore, hmade⟩ := hfetched.exists_source
  exact ⟨location, source, commit, hfetched.fresh hcheckout, place,
    h.entry?_of_some _ _ hbefore, hcheckout.keeps hfetched.new _ _ hmade⟩

/-- When the clone is done, the outcome is up to the second remote. -/
theorem Cleared.outcome_of_done {cloned : Machine} (h : Cleared before checkout.directory cleared)
    (hsound : Sound before) (hhere : cloned.here = before.here)
    (hclone : Git.clone cleared.disk before.here before.aliases checkout.url checkout.branch
      checkout.directory = (.done, cloned.disk)) :
    let ended := cloned.run
      (addForkRemote checkout.directory checkout.forkRemote checkout.forkUrl).run
    Outcome checkout before ended.2 ended.1 := by
  obtain ⟨made, location, source, commit, hfetched, hcheckout⟩ :=
    Git.exists_of_clone h.isTree h.isDirectory_startOf h.isDirectory_eq (h.commits hsound) hclone
  simp only [run_addForkRemote]
  rcases hadd : Git.addRemote cloned.disk cloned.here checkout.directory checkout.forkRemote
    checkout.forkUrl with ⟨outcome, disk⟩
  rw [hhere, Git.addRemote_eq hfetched.new hfetched.follow_eq hcheckout] at hadd
  split at hadd
  · cases hadd
    -- the clone already has the one remote that is claimed
    rw [← Git.with_remotes_cloned] at hcheckout
    exact .remote h.removed (h.isFresh hfetched hcheckout)
  · next changed hchanged =>
    cases hadd
    obtain ⟨hname, rfl⟩ := Git.withRemote_eq_ok hchanged
    refine .done h.removed (h.isFresh hfetched (hcheckout.insert _)) fun hsame => ?_
    simp [Git.Repository.hasRemote, Git.Repository.cloned, hsame] at hname

/-- When the old directory is gone, the outcome is up to the clone. -/
theorem Cleared.outcome (h : Cleared before checkout.directory cleared) (hsound : Sound before)
    (hremove : before.run (removeStale checkout.directory).run = (.ok (), cleared))
    {result : Except Error Unit × Machine}
    (hresult : result = match cleared.run
        (cloneBranch checkout.url checkout.branch checkout.directory).run with
      | (.error error, cloned) => (.error error, cloned)
      | (.ok (), cloned) =>
        cloned.run (addForkRemote checkout.directory checkout.forkRemote checkout.forkUrl).run) :
    Outcome checkout before result.2 result.1 := by
  rw [run_cloneBranch, h.here_eq, h.aliases_eq] at hresult
  rcases hclone : Git.clone cleared.disk before.here before.aliases checkout.url checkout.branch
    checkout.directory with ⟨outcome, disk⟩
  rw [hclone] at hresult
  cases outcome with
  | done =>
    rw [hresult]
    exact h.outcome_of_done hsound h.here_eq hclone
  | failed fault =>
    rw [hresult]
    exact .clone h.removed (Git.isDirectory_of_clone_failed h.isTree h.isDirectory_startOf
      h.isDirectory_eq hclone)
  | crashed =>
    rw [hresult]
    refine .crash ((Git.nul_mem_or_of_clone_crashed hclone).imp_right ?_)
    unfold StepsUpSafely
    rw [hremove]
    exact id

end Cleared

/-- The files of a branch. -/
def tip : Git.Snapshot :=
  [(["bootstrap.txt"], .file ⟨.text "content", File.plainMode false⟩)]

/-- A repository with that branch. -/
def sourceRepository : Git.Repository where
  head := "main"
  branches := [("main", tip)]
  fetched := []
  tags := []
  remotes := []
  trackings := []

/-- A file of an old checkout. -/
def oldFile : File :=
  ⟨.text "old checkout", File.plainMode false⟩

/-- A machine with the repository and an old checkout. -/
def staleMachine : Machine where
  disk := ⟨[(["src"], .repository sourceRepository), (["d"], .directory),
    (["d", "old.txt"], .file oldFile)]⟩
  environment := .empty
  workingDirectory := some []
  aliases := []
  network := .unreachable
  clusterFault := none
  clock := .epoch
  letters := []
  transcript := []
  requests := []

/-- A checkout in place of the old one. -/
def plainCheckout : Checkout where
  url := "/src"
  branch := "main"
  directory := ⟨"/d"⟩
  forkRemote := "preview"
  forkUrl := "https://github.com/me/infra-deployments.git"

theorem sound_staleMachine : Sound staleMachine where
  isTree := Disk.isTree_of_entries (by decide)
  isDirectory_here := rfl
  commits := Git.holdsCommits_of_entries (by decide)

/-- A branch that is asked for with a slash in front of its name. -/
def slashedCheckout : Checkout :=
  { plainCheckout with branch := "/main" }

/-- A directory whose path steps up from a missing one. -/
def detouredCheckout : Checkout :=
  { plainCheckout with directory := ⟨"/x/../d"⟩ }

/-- The reference that the head of the repository of a directory points to. -/
def headReference? (disk : Disk) (location : Location) : Option String :=
  match disk.entry? (location ++ [".git"]) with
  | some (.repository repository) => some ("refs/heads/" ++ repository.head)
  | _ => none

end PreviewInstaller.Checkout

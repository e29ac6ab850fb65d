import PreviewInstaller.Proofs.Checkout.Surroundings
import PreviewInstaller.Proofs.Git.Entries

set_option autoImplicit false

/-! # Checkouts forget what was there

Machines on which nothing differs but what is in the place of a checkout cannot be told apart by it
but for the one warning about the old directory: it ends in the same way on both of them and leaves
the same entries. The machine that a checkout leaves is one of them, so making it again changes
nothing. -/

namespace PreviewInstaller.Checkout

open Disk (startOf Place lastPiece)
open Git (MakesNew Sayable)

variable {machine first second before cleared cleared' : Machine} {checkout : Checkout}
  {location : Location}

/-! ## What is reported -/

/-- A machine after events were reported and something was done to its disk. -/
def Reports (events : List Event) (before after : Machine) : Prop :=
  ∃ disk, after = { before.record (events.map .reported) with disk }

theorem Reports.here_eq {events : List Event} (h : Reports events first second) :
    second.here = first.here := by
  obtain ⟨disk, rfl⟩ := h
  rfl

theorem Reports.aliases_eq {events : List Event} (h : Reports events first second) :
    second.aliases = first.aliases := by
  obtain ⟨disk, rfl⟩ := h
  rfl

theorem Reports.trans {events more : List Event} {after : Machine}
    (h : Reports events before machine) (hmore : Reports more machine after) :
    Reports (events ++ more) before after := by
  obtain ⟨disk, rfl⟩ := h
  obtain ⟨disk', rfl⟩ := hmore
  exact ⟨disk', by simp [Machine.record]⟩

/-- The warning about the old directory, if it is there. -/
def warnings (checkout : Checkout) (machine : Machine) : List Event :=
  if machine.disk.isDirectory machine.here checkout.directory then
    [.removingFolder checkout.directory]
  else []

theorem reports_removeStale {outcome : Except Error Unit}
    (h : before.run (removeStale checkout.directory).run = (outcome, cleared)) :
    Reports (checkout.warnings before) before cleared := by
  rw [run_removeStale] at h
  unfold warnings
  split at h
  · next hfound =>
    cases h
    rw [if_pos hfound]
    exact ⟨_, rfl⟩
  · next hfound =>
    cases h
    rw [if_neg hfound]
    exact ⟨_, rfl⟩

/-! ## Runs that end in the same way -/

/-- Runs on two machines end in the same way: with the same result and the same entries, and they
report the same, behind what each of them reports first. There are no more warnings in that. -/
structure EndAlike (ahead ahead' : List Event) (first second : Machine)
    (one other : Except Error Unit × Machine) : Prop where
  result_eq : one.1 = other.1
  entries_eq : one.2.disk.entry? = other.2.disk.entry?
  reports : ∃ events, (∀ event ∈ events, event.level ≠ .warn) ∧
    Reports (ahead ++ events) first one.2 ∧ Reports (ahead' ++ events) second other.2

/-- What is reported before two runs end in the same way is all that tells them apart. -/
theorem EndAlike.behind {ahead ahead' : List Event} {one other : Except Error Unit × Machine}
    (h : EndAlike [] [] cleared cleared' one other) (hfirst : Reports ahead first cleared)
    (hsecond : Reports ahead' second cleared') : EndAlike ahead ahead' first second one other := by
  obtain ⟨events, hevents, hone, hother⟩ := h.reports
  exact ⟨h.result_eq, h.entries_eq, events, hevents, hfirst.trans hone, hsecond.trans hother⟩

/-- An event that both runs report first is one of those that they share. -/
theorem EndAlike.share {event : Event} {one other : Except Error Unit × Machine}
    (h : EndAlike [event] [event] first second one other) (hlevel : event.level ≠ .warn) :
    EndAlike [] [] first second one other := by
  obtain ⟨events, hevents, hone, hother⟩ := h.reports
  refine ⟨h.result_eq, h.entries_eq, event :: events, ?_, hone, hother⟩
  rw [List.forall_mem_cons]
  exact ⟨hlevel, hevents⟩

/-- A remote is added in the same way on disks with the same entries. -/
theorem addForkRemote_alike (directory : Path) (name url : String)
    (hhere : first.here = second.here) (hentries : first.disk.entry? = second.disk.entry?) :
    EndAlike [] [] first second (first.run (addForkRemote directory name url).run)
      (second.run (addForkRemote directory name url).run) := by
  obtain ⟨hadd, hadded⟩ := Git.addRemote_congr first.here directory name url hentries
  rw [run_addForkRemote, run_addForkRemote, ← hhere]
  generalize Git.addRemote first.disk _ _ _ _ = result at hadd hadded
  generalize Git.addRemote second.disk _ _ _ _ = result' at hadd hadded
  obtain ⟨outcome, disk⟩ := result
  obtain ⟨outcome', disk'⟩ := result'
  obtain rfl : outcome = outcome' := hadd
  cases outcome with
  | error fault => exact ⟨rfl, hadded, [], by simp, ⟨disk, rfl⟩, ⟨disk', rfl⟩⟩
  | ok _ => exact ⟨rfl, hadded, [_], by simp [Event.level], ⟨disk, rfl⟩, ⟨disk', rfl⟩⟩

/-- A clone ends in the same way on two disks, and leaves the same entries. -/
def ClonesAlike (checkout : Checkout) (here : Location) (aliases : List (String × String))
    (disk disk' : Disk) : Prop :=
  let one := Git.clone disk here aliases checkout.url checkout.branch checkout.directory
  let other := Git.clone disk' here aliases checkout.url checkout.branch checkout.directory
  one.1 = other.1 ∧ Disk.entry? one.2 = Disk.entry? other.2

/-- Behind the old directory, a checkout is up to the clone. -/
theorem refill_alike (hhere : first.here = second.here) (haliases : first.aliases = second.aliases)
    (h : checkout.ClonesAlike first.here first.aliases first.disk second.disk) :
    EndAlike [] [] first second (first.run checkout.refill.run)
      (second.run checkout.refill.run) := by
  obtain ⟨hclone, hentries⟩ := h
  rw [run_refill, run_refill, run_cloneBranch, run_cloneBranch, ← hhere, ← haliases]
  generalize Git.clone first.disk _ _ _ _ _ = result at hclone hentries
  generalize Git.clone second.disk _ _ _ _ _ = result' at hclone hentries
  obtain ⟨outcome, disk⟩ := result
  obtain ⟨outcome', disk'⟩ := result'
  obtain rfl : outcome = outcome' := hclone
  cases outcome with
  | failed fault =>
    exact ⟨rfl, hentries, [_], by simp [Event.level], ⟨disk, rfl⟩, ⟨disk', rfl⟩⟩
  | crashed => exact ⟨rfl, hentries, [_], by simp [Event.level], ⟨disk, rfl⟩, ⟨disk', rfl⟩⟩
  | done =>
    have hcloned : Reports [.cloning checkout.url (branchReference checkout.branch)] first
        (told first (.cloning checkout.url (branchReference checkout.branch)) disk) := ⟨disk, rfl⟩
    have hcloned' : Reports [.cloning checkout.url (branchReference checkout.branch)] second
        (told second (.cloning checkout.url (branchReference checkout.branch)) disk') :=
      ⟨disk', rfl⟩
    have hadded := addForkRemote_alike checkout.directory checkout.forkRemote checkout.forkUrl
      (hcloned.here_eq.trans (hhere.trans hcloned'.here_eq.symm)) hentries
    exact (hadded.behind hcloned hcloned').share nofun

/-- Checkouts end in the same way if the clones do. -/
theorem sync_alike (hhere : first.here = second.here) (haliases : first.aliases = second.aliases)
    (hfirst : first.run (removeStale checkout.directory).run = (.ok (), cleared))
    (hsecond : second.run (removeStale checkout.directory).run = (.ok (), cleared'))
    (h : checkout.ClonesAlike first.here first.aliases cleared.disk cleared'.disk) :
    EndAlike (checkout.warnings first) (checkout.warnings second) first second
      (first.run checkout.sync.run) (second.run checkout.sync.run) := by
  have hwarned := reports_removeStale hfirst
  have hwarned' := reports_removeStale hsecond
  rw [run_sync_of_ok hfirst, run_sync_of_ok hsecond]
  refine (refill_alike ?_ ?_ ?_).behind hwarned hwarned'
  · rw [hwarned.here_eq, hwarned'.here_eq, hhere]
  · rw [hwarned.aliases_eq, hwarned'.aliases_eq, haliases]
  · rwa [hwarned.here_eq, hwarned.aliases_eq]

/-! ## Two machines -/

/-- Machines on which paths and urls mean the same, and that have the same entries outside of a
location. -/
structure AlikeOutside (location : Location) (first second : Machine) : Prop where
  here_eq : first.here = second.here
  aliases_eq : first.aliases = second.aliases
  entries : ∀ place, ¬location <+: place → first.disk.entry? place = second.disk.entry? place

/-- A location has room for a checkout: no other one is the place of its directory, and nothing
stands there or the directory that does can be removed. -/
structure HasRoom (checkout : Checkout) (location : Location) (machine : Machine) : Prop where
  place_eq : ∀ place, Place machine.disk machine.here checkout.directory place → place = location
  free : machine.disk.entry? location = none ∨
    machine.disk.isDirectory machine.here checkout.directory = true ∧
      (machine.disk.removeTree machine.here checkout.directory).1 = .ok ()

theorem HasRoom.canClear (h : HasRoom checkout location machine) : CanClear checkout machine := by
  intro hfound
  rcases h.free with hnone | ⟨-, hremoved⟩
  · unfold Disk.isDirectory at hfound
    split at hfound
    · next hfollow =>
      obtain ⟨place, entry, hstat⟩ := Disk.exists_stat_of_follow hfollow
      obtain ⟨-, hentry⟩ := Disk.stat_eq_ok_iff.1 hstat
      rw [h.place_eq place (.found hstat), hnone] at hentry
      cases hentry
    · cases hfound
  · exact hremoved

theorem exists_of_canClear (h : CanClear checkout machine) :
    ∃ cleared, machine.run (removeStale checkout.directory).run = (.ok (), cleared) := by
  rw [run_removeStale]
  split
  · next hfound =>
    rw [h hfound]
    exact ⟨_, rfl⟩
  · exact ⟨_, rfl⟩

/-- When the old directory is gone, nothing is left in its place. -/
theorem HasRoom.entry?_cleared (h : HasRoom checkout location before) (hsound : Sound before)
    (hremove : before.run (removeStale checkout.directory).run = (.ok (), cleared))
    (place : Location) :
    cleared.disk.entry? place = if location <+: place then none else before.disk.entry? place := by
  rcases removeStale_cases hsound hremove with
    ⟨hmissing, rfl⟩ | ⟨-, -, -, front, last, outer, hremoval⟩
  · split
    · next hstarts =>
      rcases h.free with hnone | ⟨hfound, -⟩
      · exact hsound.isTree.entry?_eq_none hstarts hnone
      · cases hmissing.symm.trans hfound
    · rfl
  · rw [hremoval.entry?_eq, h.place_eq _ hremoval.place]

/-- What was in the place of a checkout makes no difference to it. -/
theorem sync_same (hfirst : Sound first) (hsecond : Sound second)
    (halike : AlikeOutside location first second) (hroom : HasRoom checkout location first)
    (hroom' : HasRoom checkout location second) :
    EndAlike (checkout.warnings first) (checkout.warnings second) first second
      (first.run checkout.sync.run) (second.run checkout.sync.run) := by
  obtain ⟨cleared, hcleared⟩ := exists_of_canClear hroom.canClear
  obtain ⟨cleared', hcleared'⟩ := exists_of_canClear hroom'.canClear
  have hentries : cleared.disk.entry? = cleared'.disk.entry? := by
    funext place
    rw [hroom.entry?_cleared hfirst hcleared, hroom'.entry?_cleared hsecond hcleared']
    split
    · rfl
    · next hplace => exact halike.entries place hplace
  exact sync_alike halike.here_eq halike.aliases_eq hcleared hcleared'
    (Git.clone_congr first.here checkout.directory first.aliases checkout.url checkout.branch
      hentries)

/-! ## The machine that a checkout leaves -/

/-- A directory that was made is that of a site. -/
theorem exists_site {disk made : Disk} {here : Location} {path : Path}
    (hmakes : MakesNew disk here path location made) (htree : disk.IsTree)
    (hnul : path.hasNul = false) :
    ∃ site : Site, site.here = here ∧ site.path = path ∧ site.location = location ∧
      site.On disk 0 ∧ site.On made site.names.length := by
  obtain ⟨front, directory, name, rest, hbreak, -⟩ := hmakes.breaksOff
  obtain ⟨site, rfl, rfl, rfl, -⟩ := Site.exists_of_breaksOff htree hnul hbreak
  obtain ⟨more, htarget, hfresh⟩ := site.on_base.makeTarget Site.names_length_pos
  cases hmakes.target_eq.symm.trans htarget
  exact ⟨site, rfl, rfl, rfl, site.on_base, hfresh.on⟩

/-- The directory of a site can always be removed, unless its path ends in a dot. -/
theorem exists_cleared_of_on {site : Site} {made : Nat} (hhere : site.here = machine.here)
    (hpath : site.path = checkout.directory) (hdot : lastPiece checkout.directory ≠ ".")
    (hon : site.On machine.disk made) :
    ∃ cleared count, machine.run (removeStale checkout.directory).run = (.ok (), cleared) ∧
      site.On cleared.disk count ∧ count < site.names.length := by
  have hfound := hon.isDirectory
  rw [run_removeStale, ← hhere, ← hpath, hfound]
  by_cases hmade : made = site.names.length
  · subst hmade
    obtain ⟨removed, hremove, hremoved⟩ := hon.removeTree (hpath ▸ hdot)
    rw [if_pos (decide_eq_true rfl), hremove]
    exact ⟨_, _, rfl, hremoved, Nat.sub_lt Site.names_length_pos Nat.one_pos⟩
  · rw [if_neg (by simpa using hmade)]
    exact ⟨machine, made, rfl, hon, Nat.lt_of_le_of_ne hon.le hmade⟩

/-- Clones of a site are alike, however much of it is there. -/
theorem clonesAlike_of_on {site : Site} {disk disk' : Disk} {made made' : Nat}
    (hpath : site.path = checkout.directory)
    (hsayable : Sayable checkout.url checkout.branch checkout.directory)
    (hon : site.On disk made) (hmade : made < site.names.length) (hon' : site.On disk' made')
    (hmade' : made' < site.names.length) (aliases : List (String × String)) :
    checkout.ClonesAlike site.here aliases disk disk' := by
  obtain ⟨houtcome, hentries⟩ :=
    Site.cloneInto_same aliases checkout.url checkout.branch hon hon' hmade hmade'
  have hsafe := hon.stepsUpSafely
  have hsafe' := hon'.stepsUpSafely
  rw [hpath] at houtcome hentries hsafe hsafe'
  unfold ClonesAlike
  rw [Git.clone_eq hsayable hsafe, Git.clone_eq hsayable hsafe', houtcome]
  exact ⟨rfl, hentries⟩

section Again

variable (hmissing : before.disk.isDirectory before.here checkout.directory = false)
  (hhere : machine.here = before.here)
include hhere

/-- A machine whose disk is on a site can be cleared, and a clone makes the same of it. -/
theorem exists_cleared_of_site {site : Site} {made count : Nat} (hstart : site.here = before.here)
    (hpath : site.path = checkout.directory)
    (hsayable : Sayable checkout.url checkout.branch checkout.directory)
    (hdot : lastPiece checkout.directory ≠ ".") (hon : site.On before.disk made)
    (hmade : made < site.names.length) (hon' : site.On machine.disk count) :
    ∃ cleared, machine.run (removeStale checkout.directory).run = (.ok (), cleared) ∧
      checkout.ClonesAlike before.here before.aliases before.disk cleared.disk := by
  obtain ⟨cleared, count, hremove, hcleared, hcount⟩ :=
    exists_cleared_of_on (hstart.trans hhere.symm) hpath hdot hon'
  have halike := clonesAlike_of_on hpath hsayable hon hmade hcleared hcount before.aliases
  rw [hstart] at halike
  exact ⟨cleared, hremove, halike⟩

include hmissing

/-- A machine that was refilled can be cleared again, and a clone makes the same of it. -/
theorem Refilled.exists_cleared (h : Refilled checkout before machine.disk)
    (htree : before.disk.IsTree) (hdot : lastPiece checkout.directory ≠ ".") :
    ∃ cleared, machine.run (removeStale checkout.directory).run = (.ok (), cleared) ∧
      checkout.ClonesAlike before.here before.aliases before.disk cleared.disk := by
  cases h with
  | untouched hsame =>
    refine ⟨machine, ?_, hsame.symm ▸ ⟨rfl, rfl⟩⟩
    rw [run_removeStale, hsame, hhere, hmissing]
    rfl
  | emptied hmakes hsayable hsame =>
    obtain ⟨site, hstart, hpath, rfl, hon, hmade⟩ :=
      exists_site hmakes htree hsayable.path
    exact exists_cleared_of_site hhere hstart hpath hsayable hdot hon Site.names_length_pos
      (hsame ▸ hmade.erase_eraseBelow)
  | filled hmakes hsayable hsame =>
    obtain ⟨site, hstart, hpath, rfl, hon, hmade⟩ :=
      exists_site hmakes htree hsayable.path
    exact exists_cleared_of_site hhere hstart hpath hsayable hdot hon Site.names_length_pos
      (hmade.of_outside hsame)

end Again

/-- Making a checkout again changes nothing. -/
theorem sync_again (hsound : Sound before) (hclear : CanClear checkout before)
    (hdot : lastPiece checkout.directory ≠ ".") :
    EndAlike (checkout.warnings before) (checkout.warnings (before.run checkout.sync.run).2)
      before (before.run checkout.sync.run).2 (before.run checkout.sync.run)
      ((before.run checkout.sync.run).2.run checkout.sync.run) := by
  obtain ⟨cleared, hremove⟩ := exists_of_canClear hclear
  have hcleared := cleared_of_removeStale hsound hremove
  have hmissing := hcleared.isDirectory_eq
  rw [← hcleared.here_eq] at hmissing
  have hended := run_sync_of_ok hremove
  have hwarned := reports_removeStale hremove
  have hrefilled := hcleared.refilled hsound
  have halike : EndAlike [] [] cleared cleared (cleared.run checkout.refill.run) _ :=
    refill_alike rfl rfl ⟨rfl, rfl⟩
  obtain ⟨events, -, hreports, -⟩ := halike.reports
  rw [← hended] at hrefilled hreports
  obtain ⟨cleared', hremove', hclones⟩ :=
    hrefilled.exists_cleared hmissing hreports.here_eq hcleared.isTree hdot
  rw [hwarned.here_eq, hwarned.aliases_eq] at hclones
  exact sync_alike (hwarned.here_eq.symm.trans hreports.here_eq.symm)
    (hwarned.aliases_eq.symm.trans hreports.aliases_eq.symm) hremove hremove' hclones

/-! ## What a checkout tells of the past -/

/-- A checkout warns once if the old directory is there, and not otherwise. -/
theorem sync_reports (checkout : Checkout) (before : Machine) :
    ∃ events, (∀ event ∈ events, event.level ≠ .warn) ∧
      Reports (checkout.warnings before ++ events) before (before.run checkout.sync.run).2 := by
  rcases hremove : before.run (removeStale checkout.directory).run with ⟨outcome, cleared⟩
  have hwarned := reports_removeStale hremove
  cases outcome with
  | error error =>
    have hrun : before.run checkout.sync.run = (.error error, cleared) :=
      Task.run_bind_error hremove
    exact ⟨[], by simp, by rw [hrun, List.append_nil]; exact hwarned⟩
  | ok _ =>
    have halike : EndAlike [] [] cleared cleared (cleared.run checkout.refill.run) _ :=
      refill_alike rfl rfl ⟨rfl, rfl⟩
    obtain ⟨events, hevents, hreports, -⟩ := halike.reports
    exact ⟨events, hevents, by rw [run_sync_of_ok hremove]; exact hwarned.trans hreports⟩

/-- The same machine without the old checkout. -/
def clearMachine : Machine :=
  { staleMachine with disk := (staleMachine.disk.eraseBelow ["d"]).erase ["d"] }

theorem sound_clearMachine : Sound clearMachine where
  isTree := Disk.isTree_of_entries (by decide)
  isDirectory_here := rfl
  commits := Git.holdsCommits_of_entries (by decide)

theorem alikeOutside_clearMachine : AlikeOutside ["d"] staleMachine clearMachine where
  here_eq := rfl
  aliases_eq := rfl
  entries place hplace := by
    rw [clearMachine, Disk.entry?_erase_eraseBelow (by decide), if_neg hplace]

theorem hasRoom_staleMachine : HasRoom plainCheckout ["d"] staleMachine where
  place_eq _ hplace := by
    have hstat : staleMachine.disk.stat staleMachine.here plainCheckout.directory =
        .ok (["d"], .directory) := by decide +kernel
    exact hplace.eq (.found hstat)
  free := .inr (by decide +kernel)

theorem hasRoom_clearMachine : HasRoom plainCheckout ["d"] clearMachine where
  place_eq _ hplace := by
    have hbreak : Disk.BreaksOff clearMachine.disk
        (startOf clearMachine.here plainCheckout.directory) plainCheckout.directory.components
        [] [] "d" [] := ⟨by decide, by decide, rfl, rfl, rfl⟩
    exact hplace.eq (.missing hbreak)
  free := .inl rfl

/-- A directory whose path ends in a dot, so that it can be made but not removed. -/
def dottedCheckout : Checkout :=
  { plainCheckout with directory := ⟨"/d/."⟩ }

end PreviewInstaller.Checkout

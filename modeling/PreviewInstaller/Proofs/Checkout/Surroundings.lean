import PreviewInstaller.Proofs.Checkout
import PreviewInstaller.Proofs.Disk.Place

set_option autoImplicit false

/-! # The surroundings of a checkout

A checkout keeps to the place of its directory. It may make directories on the way there that are
missing, and leaves everything else as it is, however it ends. -/

namespace PreviewInstaller.Checkout

open Disk (startOf isBelow BreaksOff Place)
open Git (MakesNew IsCheckout)

variable {machine before cleared after : Machine} {checkout : Checkout} {location : Location}

/-! ## Behind the old directory -/

/-- The second remote is added to the machine that the clone has left. -/
theorem disk_addForkRemote (machine : Machine) (directory : Path) (name url : String) :
    (machine.run (addForkRemote directory name url).run).2.disk =
      (Git.addRemote machine.disk machine.here directory name url).2 := by
  rw [run_addForkRemote]
  rcases Git.addRemote machine.disk machine.here directory name url with ⟨_ | _, _⟩ <;> rfl

/-- A second remote changes nothing but what lies in the directory that was checked out. -/
theorem entry?_addRemote {disk made filled : Disk} {here place : Location}
    {repository : Git.Repository} {commit : Git.Snapshot}
    (hmakes : MakesNew disk here checkout.directory location made)
    (hcheckout : IsCheckout made location repository commit filled)
    (hplace : isBelow location place = false) :
    Disk.entry? (Git.addRemote filled here checkout.directory checkout.forkRemote
      checkout.forkUrl).2 place = made.entry? place := by
  rw [Git.addRemote_eq hmakes.new hmakes.follow_eq hcheckout]
  split
  · exact hcheckout.outside place hplace
  · next changed _ => exact (hcheckout.insert changed).outside place hplace

/-- Behind the old directory, a checkout leaves the disk as it is or makes a new directory. If there
is nothing to fetch into it, it is removed again; else all that is different lies in it. -/
inductive Refilled (checkout : Checkout) (machine : Machine) (after : Disk) : Prop where
  | untouched : after = machine.disk → Refilled checkout machine after
  | emptied {location : Location} {made : Disk} :
      MakesNew machine.disk machine.here checkout.directory location made →
      Git.Sayable checkout.url checkout.branch checkout.directory →
      after = (made.eraseBelow location).erase location → Refilled checkout machine after
  | filled {location : Location} {made : Disk} :
      MakesNew machine.disk machine.here checkout.directory location made →
      Git.Sayable checkout.url checkout.branch checkout.directory →
      (∀ place, isBelow location place = false → after.entry? place = made.entry? place) →
      Refilled checkout machine after

theorem Cleared.refilled (h : Cleared before checkout.directory cleared) (hsound : Sound before) :
    Refilled checkout cleared (cleared.run checkout.refill.run).2.disk := by
  have hmissing := h.isDirectory_eq
  have hstart := h.isDirectory_startOf
  rw [← h.here_eq] at hmissing hstart
  rw [run_refill, run_cloneBranch]
  have hcases := fun aliases url branch => @Git.clone_cases cleared.disk cleared.here aliases url
    branch checkout.directory h.isTree hstart hmissing
  rcases hcases cleared.aliases checkout.url checkout.branch with
    ⟨outcome, hundone, hclone⟩ | ⟨made, location, hmakes, hsayable,
      ⟨fault, -, hclone⟩ | ⟨clone, commit, hfetch, hclone⟩⟩ <;> rw [hclone]
  · cases outcome with
    | done => exact absurd rfl hundone
    | failed fault => exact .untouched rfl
    | crashed => exact .untouched rfl
  · exact .emptied hmakes hsayable rfl
  · obtain ⟨source, hfetched, -⟩ := hmakes.exists_fetched hfetch
    have hcommit := hfetched.isCommit (h.commits hsound)
    have hcheckout := Git.isCheckout_placeSnapshot hmakes.new hcommit clone
    refine .filled hmakes hsayable fun place hplace => ?_
    refine (congrArg (Disk.entry? · place) (disk_addForkRemote _ _ _ _)).trans ?_
    exact entry?_addRemote hmakes hcheckout hplace

/-! ## Elsewhere -/

/-- Nothing is different outside of a location, but for directories on the way to it that were
missing. -/
def KeepsOutside (location : Location) (before after : Disk) : Prop :=
  ∀ place, ¬location <+: place → after.entry? place = before.entry? place ∨
    (place <+: location ∧ before.entry? place = none ∧ after.entry? place = some .directory)

theorem keepsOutside_of_isNew {disk made after : Disk} (hnew : Git.IsNew disk location made)
    (hafter : ∀ place, ¬location <+: place → after.entry? place = made.entry? place) :
    KeepsOutside location disk after := by
  intro place hplace
  rw [hafter place hplace]
  cases hbefore : disk.entry? place with
  | some entry => exact .inl (hnew.keeps place entry hbefore)
  | none =>
    cases hmade : made.entry? place with
    | none => exact .inl rfl
    | some entry =>
      obtain rfl := hnew.eq_directory place entry hbefore hmade
      exact .inr ⟨hnew.on_way place _ hbefore hmade, rfl, rfl⟩

/-- What is refilled is where the names of the path broke off. -/
theorem Refilled.keepsOutside {after : Disk} (h : Refilled checkout machine after) :
    after = machine.disk ∨ ∃ front directory name rest,
      BreaksOff machine.disk (startOf machine.here checkout.directory)
        checkout.directory.components front directory name rest ∧
      KeepsOutside (directory ++ name :: rest) machine.disk after := by
  cases h with
  | untouched hafter => exact .inl hafter
  | @emptied location made hmakes hsayable hafter =>
    obtain ⟨front, directory, name, rest, hbreak, rfl⟩ := hmakes.breaksOff
    refine .inr ⟨front, directory, name, rest, hbreak, keepsOutside_of_isNew hmakes.new ?_⟩
    intro place hplace
    rw [hafter, Disk.entry?_erase_eraseBelow (by simp), if_neg hplace]
  | @filled location made hmakes hsayable hafter =>
    obtain ⟨front, directory, name, rest, hbreak, rfl⟩ := hmakes.breaksOff
    refine .inr ⟨front, directory, name, rest, hbreak, keepsOutside_of_isNew hmakes.new ?_⟩
    intro place hplace
    refine hafter place (Bool.eq_false_iff.2 fun hbelow => ?_)
    exact hplace (Disk.isBelow_iff.1 hbelow).1

/-- What is kept outside of a place inside of another one is kept outside of that one. -/
theorem KeepsOutside.widen {outer : Location} {disk made after : Disk}
    (h : KeepsOutside location made after) (houter : outer <+: location)
    (hsame : ∀ place, ¬outer <+: place → made.entry? place = disk.entry? place) :
    KeepsOutside outer disk after := by
  intro place hplace
  rw [← hsame place hplace]
  rcases h place fun hinner => hplace (houter.trans hinner) with
    hkept | ⟨hway, hmissing, hdirectory⟩
  · exact .inl hkept
  · rcases List.prefix_or_prefix_of_prefix hway houter with habove | hbelow
    · exact .inr ⟨habove, hmissing, hdirectory⟩
    · exact absurd hbelow hplace

/-- A checkout changes nothing but what is in the place of its directory, and may make directories
on the way to it. -/
def KeepsToPlace (checkout : Checkout) (before after : Machine) : Prop :=
  after.disk.entry? = before.disk.entry? ∨
    ∃ location, Place before.disk before.here checkout.directory location ∧
      KeepsOutside location before.disk after.disk

/-- A removal that fails has removed something of the directory, if anything. -/
theorem keepsToPlace_of_error {fault : DiskFault}
    (h : before.disk.removeTree before.here checkout.directory = (.error fault, after.disk)) :
    KeepsToPlace checkout before after := by
  rcases Disk.eq_of_removeTree_error h with hsame | ⟨location, entry, hstat, hafter⟩
  · exact .inl (by rw [hsame])
  · refine .inr ⟨location, .found hstat, fun place hplace => .inl ?_⟩
    rw [hafter, Disk.entry?_eraseBelow, if_neg]
    exact fun hbelow => hplace (Disk.isBelow_iff.1 hbelow).1

/-- However a checkout ends, it keeps to its place. -/
theorem sync_keepsToPlace (hsound : Sound before) (checkout : Checkout) :
    KeepsToPlace checkout before (before.run checkout.sync.run).2 := by
  rcases hremove : before.run (removeStale checkout.directory).run with ⟨outcome, cleared⟩
  cases outcome with
  | error error =>
    obtain ⟨fault, -, hfault⟩ := removal_of_error hremove
    have hrun : before.run checkout.sync.run = (.error error, cleared) :=
      Task.run_bind_error hremove
    rw [hrun]
    exact keepsToPlace_of_error hfault
  | ok _ =>
    have hcleared := cleared_of_removeStale hsound hremove
    have hrefilled := (hcleared.refilled hsound).keepsOutside
    rw [hcleared.here_eq] at hrefilled
    rw [run_sync_of_ok hremove]
    rcases removeStale_cases hsound hremove with
      ⟨-, rfl⟩ | ⟨-, -, -, front, last, place, hremoval⟩
    · rcases hrefilled with hsame | ⟨front, directory, name, rest, hbreak, hkeeps⟩
      · exact .inl (by rw [hsame])
      · exact .inr ⟨_, .missing hbreak, hkeeps⟩
    · have houtside : ∀ other, ¬place ++ [last] <+: other →
          cleared.disk.entry? other = before.disk.entry? other := fun other hother => by
        rw [hremoval.entry?_eq, if_neg hother]
      refine .inr ⟨_, hremoval.place, ?_⟩
      rcases hrefilled with hsame | ⟨front', directory, name, rest, hbreak, hkeeps⟩
      · exact fun other hother => .inl (by rw [hsame, houtside other hother])
      · exact hkeeps.widen (hremoval.prefix_of_breaksOff hbreak) houtside

end PreviewInstaller.Checkout

import PreviewInstaller.Proofs.Checkout.Forgetting

set_option autoImplicit false

/-! # Directories that can be made again

When the old directory of a checkout is gone, a new one can be made where its path breaks off.
Whatever becomes of a disk while only that directory is worked on, the disk stays on the same site,
and the next checkout that succeeds ends as if nothing had been done. A path that does not break off
has no place for a directory, and no checkout succeeds there. -/

namespace PreviewInstaller.Checkout

open Disk (startOf isBelow BreaksOff Place)

variable {machine before after cleared : Machine} {checkout : Checkout} {location : Location}
  {disk : Disk}

/-! ## Machines on which a directory can be made again -/

/-- The disk of a machine when the old directory of a checkout was removed, if it was there. -/
def clearedDisk (checkout : Checkout) (machine : Machine) : Disk :=
  (machine.run (removeStale checkout.directory).run).2.disk

/-- The directory of a checkout can be made again at a location: when the old one is gone, this is
the place of its path, and nothing stands there. -/
structure CanRemake (checkout : Checkout) (location : Location) (machine : Machine) : Prop where
  place : Place (checkout.clearedDisk machine) machine.here checkout.directory location
  missing : Disk.entry? (checkout.clearedDisk machine) location = none

theorem clearedDisk_eq (checkout : Checkout) (machine : Machine) :
    checkout.clearedDisk machine =
      if machine.disk.isDirectory machine.here checkout.directory = true then
        (machine.disk.removeTree machine.here checkout.directory).2
      else machine.disk := by
  rw [clearedDisk, run_removeStale]
  split <;> rfl

/-- The disk is as it was, without the directory, or this was removed. -/
theorem clearedDisk_cases (hclear : CanClear checkout machine) (htree : machine.disk.IsTree)
    (hhere : (machine.disk.entry? machine.here).any Entry.isDirectory = true) :
    (checkout.clearedDisk machine = machine.disk ∧
        machine.disk.isDirectory machine.here checkout.directory = false) ∨
      ∃ front last place, Disk.Removal machine.disk machine.here checkout.directory front last
        place (checkout.clearedDisk machine) := by
  rw [clearedDisk_eq]
  split
  · next hfound =>
    have hstart : (machine.disk.entry? (startOf machine.here checkout.directory)).any
        Entry.isDirectory = true := by
      unfold startOf
      split
      · rfl
      · exact hhere
    exact .inr (Disk.exists_removal htree hstart (Prod.ext (hclear hfound) rfl))
  · next hmissing => exact .inl ⟨rfl, Bool.not_eq_true _ ▸ hmissing⟩

theorem isTree_clearedDisk (hclear : CanClear checkout machine) (htree : machine.disk.IsTree)
    (hhere : (machine.disk.entry? machine.here).any Entry.isDirectory = true) :
    (checkout.clearedDisk machine).IsTree := by
  rcases clearedDisk_cases hclear htree hhere with
    ⟨hsame, -⟩ | ⟨front, last, place, hremoval⟩
  · rwa [hsame]
  · exact hremoval.isTree htree

theorem isDirectory_clearedDisk (hclear : CanClear checkout machine) (htree : machine.disk.IsTree)
    (hhere : (machine.disk.entry? machine.here).any Entry.isDirectory = true) :
    (checkout.clearedDisk machine).isDirectory machine.here checkout.directory = false := by
  rcases clearedDisk_cases hclear htree hhere with
    ⟨hsame, hmissing⟩ | ⟨front, last, place, hremoval⟩
  · rwa [hsame]
  · unfold Disk.isDirectory
    split
    · next location hfollow => exact absurd hfollow (hremoval.not_followed location)
    · rfl

theorem CanRemake.exists_breaksOff (h : CanRemake checkout location machine) :
    ∃ front directory name rest, BreaksOff (checkout.clearedDisk machine)
      (startOf machine.here checkout.directory) checkout.directory.components front directory name
        rest ∧ location = directory ++ name :: rest := by
  cases h.place with
  | found hstat =>
    have hentry := (Disk.stat_eq_ok_iff.1 hstat).2
    cases h.missing.symm.trans hentry
  | missing hbreak => exact ⟨_, _, _, _, hbreak, rfl⟩

/-- The directory has a site on the disk that it is gone from. -/
theorem CanRemake.exists_site (h : CanRemake checkout location machine)
    (htree : (checkout.clearedDisk machine).IsTree) (hnul : checkout.directory.hasNul = false) :
    ∃ site : Site, site.here = machine.here ∧ site.path = checkout.directory ∧
      site.base = checkout.clearedDisk machine ∧ site.location = location := by
  obtain ⟨front, directory, name, rest, hbreak, rfl⟩ := h.exists_breaksOff
  exact Site.exists_of_breaksOff htree hnul hbreak

/-! ## Work on the directory -/

/-- What becomes of a disk while a directory at a location is worked on: it stays a tree, nothing
is different elsewhere but for directories on the way that were missing, and only a directory
stands at the location. -/
structure WorkedOn (location : Location) (before after : Disk) : Prop where
  isTree : after.IsTree
  outside : KeepsOutside location before after
  isDirectory : (after.entry? location).all Entry.isDirectory = true

/-- What an attempt that can remove the old directory may leave of the disk of a machine: the old
directory is gone, and where it can be made again, that may have been worked on. -/
structure MayLeave (checkout : Checkout) (machine : Machine) (disk : Disk) : Prop where
  canClear : CanClear checkout machine
  worked : disk = checkout.clearedDisk machine ∨
    ∃ location, CanRemake checkout location machine ∧
      WorkedOn location (checkout.clearedDisk machine) disk

section Site

variable {site : Site}

/-- The first directories of a site are there up to one of them, and none behind it. -/
theorem exists_made (htree : disk.IsTree) (hreached : (disk.entry? site.reached).isSome = true)
    (count : Nat) : ∃ made ≤ count, (∀ way ≤ made, (disk.entry? (site.way way)).isSome = true) ∧
      ∀ way, made < way → way ≤ count → disk.entry? (site.way way) = none := by
  induction count with
  | zero =>
    refine ⟨0, Nat.le_refl _, fun way hle => ?_, fun way hlt hle => absurd hlt (by omega)⟩
    rwa [Nat.le_zero.1 hle, Site.way_zero]
  | succ count ih =>
    cases hnext : disk.entry? (site.way (count + 1)) with
    | none =>
      obtain ⟨made, hmade, hthere, hmissing⟩ := ih
      refine ⟨made, Nat.le_succ_of_le hmade, hthere, fun way hlt hle => ?_⟩
      rcases Nat.lt_or_eq_of_le hle with hbefore | rfl
      · exact hmissing way hlt (Nat.le_of_lt_succ hbefore)
      · exact hnext
    | some entry =>
      refine ⟨count + 1, Nat.le_refl _, fun way hle => ?_, fun way hlt hle => absurd hlt (by omega)⟩
      by_contra hgone
      have hstarts : site.way way <+: site.way (count + 1) :=
        (List.prefix_append_right_inj _).2 (List.take_prefix_take_left hle)
      cases hnext.symm.trans (htree.entry?_eq_none hstarts (by simpa using hgone))

variable (h : WorkedOn site.location site.base disk)
include h

theorem WorkedOn.isSome_reached : (disk.entry? site.reached).isSome = true := by
  have hbefore : (site.base.entry? site.reached).isSome = true :=
    Disk.isSome_of_isDirectory site.reached_isDirectory
  have hkept := h.outside _ (Site.not_prefix_way Site.names_length_pos)
  rw [Site.way_zero] at hkept
  rcases hkept with hsame | ⟨-, hnone, -⟩
  · rwa [hsame]
  · rw [hnone] at hbefore
    cases hbefore

/-- What has come up on the way is a directory. -/
theorem WorkedOn.eq_directory {count : Nat} (hpos : 0 < count) (hlt : count < site.names.length)
    (hthere : (disk.entry? (site.way count)).isSome = true) :
    disk.entry? (site.way count) = some .directory := by
  rcases h.outside _ (Site.not_prefix_way hlt) with hsame | ⟨-, -, hdirectory⟩
  · rw [hsame, Site.way, site.nothing_there count hpos (Nat.le_of_lt hlt)] at hthere
    cases hthere
  · exact hdirectory

/-- Nothing but the directories of the site is different. -/
theorem WorkedOn.entry?_eq (hbase : site.base.IsTree) {place : Location}
    (hcovers : ¬site.Covers place) : disk.entry? place = site.base.entry? place := by
  rcases h.outside place fun hstarts => hcovers (Site.covers_of_prefix hstarts) with
    hsame | ⟨hstarts, hnone, -⟩
  · exact hsame
  have hthere : (site.base.entry? site.reached).isSome = true :=
    Disk.isSome_of_isDirectory site.reached_isDirectory
  rcases Disk.prefix_append_cases hstarts with habove | ⟨names, hnames, rfl⟩
  · rw [hbase.entry?_eq_none habove hnone] at hthere
    cases hthere
  · refine absurd (.inl ⟨names.length, ?_, hnames.length_le, ?_⟩) hcovers
    · refine List.length_pos_iff.2 fun hnil => ?_
      rw [hnil, List.append_nil] at hnone
      rw [hnone] at hthere
      cases hthere
    · rw [Site.way, ← List.prefix_iff_eq_take.1 hnames]

/-- While the directory of a site is worked on, the disk stays on the site. -/
theorem WorkedOn.exists_on (hbase : site.base.IsTree) : ∃ made, site.On disk made := by
  obtain ⟨made, hmade, hthere, hmissing⟩ :=
    exists_made h.isTree h.isSome_reached site.names.length
  have hend : made < site.names.length → disk.entry? site.location = none := by
    intro hlt
    rw [← Site.way_length]
    exact hmissing _ hlt (Nat.le_refl _)
  refine ⟨made, hmade, fun place => h.entry?_eq hbase, ?_, ?_, hmissing, ?_⟩
  · exact fun count hpos hle hlt => h.eq_directory hpos hlt (hthere count hle)
  · intro hall
    have hlast := hthere made (Nat.le_refl _)
    rw [hall, Site.way_length] at hlast
    obtain ⟨entry, hentry⟩ := Option.isSome_iff_exists.1 hlast
    have hkind := h.isDirectory
    rw [hentry] at hkind ⊢
    exact hkind
  · exact fun hlt place hbelow =>
      h.isTree.entry?_eq_none (Disk.isBelow_iff.1 hbelow).1 (hend hlt)

end Site

/-! ## Checkouts after the work -/

/-- A checkout that succeeds has removed the old directory, and nothing that it was told has a NUL
byte. -/
theorem exists_of_sync_ok (h : (machine.run checkout.sync.run).1 = .ok ()) :
    Git.Sayable checkout.url checkout.branch checkout.directory ∧
      ∃ cleared, machine.run (removeStale checkout.directory).run = (.ok (), cleared) := by
  obtain ⟨⟨⟩, cleared, hcleared, hrest⟩ := Task.exists_of_run_bind_ok h
  obtain ⟨⟨⟩, cloned, hcloned, -⟩ := Task.exists_of_run_bind_ok hrest
  refine ⟨?_, cleared, hcleared⟩
  by_contra hunsayable
  obtain ⟨outcome, hundone, hclone⟩ := Git.clone_unsayable hunsayable
  have hrun := run_cloneBranch cleared checkout.url checkout.branch checkout.directory
  rw [show cleared.run _ = _ from hcloned, hclone] at hrun
  have hdone := congrArg Prod.fst hrun
  cases outcome with
  | done => exact hundone rfl
  | failed fault => cases hdone
  | crashed => cases hdone

/-- Where the old directory was removed, it could be. -/
theorem canClear_of_removeStale
    (h : machine.run (removeStale checkout.directory).run = (.ok (), cleared)) :
    CanClear checkout machine := by
  intro hfound
  have hremoved := congrArg Prod.fst h
  rw [run_removeStale, if_pos hfound] at hremoved
  cases hremove : (machine.disk.removeTree machine.here checkout.directory).1 with
  | ok _ => rfl
  | error fault =>
    rw [hremove] at hremoved
    cases hremoved

/-- When the old directory was removed from a site, the disk is still on the site. -/
theorem exists_on_of_cleared {site : Site} {made : Nat} (hhere : site.here = machine.here)
    (hpath : site.path = checkout.directory) (htree : machine.disk.IsTree)
    (hon : site.On machine.disk made)
    (h : machine.run (removeStale checkout.directory).run = (.ok (), cleared)) :
    ∃ made < site.names.length, site.On cleared.disk made := by
  rw [run_removeStale, ← hhere, ← hpath, hon.isDirectory] at h
  by_cases hmade : made = site.names.length
  · subst hmade
    rw [if_pos (decide_eq_true rfl)] at h
    rcases hremove : machine.disk.removeTree site.here site.path with ⟨outcome, disk⟩
    rw [hremove] at h
    cases outcome with
    | error fault => cases h
    | ok _ =>
      cases h
      exact ⟨_, Nat.sub_lt Site.names_length_pos Nat.one_pos, hon.of_removeTree htree hremove⟩
  · rw [if_neg (by simpa using hmade)] at h
    cases h
    exact ⟨made, Nat.lt_of_le_of_ne hon.le hmade, hon⟩

/-- A clone makes the same of the disk that an attempt leaves as it would have made of the disk
before the attempt. -/
theorem clonesAlike_of_mayLeave (hclear : CanClear checkout before) (htree : before.disk.IsTree)
    (hthere : (before.disk.entry? before.here).any Entry.isDirectory = true)
    (hhere : after.here = before.here)
    (hsayable : Git.Sayable checkout.url checkout.branch checkout.directory)
    (hcleared : after.run (removeStale checkout.directory).run = (.ok (), cleared))
    (hleft : after.disk = before.disk ∨ checkout.MayLeave before after.disk) :
    checkout.ClonesAlike before.here before.aliases cleared.disk
      (checkout.clearedDisk before) := by
  have hdisk : cleared.disk = checkout.clearedDisk after := by rw [clearedDisk, hcleared]
  have hbare := isTree_clearedDisk hclear htree hthere
  rcases hleft with hsame | ⟨-, hgone | ⟨location, hremake, hworked⟩⟩
  · rw [hdisk, clearedDisk_eq, hsame, hhere, ← clearedDisk_eq]
    exact ⟨rfl, rfl⟩
  · rw [hdisk, clearedDisk_eq, hgone, hhere, if_neg]
    · exact ⟨rfl, rfl⟩
    · exact Bool.eq_false_iff.1 (isDirectory_clearedDisk hclear htree hthere)
  · obtain ⟨site, hstart, hpath, hbase, rfl⟩ := hremake.exists_site hbare hsayable.path
    rw [← hbase] at hworked hbare ⊢
    obtain ⟨made, hmade⟩ := hworked.exists_on hbare
    obtain ⟨made, hlt, hon⟩ := exists_on_of_cleared (hstart.trans hhere.symm) hpath hworked.isTree
      hmade hcleared
    rw [← hstart]
    exact clonesAlike_of_on hpath hsayable hon hlt site.on_base Site.names_length_pos
      before.aliases

/-- When a checkout succeeds after an attempt, it ends as it would have done before that. -/
theorem sync_remakes (htree : before.disk.IsTree)
    (hthere : (before.disk.entry? before.here).any Entry.isDirectory = true)
    (hhere : after.here = before.here) (haliases : after.aliases = before.aliases)
    (hleft : after.disk = before.disk ∨ checkout.MayLeave before after.disk)
    (hok : (after.run checkout.sync.run).1 = .ok ()) :
    EndAlike (checkout.warnings after) (checkout.warnings before) after before
      (after.run checkout.sync.run) (before.run checkout.sync.run) := by
  obtain ⟨hsayable, cleared, hcleared⟩ := exists_of_sync_ok hok
  have hclear : CanClear checkout before := by
    rcases hleft with hsame | hleaves
    · have hafter := canClear_of_removeStale hcleared
      rwa [CanClear, hsame, hhere] at hafter
    · exact hleaves.canClear
  obtain ⟨cleared', hcleared'⟩ := exists_of_canClear hclear
  have halike := clonesAlike_of_mayLeave hclear htree hthere hhere hsayable hcleared hleft
  rw [clearedDisk, hcleared', ← hhere, ← haliases] at halike
  exact sync_alike hhere haliases hcleared hcleared' halike

end PreviewInstaller.Checkout

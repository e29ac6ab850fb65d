import PreviewInstaller.Proofs.Disk.Removal
import PreviewInstaller.Proofs.Disk.Site

set_option autoImplicit false

/-! # Making and removing the directories of a site

The changes of a disk that keep to a site: a directory is made behind the last one that is there,
and the last one is removed with what lies in it. -/

namespace PreviewInstaller.Site

open Disk (isBelow lastPiece)
open Git (pathOf)

variable {site : Site} {disk : Disk} {made count : Nat}

/-! ## Changes of a disk -/

theorem covers_way (hpos : 0 < count) (hle : count ≤ site.names.length) :
    site.Covers (site.way count) :=
  .inl ⟨count, hpos, hle, rfl⟩

theorem isBelow_ne_way {location : Location} (h : isBelow site.location location = true)
    (hle : count ≤ site.names.length) : location ≠ site.way count := by
  rintro rfl
  rw [not_isBelow_way hle] at h
  cases h

/-- A directory is made in the last one that is there, or in place of one of them. -/
theorem On.insert (h : site.On disk made) (hpos : 0 < count) (hle : count ≤ site.names.length)
    (hmade : count ≤ made + 1) :
    site.On (disk.insert (site.way count) .directory) (max made count) := by
  have hself : Disk.entry? (disk.insert (site.way count) .directory) (site.way count) =
      some .directory := Disk.entry?_insert_self (way_ne_nil hpos hle)
  have hother : ∀ {count'}, count' ≤ site.names.length → count' ≠ count →
      Disk.entry? (disk.insert (site.way count) .directory) (site.way count') =
        disk.entry? (site.way count') := fun hle' hne =>
    Disk.entry?_insert_of_ne fun heq => hne (way_inj hle' hle heq)
  have hmadeLe := h.le
  refine ⟨by omega, ?_, ?_, ?_, ?_, ?_⟩
  · intro location hcovers
    rw [Disk.entry?_insert_of_ne, h.outside location hcovers]
    rintro rfl
    exact hcovers (covers_way hpos hle)
  · intro count' hpos' hle' hlt'
    by_cases heq : count' = count
    · rw [heq, hself]
    · rw [hother (Nat.le_of_lt hlt') heq]
      exact h.on_way count' hpos' (by omega) hlt'
  · intro hend
    rw [← way_length]
    by_cases heq : site.names.length = count
    · rw [heq, hself]
      rfl
    · rw [hother (Nat.le_refl _) heq, way_length]
      exact h.at_end (by omega)
  · intro count' hlt' hle'
    rw [hother hle' (by omega)]
    exact h.missing count' (by omega) hle'
  · intro hlt location hbelow
    rw [Disk.entry?_insert_of_ne (isBelow_ne_way hbelow hle)]
    exact h.below (by omega) location hbelow

/-- Nothing is made where a directory is there. -/
theorem On.ensureDirectory_there (h : site.On disk made) (hle : count ≤ made) :
    disk.ensureDirectory (site.way count) = disk := by
  unfold Disk.ensureDirectory
  rw [if_pos (Disk.isSome_of_isDirectory (h.isDirectory_way hle))]

/-- A directory is made in the last one that is there, or was there before. -/
theorem On.ensureDirectory (h : site.On disk made) (hpos : 0 < count)
    (hle : count ≤ site.names.length) (hmade : count ≤ made + 1) :
    site.On (disk.ensureDirectory (site.way count)) (max made count) := by
  unfold Disk.ensureDirectory
  split
  · next hthere =>
    have hcount : count ≤ made := by
      refine Nat.le_of_not_lt fun hlt => ?_
      rw [h.missing count hlt hle] at hthere
      cases hthere
    rwa [Nat.max_eq_left hcount]
  · exact h.insert hpos hle hmade

/-- How much of a site is there is up to the entries of the disk. -/
theorem On.congr {other : Disk} (h : site.On disk made) (hsame : disk.entry? = other.entry?) :
    site.On other made where
  le := h.le
  outside := hsame ▸ h.outside
  on_way := hsame ▸ h.on_way
  at_end := hsame ▸ h.at_end
  missing := hsame ▸ h.missing
  below := hsame ▸ h.below

/-- A disk that is the same everywhere but in the directory has as much of the site. -/
theorem On.of_outside {after : Disk} (h : site.On disk site.names.length)
    (hsame : ∀ place, isBelow site.location place = false →
      after.entry? place = disk.entry? place) : site.On after site.names.length := by
  refine ⟨Nat.le_refl _, ?_, ?_, ?_, fun count hlt hle => absurd hle (by omega),
    fun hlt => absurd hlt (Nat.lt_irrefl _)⟩
  · intro location hcovers
    rw [hsame location (Bool.eq_false_iff.2 fun hbelow => hcovers (.inr hbelow)),
      h.outside location hcovers]
  · intro count hpos hle hlt
    rw [hsame _ (not_isBelow_way hle), h.on_way count hpos hle hlt]
  · intro hend
    have hlast := hsame _ (not_isBelow_way (Nat.le_refl _))
    rw [way_length] at hlast
    rw [hlast]
    exact h.at_end hend

/-- What lies in the directory does not matter. -/
theorem On.eraseBelow (h : site.On disk site.names.length) :
    site.On (disk.eraseBelow site.location) site.names.length :=
  h.of_outside fun place hplace => by rw [Disk.entry?_eraseBelow, hplace]; rfl

/-- The directory can be removed when nothing lies in it. -/
theorem On.erase (h : site.On disk site.names.length)
    (hempty : ∀ location, isBelow site.location location = true → disk.entry? location = none) :
    site.On (disk.erase site.location) (site.names.length - 1) := by
  have hpos := site.names_length_pos
  have hself : Disk.entry? (disk.erase site.location) site.location = none :=
    Disk.entry?_erase_self location_ne_nil
  rw [← way_length] at hself ⊢
  have hother : ∀ {count}, count < site.names.length →
      Disk.entry? (disk.erase (site.way site.names.length)) (site.way count) =
        disk.entry? (site.way count) := fun hlt =>
    Disk.entry?_erase_of_ne fun heq =>
      absurd (way_inj (Nat.le_of_lt hlt) (Nat.le_refl _) heq) (Nat.ne_of_lt hlt)
  refine ⟨Nat.sub_le _ _, ?_, ?_, fun hend => absurd hend (by omega), ?_, ?_⟩
  · intro location hcovers
    rw [Disk.entry?_erase_of_ne, h.outside location hcovers]
    rintro rfl
    exact hcovers (covers_way hpos (Nat.le_refl _))
  · intro count hpos' hle hlt
    rw [hother hlt, h.on_way count hpos' (Nat.le_of_lt hlt) hlt]
  · intro count hlt hle
    obtain rfl : count = site.names.length := by omega
    exact hself
  · intro hlt location hbelow
    rw [Disk.entry?_erase_of_ne (isBelow_ne_way hbelow (Nat.le_refl _)), hempty location hbelow]

/-! ## Removing the directory -/

theorem components_ne_nil : site.path.components ≠ [] := by
  rw [site.components_eq]
  exact List.append_ne_nil_of_right_ne_nil _ site.names_ne_nil

theorem getLast?_names (hdot : lastPiece site.path ≠ ".") :
    site.names.getLast? = some (lastPiece site.path) := by
  rw [← Path.getLast?_components (Path.lastPiece_ne_empty components_ne_nil) hdot,
    site.components_eq, List.getLast?_append, List.getLast?_eq_some_getLast site.names_ne_nil,
    Option.some_or]

/-- The directory lies in the last one before it, under the last name of the path. -/
theorem exists_last (hdot : lastPiece site.path ≠ ".") : ∃ before,
    site.names.length = before + 1 ∧
    site.path.components = site.front ++ site.names.take before ++ [lastPiece site.path] ∧
    site.location = site.way before ++ [lastPiece site.path] := by
  obtain ⟨names, hnames⟩ := List.getLast?_eq_some_iff.1 (getLast?_names hdot)
  refine ⟨names.length, ?_, ?_, ?_⟩
  · rw [hnames, List.length_append, List.length_singleton]
  · rw [site.components_eq, hnames, List.take_left, List.append_assoc]
  · rw [location, way, hnames, List.take_left, List.append_assoc]

/-- The disk without the directory. -/
theorem On.erase_eraseBelow (h : site.On disk site.names.length) :
    site.On ((disk.eraseBelow site.location).erase site.location) (site.names.length - 1) :=
  h.eraseBelow.erase fun location hbelow => by rw [Disk.entry?_eraseBelow, if_pos hbelow]

/-- The directory is removed with all that lies in it. -/
theorem On.removeTree (h : site.On disk site.names.length) (hdot : lastPiece site.path ≠ ".") :
    ∃ removed, disk.removeTree site.here site.path = (.ok (), removed) ∧
      site.On removed (site.names.length - 1) := by
  obtain ⟨before, hbefore, hcomponents, hlocation⟩ := exists_last hdot
  have hemptied := h.eraseBelow
  refine ⟨(disk.eraseBelow site.location).erase site.location, ?_, h.erase_eraseBelow⟩
  have hup : lastPiece site.path ≠ ".." := fun hup =>
    site.up_notMem (hup ▸ List.mem_of_getLast? (getLast?_names hdot))
  have hle : before ≤ site.names.length := by omega
  have hfollow := hemptied.followFrom hle
  rw [if_pos hle] at hfollow
  have hremoved := Disk.removeEmpty_directory hcomponents hup hfollow
    (hemptied.isDirectory_way (by omega)) (hlocation ▸ hemptied.at_end rfl)
  have htext := site.names_path
  rw [hbefore] at htext
  obtain ⟨entry, hstat, hdirectory⟩ := h.stat_way htext (by omega)
  rw [← hbefore, way_length, pathOf_path] at hstat
  rw [← hlocation] at hremoved
  exact Disk.removeTree_directory hstat hdirectory hremoved

/-- Whenever the directory is removed without a fault, all that lies in it is gone with it, and
nothing else. -/
theorem On.of_removeTree {removed : Disk} (h : site.On disk site.names.length)
    (htree : disk.IsTree) (hremove : disk.removeTree site.here site.path = (.ok (), removed)) :
    site.On removed (site.names.length - 1) := by
  have hleads := h.followFrom (Nat.zero_le site.names.length)
  rw [if_pos (Nat.zero_le _)] at hleads
  have hstart := Disk.isDirectory_of_followFrom hleads (h.isDirectory_way (Nat.zero_le _))
  obtain ⟨front, last, directory, hremoval⟩ := Disk.exists_removal htree hstart hremove
  obtain ⟨found, hfound⟩ := hremoval.found
  obtain ⟨before, hbefore⟩ : ∃ before, site.names.length = before + 1 :=
    ⟨site.names.length - 1, by have := site.names_length_pos; omega⟩
  have htext := site.names_path
  rw [hbefore] at htext
  obtain ⟨entry, hstat, -⟩ := h.stat_way htext (Nat.le_of_eq hbefore.symm)
  rw [← hbefore, way_length, pathOf_path] at hstat
  have hlocation : site.location = directory ++ [last] :=
    congrArg Prod.fst (Except.ok.inj (hstat.symm.trans hfound))
  refine h.erase_eraseBelow.congr (funext fun location => ?_)
  rw [Disk.entry?_erase_eraseBelow location_ne_nil, hremoval.entry?_eq, hlocation]

/-! ## New directories -/

/-- The disks on which the directory was just made. -/
structure Fresh (site : Site) (disk : Disk) : Prop where
  on : site.On disk site.names.length
  at_end : disk.entry? site.location = some .directory
  empty : ∀ location, isBelow site.location location = true → disk.entry? location = none

/-- There is only one way in which a directory can be there and new. -/
theorem Fresh.entry?_eq {first second : Disk} (hfirst : site.Fresh first)
    (hsecond : site.Fresh second) : first.entry? = second.entry? := by
  funext location
  by_cases hcovers : site.Covers location
  · rcases hcovers with ⟨count, hpos, hle, rfl⟩ | hbelow
    · rcases Nat.lt_or_eq_of_le hle with hlt | rfl
      · rw [hfirst.on.on_way count hpos hle hlt, hsecond.on.on_way count hpos hle hlt]
      · rw [way_length, hfirst.at_end, hsecond.at_end]
    · rw [hfirst.empty location hbelow, hsecond.empty location hbelow]
  · rw [hfirst.on.outside location hcovers, hsecond.on.outside location hcovers]

end PreviewInstaller.Site

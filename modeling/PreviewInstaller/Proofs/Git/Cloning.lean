import PreviewInstaller.Proofs.Disk.Making

set_option autoImplicit false

/-! # Laws of cloning

What a clone does is up to the entries of the disk alone. On the disks of a site it makes the same
of all of them: whatever of the site was there, the directory is new when the clone is fetched. -/

namespace PreviewInstaller.Git

variable {first second : Disk} {here : Location} {aliases : List (String × String)}
  {url branch name : String} {path : Path}

/-! ## The same entries -/

theorem repositoryAt?_congr (h : first.entry? = second.entry?) :
    repositoryAt? first = repositoryAt? second := by
  unfold repositoryAt?
  rw [h]

theorem open?_congr (h : first.entry? = second.entry?) : open? first = open? second := by
  unfold open?
  rw [Disk.follow_congr h, repositoryAt?_congr h]

theorem findSource_congr (h : first.entry? = second.entry?) :
    findSource first = findSource second := by
  unfold findSource
  rw [Disk.follow_congr h, Disk.isDirectory_congr h, open?_congr h]

theorem fetch_congr (h : first.entry? = second.entry?) : fetch first = fetch second := by
  unfold fetch
  rw [findSource_congr h]

/-- A remote is added to the same repository. -/
theorem addRemote_congr (here : Location) (path : Path) (name url : String)
    (h : first.entry? = second.entry?) :
    (addRemote first here path name url).1 = (addRemote second here path name url).1 ∧
      Disk.entry? (addRemote first here path name url).2 =
        Disk.entry? (addRemote second here path name url).2 := by
  unfold addRemote
  rw [open?_congr h]
  split
  · exact ⟨rfl, h⟩
  · split
    · exact ⟨rfl, h⟩
    · exact ⟨rfl, Disk.entry?_insert_congr h _ _⟩

/-! ## Texts with a NUL byte -/

/-- Whether nothing that a clone is told has a NUL byte. -/
structure Sayable (url branch : String) (path : Path) : Prop where
  branch : branch.toList.contains '\x00' = false
  url : url.toList.contains '\x00' = false
  path : path.hasNul = false

/-- How a clone ends that was tried. -/
def ending : Except GitFault Unit → CloneOutcome
  | .ok () => .done
  | .error fault => .failed fault

theorem clone_eq {disk : Disk} (h : Sayable url branch path)
    (hsafe : disk.stepsUpSafely here path = true) :
    clone disk here aliases url branch path =
      (ending (cloneInto disk here aliases url branch path).1,
        (cloneInto disk here aliases url branch path).2) := by
  unfold clone
  rw [h.branch, h.url, h.path, hsafe]
  rcases cloneInto disk here aliases url branch path with ⟨_ | _, _⟩ <;> rfl

/-- A path that steps up from nowhere ends a clone before anything is done. -/
theorem clone_of_not_stepsUpSafely {disk : Disk} (h : Sayable url branch path)
    (hnot : disk.stepsUpSafely here path = false) :
    clone disk here aliases url branch path = (.crashed, disk) := by
  unfold clone
  rw [h.branch, h.url, h.path, hnot]
  rfl

/-- A NUL byte ends a clone before anything is done. -/
theorem clone_unsayable (h : ¬Sayable url branch path) :
    ∃ outcome, outcome ≠ .done ∧ ∀ disk here aliases,
      clone disk here aliases url branch path = (outcome, disk) := by
  unfold clone
  by_cases hbranch : branch.toList.contains '\x00' = true
  · exact ⟨.crashed, nofun, fun _ _ _ => by rw [if_pos hbranch]⟩
  by_cases hnul : (url.toList.contains '\x00' || path.hasNul) = true
  · exact ⟨.failed .nulByte, nofun, fun _ _ _ => by rw [if_neg hbranch, if_pos hnul]⟩
  · rw [Bool.or_eq_true, not_or, Bool.not_eq_true, Bool.not_eq_true] at hnul
    exact absurd ⟨Bool.not_eq_true _ ▸ hbranch, hnul.1, hnul.2⟩ h

end PreviewInstaller.Git

namespace PreviewInstaller.Site

open Git (pathOf parentText trimmed makeDirectories makeTarget obstacle?)
open Disk (isBelow lastPiece)

variable {site : Site} {disk : Disk} {made count : Nat} {text : List Char}
  {aliases : List (String × String)} {url branch : String}

/-! ## Making the directories -/

/-- A directory is made if the one around it is there. -/
theorem makeDirectories_of_locate {here location : Location} (depth : Nat)
    (h : disk.locate here (pathOf text) = .ok location) :
    makeDirectories disk here (depth + 1) text =
      .ok (disk.ensureDirectory location) := by
  simp only [makeDirectories, h]

/-- A directory is made after the one around it. -/
theorem makeDirectories_of_missing {here location : Location} {more : Disk} (depth : Nat)
    (h : disk.locate here (pathOf text) = .error .noSuchFile)
    (hparent : makeDirectories disk here depth (parentText text) = .ok more)
    (hmore : more.locate here (pathOf text) = .ok location) :
    makeDirectories disk here (depth + 1) text = .ok (more.ensureDirectory location) := by
  simp only [makeDirectories, h, hparent, hmore, bind, Except.bind]

/-- A text that names a directory of the site ends in a piece. -/
theorem Names.exists_piece (h : Names site text (count + 1)) :
    ∃ front piece slashes, Path.EndsIn text front piece slashes := by
  refine Path.exists_endsIn ?_
  rw [h.namesOf_eq]
  exact List.append_ne_nil_of_right_ne_nil _ (List.ne_nil_of_length_pos (by
    rw [List.length_take_of_le h.le]
    exact Nat.succ_pos count))

/-- The text of a directory behind another one of the site has a shorter text for its parent, which
names this directory as well if the last piece is a dot. -/
theorem Names.exists_parent (h : Names site text (count + 2)) :
    ∃ before, Names site (Git.parentText text) (before + 1) ∧ count ≤ before ∧
      before ≤ count + 1 ∧ (Git.parentText text).length < text.length := by
  have hlength : (Path.namesOf text).length = site.front.length + (count + 2) := by
    rw [h.namesOf_eq, List.length_append, List.length_take_of_le h.le]
  obtain ⟨front, piece, slashes, hends⟩ := h.exists_piece
  have hfront : front ≠ [] := by
    rintro rfl
    rw [hends.namesOf_eq, Path.namesOf_piece hends.piece_ne_nil hends.slash_notMem,
      Path.namesOf_nil, List.nil_append] at hlength
    split at hlength
    · rw [List.length_nil] at hlength
      omega
    · rw [List.length_singleton] at hlength
      omega
  have hparent := h.parentText hends
  split at hparent
  · exact ⟨count + 1, hparent, by omega, by omega, hends.length_parentText hfront⟩
  · exact ⟨count, hparent, by omega, by omega, hends.length_parentText hfront⟩

/-- The next directory is made in the last one that is there. The last of all is new then. -/
theorem On.ensureNext (h : site.On disk count) (hlt : count < site.names.length) :
    site.On (disk.ensureDirectory (site.way (count + 1))) (count + 1) ∧
      (count + 1 = site.names.length →
        site.Fresh (disk.ensureDirectory (site.way (count + 1)))) := by
  have hon : site.On (disk.ensureDirectory (site.way (count + 1))) (max count (count + 1)) :=
    h.ensureDirectory (Nat.succ_pos count) hlt (Nat.le_refl _)
  rw [Nat.max_eq_right (Nat.le_add_right count 1)] at hon
  have hmissing : disk.entry? (site.way (count + 1)) = none :=
    h.missing _ (Nat.lt_succ_self count) hlt
  refine ⟨hon, fun hend => ?_⟩
  rw [hend, way_length] at hon hmissing ⊢
  rw [Disk.ensureDirectory_of_missing hmissing] at hon ⊢
  refine ⟨hon, Disk.entry?_insert_self location_ne_nil, fun location hbelow => ?_⟩
  have hne := isBelow_ne_way hbelow (Nat.le_refl _)
  rw [way_length] at hne
  exact (Disk.entry?_insert_of_ne hne).trans (h.below hlt location hbelow)

/-- All directories that a text names are made, where at most as many are missing as there are
characters in the text. -/
theorem On.makeDirectories (h : site.On disk made) (depth : Nat) (text : List Char)
    (htext : Names site text (count + 1)) (hdepth : text.length ≤ depth) (hmade : made ≤ count) :
    ∃ more, Git.makeDirectories disk site.here depth text = .ok more ∧
      site.On more (count + 1) ∧ (count + 1 = site.names.length → site.Fresh more) := by
  induction depth generalizing text count with
  | zero => exact absurd (List.length_eq_zero_iff.1 (Nat.le_zero.1 hdepth)) htext.ne_nil
  | succ depth ih =>
    have hlocate := h.locate htext
    by_cases hlast : count ≤ made
    · obtain rfl : made = count := Nat.le_antisymm hmade hlast
      rw [if_pos hlast] at hlocate
      exact ⟨_, makeDirectories_of_locate depth hlocate, h.ensureNext htext.le⟩
    · rw [if_neg hlast] at hlocate
      obtain ⟨count, rfl⟩ : ∃ before, count = before + 1 := ⟨count - 1, by omega⟩
      obtain ⟨before, hparent, hle, hle', hshorter⟩ := htext.exists_parent
      obtain ⟨more, hmore, hon, hfresh⟩ := ih _ hparent (by omega) (by omega)
      have hlocateMore := hon.locate htext
      rw [if_pos (by omega)] at hlocateMore
      refine ⟨_, makeDirectories_of_missing depth hlocate hmore hlocateMore, ?_⟩
      -- a text that ends in a dot names the same directory as the one for its parent
      rcases Nat.lt_or_eq_of_le hle' with hlt | rfl
      · obtain rfl : before = count := by omega
        exact hon.ensureNext htext.le
      · rw [hon.ensureDirectory_there (Nat.le_refl _)]
        exact ⟨hon, hfresh⟩

/-! ## The directory to clone into -/

/-- The directory around the one to clone into is found, or made. -/
def MakesParent (disk : Disk) (here : Location) (parent : List Char) (more : Disk) : Prop :=
  (∃ place entry, disk.stat here (pathOf parent) = .ok (place, entry) ∧
      obstacle? disk here parent entry = none ∧ more = disk) ∨
    disk.stat here (pathOf parent) = .error .noSuchFile ∧
      makeDirectories disk here parent.length parent = .ok more

/-- Nothing is in the way of the directory to clone into: it is missing or there. -/
def IsUnopposed (disk : Disk) (here : Location) (target : List Char) : Prop :=
  (∃ fault, disk.stat here (pathOf target) = .error fault) ∨
    ∃ place entry, disk.stat here (pathOf target) = .ok (place, entry) ∧
      obstacle? disk here target entry = none

/-- The directory to clone into is made in the one around it. -/
theorem makeTarget_of_unopposed {here location : Location} {path : Path} {between more : Disk}
    (hparent : MakesParent disk here (parentText (trimmed path.text.toList)) between)
    (htarget : IsUnopposed between here (trimmed path.text.toList))
    (hmore : makeDirectories between here 1 (trimmed path.text.toList) = .ok more)
    (hfollow : more.follow here (pathOf (trimmed path.text.toList)) = .ok location) :
    makeTarget disk here path = .ok (more, location) := by
  unfold makeTarget
  rcases hparent with ⟨_, _, hstat, hobstacle, rfl⟩ | ⟨hstat, hbetween⟩ <;>
    rcases htarget with ⟨fault, hmissing⟩ | ⟨_, _, hthere, hfree⟩ <;>
      simp only [*, bind, Except.bind, pure, Except.pure]

/-- The directory around the last one is found or made. If it is the last one itself, which a dot
behind it names as well, it is new. -/
theorem On.makesParent (h : site.On disk made) (hmade : made ≤ count)
    (htext : Names site text count) :
    ∃ more, MakesParent disk site.here text more ∧ site.On more count ∧
      (made < count → count = site.names.length → site.Fresh more) := by
  by_cases hthere : count ≤ made
  · obtain rfl : made = count := Nat.le_antisymm hmade hthere
    obtain ⟨place, entry, hstat, hobstacle⟩ := h.stat_there htext hthere
    exact ⟨disk, .inl ⟨place, entry, hstat, hobstacle, rfl⟩, h,
      fun hlt => absurd hlt (Nat.lt_irrefl _)⟩
  · obtain ⟨count, rfl⟩ : ∃ before, count = before + 1 := ⟨count - 1, by omega⟩
    obtain ⟨more, hmore, hon, hfresh⟩ :=
      h.makeDirectories text.length text htext (Nat.le_refl _) (by omega)
    exact ⟨more, .inr ⟨h.stat_missing htext (by omega), hmore⟩, hon, fun _ => hfresh⟩

/-- The directory to clone into is made new where it is not there. -/
theorem On.makeTarget (h : site.On disk made) (hmade : made < site.names.length) :
    ∃ more, Git.makeTarget disk site.here site.path = .ok (more, site.location) ∧
      site.Fresh more := by
  obtain ⟨count, hlength⟩ : ∃ before, site.names.length = before + 1 :=
    ⟨site.names.length - 1, by omega⟩
  have htext := site.names_path.trimmed
  have hparent := htext
  rw [hlength] at hparent
  obtain ⟨front, piece, slashes, hends⟩ := hparent.exists_piece
  have hfollow : ∀ {more : Disk}, site.Fresh more →
      more.follow site.here (pathOf (Git.trimmed site.path.text.toList)) = .ok site.location := by
    intro more hfresh
    rw [hfresh.on.follow htext, if_pos (Nat.le_refl _), way_length]
  have hparent := hparent.parentText hends
  split at hparent
  · -- behind the dot, the directory is its own parent, and is made as that
    rw [← hlength] at hparent
    obtain ⟨more, hmore, hon, hfresh⟩ := h.makesParent (Nat.le_of_lt hmade) hparent
    have hunopposed := hon.stat_there htext (Nat.le_refl _)
    have hlocate := hon.locate (hlength ▸ htext)
    rw [if_pos (by omega), ← hlength] at hlocate
    have hsame := makeDirectories_of_locate 0 hlocate
    rw [hon.ensureDirectory_there (Nat.le_refl _)] at hsame
    exact ⟨more, makeTarget_of_unopposed hmore (.inr hunopposed) hsame
      (hfollow (hfresh hmade rfl)), hfresh hmade rfl⟩
  · obtain ⟨between, hbetween, hon, -⟩ := h.makesParent (by omega) hparent
    have hmissing := hon.stat_missing htext (by omega)
    have hlocate := hon.locate (hlength ▸ htext)
    rw [if_pos (Nat.le_refl _)] at hlocate
    have hfresh := (hon.ensureNext (by omega)).2 hlength.symm
    exact ⟨_, makeTarget_of_unopposed hbetween (.inl ⟨_, hmissing⟩)
      (makeDirectories_of_locate 0 hlocate) (hfollow hfresh), hfresh⟩

/-! ## Cloning -/

theorem On.isDirectory (h : site.On disk made) :
    disk.isDirectory site.here site.path = decide (made = site.names.length) := by
  have hfollow := h.follow site.names_path
  rw [pathOf_path] at hfollow
  unfold Disk.isDirectory
  rw [hfollow]
  by_cases hmade : site.names.length ≤ made
  · have hend := h.isDirectory_way hmade
    rw [if_pos hmade, decide_eq_true (Nat.le_antisymm h.le hmade)]
    exact hend
  · rw [if_neg hmade, decide_eq_false (by omega)]

/-- The result of a clone on a disk where the directory was just made. -/
def fetchInto (site : Site) (aliases : List (String × String)) (url branch : String)
    (more : Disk) : Except GitFault Unit × Disk :=
  match Git.fetch more site.here aliases url branch with
  | .error fault => (.error fault, (more.eraseBelow site.location).erase site.location)
  | .ok (clone, commit) =>
    (.ok (), (more.insert (site.location ++ [".git"]) (.repository clone)).placeSnapshot
      site.location commit)

theorem fetchInto_congr {first second : Disk} (h : first.entry? = second.entry?) :
    (site.fetchInto aliases url branch first).1 = (site.fetchInto aliases url branch second).1 ∧
      Disk.entry? (site.fetchInto aliases url branch first).2 =
        Disk.entry? (site.fetchInto aliases url branch second).2 := by
  unfold fetchInto
  rw [Git.fetch_congr h]
  split
  · exact ⟨rfl, Disk.entry?_erase_congr (Disk.entry?_eraseBelow_congr h _) _⟩
  · exact ⟨rfl, Disk.entry?_placeSnapshot_congr (Disk.entry?_insert_congr h _ _) _ _⟩

/-- Where the directory is missing, a clone is fetched into a new one. -/
theorem On.cloneInto (h : site.On disk made) (hmade : made < site.names.length) :
    ∃ more, site.Fresh more ∧ Git.cloneInto disk site.here aliases url branch site.path =
      site.fetchInto aliases url branch more := by
  obtain ⟨more, htarget, hfresh⟩ := h.makeTarget hmade
  refine ⟨more, hfresh, ?_⟩
  have hfollow := h.follow site.names_path
  rw [pathOf_path, if_neg (by omega)] at hfollow
  simp only [Git.cloneInto, hfollow, Except.toOption, htarget]
  rfl

/-- However many of the directories on the way were there, a clone makes the same of the disk. -/
theorem cloneInto_same {first second : Disk} {made' : Nat} (aliases : List (String × String))
    (url branch : String) (hfirst : site.On first made) (hsecond : site.On second made')
    (hmade : made < site.names.length) (hmade' : made' < site.names.length) :
    (Git.cloneInto first site.here aliases url branch site.path).1 =
        (Git.cloneInto second site.here aliases url branch site.path).1 ∧
      Disk.entry? (Git.cloneInto first site.here aliases url branch site.path).2 =
        Disk.entry? (Git.cloneInto second site.here aliases url branch site.path).2 := by
  obtain ⟨more, hfresh, hclone⟩ := hfirst.cloneInto hmade
  obtain ⟨more', hfresh', hclone'⟩ := hsecond.cloneInto hmade'
  rw [hclone, hclone']
  exact fetchInto_congr (hfresh.entry?_eq hfresh')

end PreviewInstaller.Site

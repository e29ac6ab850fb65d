import PreviewInstaller.Proofs.Git.Cloning
import PreviewInstaller.Proofs.Git.Target
import PreviewInstaller.Proofs.Git.Worktree

set_option autoImplicit false

/-! # Fresh checkouts

A clone into a directory that was just made holds what was fetched and the files of one commit.
What it was fetched from is where it was before: nothing that stood on the disk is touched. -/

namespace PreviewInstaller.Git

open Disk (startOf isBelow UpFromPresent exists_of_bind_eq_ok)

variable {disk made after : Disk} {here location : Location} {aliases : List (String × String)}
  {url branch name : String} {path : Path} {repository source clone : Repository}
  {commit : Snapshot}

/-! ## Checkouts in a new directory -/

/-- What a checkout makes of a disk with a new directory: the repository's own data and the files of
a commit are in the directory, and nothing else is different. -/
structure IsCheckout (made : Disk) (location : Location) (repository : Repository)
    (commit : Snapshot) (after : Disk) : Prop where
  data : after.entry? (location ++ [".git"]) = some (.repository repository)
  files : HoldsExactly after location commit
  outside : ∀ place, isBelow location place = false → after.entry? place = made.entry? place

theorem isBelow_append {names : List String} (hne : names ≠ []) :
    isBelow location (location ++ names) = true := by
  rw [Disk.isBelow_iff]
  refine ⟨List.prefix_append _ _, fun heq => hne ?_⟩
  simpa using heq.symm

theorem data_ne_tree {names : List String} (h : InTree names) :
    location ++ [".git"] ≠ location ++ names := by
  intro heq
  rw [List.append_cancel_left_eq] at heq
  subst heq
  exact h.2 rfl

theorem IsNew.isSome_above (h : IsNew disk location made) {outer : Location}
    (houter : outer <+: location) : (made.entry? outer).isSome = true := by
  cases hnone : made.entry? outer with
  | some entry => rfl
  | none => cases (h.isTree.entry?_eq_none houter hnone).symm.trans h.at_location

/-- The files of a commit are checked out beside the repository's own data. -/
theorem isCheckout_placeSnapshot (hnew : IsNew disk location made) (hcommit : IsCommit commit)
    (repository : Repository) :
    IsCheckout made location repository commit
      ((made.insert (location ++ [".git"]) (.repository repository)).placeSnapshot location
        commit) := by
  have hdata : isBelow location (location ++ [".git"]) = true := isBelow_append (by simp)
  have hway : ∀ outer, outer <+: location →
      (Disk.entry? (made.insert (location ++ [".git"]) (.repository repository)) outer).isSome =
        true := by
    intro outer houter
    rw [Disk.entry?_insert_of_ne]
    · exact hnew.isSome_above houter
    · rintro rfl
      have hlength := houter.length_le
      rw [List.length_append, List.length_singleton] at hlength
      omega
  constructor
  · rw [entry?_placeSnapshot_of_ne (fun names => data_ne_tree) hcommit.inTree hway]
    exact Disk.entry?_insert_self (by simp)
  · refine holdsExactly_placeSnapshot hcommit fun names hnames => ?_
    rw [Disk.entry?_insert_of_ne (data_ne_tree hnames).symm]
    exact hnew.empty _ (isBelow_append hnames.1)
  · intro place hplace
    rw [entry?_placeSnapshot_of_ne _ hcommit.inTree hway, Disk.entry?_insert_of_ne]
    · rintro rfl
      rw [hdata] at hplace
      cases hplace
    · rintro names hnames rfl
      rw [isBelow_append hnames.1] at hplace
      cases hplace

/-- The repository's own data can change by itself. -/
theorem IsCheckout.insert (h : IsCheckout made location repository commit after)
    (changed : Repository) :
    IsCheckout made location changed commit
      (after.insert (location ++ [".git"]) (.repository changed)) := by
  constructor
  · exact Disk.entry?_insert_self (by simp)
  · intro names hnames
    rw [Disk.entry?_insert_of_ne (data_ne_tree hnames).symm]
    exact h.files names hnames
  · intro place hplace
    rw [Disk.entry?_insert_of_ne]
    · exact h.outside place hplace
    · rintro rfl
      rw [isBelow_append (by simp)] at hplace
      cases hplace

/-- A repository that is opened stands on the disk. -/
theorem entry?_of_repositoryAt? {found : Location × Repository}
    (h : repositoryAt? disk location = some found) :
    disk.entry? found.1 = some (.repository found.2) := by
  unfold repositoryAt? at h
  split at h
  · next hdata =>
    cases h
    exact hdata
  · next hdata _ =>
    cases h
    exact hdata
  · cases h

/-- A source is a repository that stands on the disk. -/
theorem exists_of_findSource (h : findSource disk here url = .ok source) :
    ∃ place, disk.entry? place = some (.repository source) := by
  have hopen : ∀ {path : Path} {found : Location × Repository},
      open? disk here path = some found → disk.entry? found.1 = some (.repository found.2) := by
    intro path found hfound
    unfold open? at hfound
    split at hfound
    · exact entry?_of_repositoryAt? hfound
    · cases hfound
  unfold findSource at h
  split at h
  · cases h
  split at h
  · split at h
    · cases h
    · cases h
    · next hfound =>
      cases h
      exact ⟨_, hopen hfound⟩
  · split at h
    · split at h
      · cases h
      · next hfound =>
        cases h
        exact ⟨_, hopen hfound⟩
    · cases h

section Kept

variable (hcheckout : IsCheckout made location repository commit after)
  (hnew : IsNew disk location made)
include hcheckout hnew

/-- Nothing that stood on the disk is touched. -/
theorem IsCheckout.keeps : ∀ place entry, made.entry? place = some entry →
    after.entry? place = some entry := by
  intro place entry hentry
  cases hbelow : isBelow location place with
  | false => rw [hcheckout.outside place hbelow, hentry]
  | true => cases (hnew.empty place hbelow).symm.trans hentry

/-- A repository that could be opened before a checkout is opened after it. -/
theorem IsCheckout.repositoryAt?_eq {place : Location} {found : Location × Repository}
    (h : repositoryAt? made place = some found) : repositoryAt? after place = some found := by
  -- there was no repository in the new directory, so this one is elsewhere
  have hoff : ¬location <+: place := by
    intro hstarts
    have hdata : made.entry? (place ++ [".git"]) = none := by
      refine hnew.empty _ (Disk.isBelow_iff.2 ⟨hstarts.trans (List.prefix_append _ _), ?_⟩)
      rintro rfl
      have hlength := hstarts.length_le
      rw [List.length_append, List.length_singleton] at hlength
      omega
    have hplace : made.entry? place = none ∨ made.entry? place = some .directory := by
      by_cases heq : location = place
      · exact .inr (heq ▸ hnew.at_location)
      · exact .inl (hnew.empty _ (Disk.isBelow_iff.2 ⟨hstarts, heq⟩))
    unfold repositoryAt? at h
    rcases hplace with hplace | hplace <;> simp [hdata, hplace] at h
  have hplace : isBelow location place = false := by
    rw [Bool.eq_false_iff, ne_eq, Disk.isBelow_iff]
    exact fun hbelow => hoff hbelow.1
  have hdata : isBelow location (place ++ [".git"]) = false := by
    rw [Bool.eq_false_iff, ne_eq, Disk.isBelow_iff, List.prefix_concat_iff]
    rintro ⟨heq | hstarts, hne⟩
    · exact hne heq
    · exact hoff hstarts
  unfold repositoryAt? at h ⊢
  rwa [hcheckout.outside _ hplace, hcheckout.outside _ hdata]

/-- Paths lead to where they led before. -/
theorem IsCheckout.follow_eq {place : Location} (h : made.follow here path = .ok place) :
    after.follow here path = .ok place :=
  Disk.follow_mono (hcheckout.keeps hnew) h

theorem IsCheckout.isDirectory_eq (h : made.isDirectory here path = true) :
    after.isDirectory here path = true := by
  unfold Disk.isDirectory at h ⊢
  split at h
  · next place hplace =>
    obtain ⟨entry, hentry, hkind⟩ := (Option.any_eq_true _ _).1 h
    rw [hcheckout.follow_eq hnew hplace]
    simp only [hcheckout.keeps hnew _ _ hentry]
    exact hkind
  · cases h

theorem IsCheckout.open?_eq {found : Location × Repository}
    (h : open? made here path = some found) : open? after here path = some found := by
  unfold open? at h ⊢
  split at h
  · next place hplace =>
    rw [hcheckout.follow_eq hnew hplace]
    exact hcheckout.repositoryAt?_eq hnew h
  · cases h

/-- What a url names is the same after a checkout. -/
theorem IsCheckout.findSource_eq (h : findSource made here url = .ok source) :
    findSource after here url = .ok source := by
  unfold findSource at h ⊢
  by_cases hurl : url = ""
  · rw [if_pos hurl] at h
    cases h
  rw [if_neg hurl] at h ⊢
  cases hpath : Text.after? "file://" url with
  | some path =>
    simp only [hpath] at h ⊢
    split at h
    · cases h
    · cases h
    · next hfollow hopen =>
      rw [hcheckout.follow_eq hnew hfollow, hcheckout.open?_eq hnew hopen]
      exact h
  | none =>
    simp only [hpath] at h ⊢
    split at h
    · next hdirectory =>
      rw [if_pos (hcheckout.isDirectory_eq hnew hdirectory)]
      split at h
      · cases h
      · next hopen =>
        rw [hcheckout.open?_eq hnew hopen]
        exact h
    · cases h

end Kept

/-! ## Fresh checkouts -/

/-- Whether all branches of the repositories on a disk have commits. -/
def HoldsCommits (disk : Disk) : Prop :=
  ∀ place repository, disk.entry? place = some (.repository repository) →
    ∀ name commit, repository.branch? name = some commit → IsCommit commit

/-- Whether all branches of an entry have commits, if it is a repository. -/
def EntryHoldsCommits : Entry → Prop
  | .repository repository => ∀ branch ∈ repository.branches, IsCommit branch.2
  | _ => True

instance (entry : Entry) : Decidable (EntryHoldsCommits entry) :=
  match entry with
  | .repository repository =>
    inferInstanceAs (Decidable (∀ branch ∈ repository.branches, IsCommit branch.2))
  | .directory | .file _ | .link _ => inferInstanceAs (Decidable True)

theorem holdsCommits_of_entries (h : ∀ entry ∈ disk.entries, EntryHoldsCommits entry.2) :
    HoldsCommits disk := by
  intro place repository hentry name commit hbranch
  have hroot : place ≠ [] := by
    rintro rfl
    cases hentry
  rw [Disk.entry?_eq_lookup _ hroot] at hentry
  obtain ⟨_, _, hentries, -⟩ := List.lookup_eq_some_iff.1 hentry
  obtain ⟨_, _, hbranches, -⟩ := List.lookup_eq_some_iff.1 hbranch
  have hcommits : EntryHoldsCommits (.repository repository) :=
    h (place, .repository repository) (hentries ▸ by simp)
  exact hcommits (name, commit) (hbranches ▸ by simp)

/-- Whether a branch can have a name as it is: the name has no empty parts and does not start as the
references of branches do. -/
def IsPlainName (branch : String) : Prop :=
  [] ∉ parts branch ∧ Text.startsWith "refs/heads/" branch = false

theorem IsPlainName.branchOf_eq (h : IsPlainName branch) :
    branchOf branch = branch ∧ branchOf (localName branch) = branch := by
  have hbranch : branchOf branch = branch := by
    have hfilter : (parts branch).filter (fun part => part ≠ []) = parts branch :=
      List.filter_eq_self.2 fun part hpart => by
        simpa using fun hnil : part = [] => h.1 (hnil ▸ hpart)
    unfold branchOf
    rw [hfilter, parts, Text.joined_pieces, String.ofList_toList]
  have hlocal : localName branch = branch := by
    simp [localName, Text.after?, h.2]
  exact ⟨hbranch, hlocal.symm ▸ hbranch⟩

/-- A fresh checkout of a branch of what a url names, in the directory of a path: the tip of the
branch is checked out, and the head points to it. -/
structure FreshCheckout (disk : Disk) (here : Location) (aliases : List (String × String))
    (url branch : String) (path : Path) (remotes : List Remote) (location : Location)
    (source : Repository) (commit : Snapshot) : Prop where
  follow_eq : disk.follow here path = .ok location
  at_location : disk.entry? location = some .directory
  url_ne_empty : url ≠ ""
  source_eq : findSource disk here (resolved aliases url) = .ok source
  tip : source.branch? (branchOf branch) = some commit
  data : ∃ repository, disk.entry? (location ++ [".git"]) = some (.repository repository) ∧
    repository.head = branchOf (localName branch) ∧
    repository.branch? repository.head = some commit ∧ repository.remotes = remotes
  /-- A plain name is that of the branch, in the source and in the checkout. -/
  plain : IsPlainName branch → branchOf branch = branch ∧ branchOf (localName branch) = branch
  files : HoldsExactly disk location commit

/-- What is fetched is a clone of the source with the tip of a branch. -/
theorem exists_of_fetch (h : fetch made here aliases url branch = .ok (clone, commit)) :
    url ≠ "" ∧ ∃ source, findSource made here (resolved aliases url) = .ok source ∧
      source.branch? (branchOf branch) = some commit ∧ clone = source.cloned url branch commit := by
  unfold fetch at h
  obtain ⟨source, hsource, h⟩ := exists_of_bind_eq_ok h
  obtain ⟨tip, htip, h⟩ := exists_of_bind_eq_ok h
  obtain ⟨rfl, rfl⟩ := Prod.mk.inj (Except.ok.inj h)
  have hurl : url ≠ "" := by
    rintro rfl
    simp [findSource] at hsource
  rw [if_neg hurl] at hsource
  refine ⟨hurl, source, hsource, ?_, rfl⟩
  unfold findBranch at htip
  split at htip
  · split at htip
    · next hbranch =>
      cases htip
      exact hbranch
    · cases htip
  · cases htip

/-- What a clone has found out when it is about to write: the directory of its path is new, and what
the url names has the branch. -/
structure Fetched (disk : Disk) (here : Location) (aliases : List (String × String))
    (url branch : String) (path : Path) (made : Disk) (location : Location) (source : Repository)
    (commit : Snapshot) : Prop where
  new : IsNew disk location made
  follow_eq : made.follow here path = .ok location
  url_ne_empty : url ≠ ""
  source_eq : findSource made here (resolved aliases url) = .ok source
  tip : source.branch? (branchOf branch) = some commit

/-- What is fetched into a new directory is a clone of a source. -/
theorem MakesNew.exists_fetched (h : MakesNew disk here path location made)
    (hfetch : fetch made here aliases url branch = .ok (clone, commit)) :
    ∃ source, Fetched disk here aliases url branch path made location source commit ∧
      clone = source.cloned url branch commit := by
  obtain ⟨hurl, source, hsource, htip, hclone⟩ := exists_of_fetch hfetch
  exact ⟨source, ⟨h.new, h.follow_eq, hurl, hsource, htip⟩, hclone⟩

section Fetched

variable (h : Fetched disk here aliases url branch path made location source commit)
include h

/-- What is checked out in the new directory is a fresh checkout. -/
theorem Fetched.fresh {remotes : List Remote}
    (hcheckout : IsCheckout made location
      { source.cloned url branch commit with remotes := remotes } commit after) :
    FreshCheckout after here aliases url branch path remotes location source commit where
  follow_eq := hcheckout.follow_eq h.new h.follow_eq
  at_location := hcheckout.keeps h.new _ _ h.new.at_location
  url_ne_empty := h.url_ne_empty
  source_eq := hcheckout.findSource_eq h.new h.source_eq
  tip := h.tip
  data := ⟨_, hcheckout.data, rfl, List.lookup_cons_self, rfl⟩
  plain := IsPlainName.branchOf_eq
  files := hcheckout.files

/-- The source stood on the disk before the clone. -/
theorem Fetched.exists_source :
    ∃ place, disk.entry? place = some (.repository source) ∧
      made.entry? place = some (.repository source) := by
  obtain ⟨place, hplace⟩ := exists_of_findSource h.source_eq
  refine ⟨place, ?_, hplace⟩
  cases hentry : disk.entry? place with
  | none => cases h.new.eq_directory place _ hentry hplace
  | some entry => rw [← h.new.keeps place entry hentry, hplace]

theorem Fetched.isCommit (hcommits : HoldsCommits disk) : IsCommit commit := by
  obtain ⟨place, hplace, -⟩ := h.exists_source
  exact hcommits place source hplace _ commit h.tip

end Fetched

/-! ## Clones where nothing was -/

/-- When a new directory is removed again, its path leads nowhere. -/
theorem IsNew.isDirectory_erase (h : IsNew disk location made)
    (hfollow : made.follow here path = .ok location) :
    Disk.isDirectory ((made.eraseBelow location).erase location) here path = false := by
  have hroot : location ≠ [] := by
    rintro rfl
    cases h.missing
  have hentry : ∀ place, Disk.entry? ((made.eraseBelow location).erase location) place =
      if location <+: place then none else made.entry? place :=
    fun place => Disk.entry?_erase_eraseBelow hroot
  unfold Disk.isDirectory
  split
  · next place hplace =>
    have hplaceMade : made.follow here path = .ok place := by
      refine Disk.follow_mono (fun other entry hother => ?_) hplace
      rw [hentry] at hother
      split at hother
      · cases hother
      · exact hother
    cases hfollow.symm.trans hplaceMade
    rw [hentry, if_pos (List.prefix_refl _)]
    rfl
  · rfl

section Clone

variable (htree : disk.IsTree)
  (hstart : UpFromPresent disk (startOf here path) path.components →
    (disk.entry? (startOf here path)).any Entry.isDirectory = true)
  (hmissing : disk.isDirectory here path = false)
include htree hstart hmissing

/-- A clone either stops before it has made anything, or makes a new directory, which it fills with
what it fetches and removes if it fetches nothing. -/
theorem clone_cases :
    (∃ outcome, outcome ≠ .done ∧
        Git.clone disk here aliases url branch path = (outcome, disk)) ∨
      ∃ made location, MakesNew disk here path location made ∧ Sayable url branch path ∧
        ((∃ fault, fetch made here aliases url branch = .error fault ∧
            Git.clone disk here aliases url branch path =
              (.failed fault, (made.eraseBelow location).erase location)) ∨
          ∃ clone commit, fetch made here aliases url branch = .ok (clone, commit) ∧
            Git.clone disk here aliases url branch path =
              (.done, (made.insert (location ++ [".git"]) (.repository clone)).placeSnapshot
                location commit)) := by
  by_cases hsayable : Sayable url branch path
  swap
  · obtain ⟨outcome, hundone, hclone⟩ := clone_unsayable hsayable
    exact .inl ⟨outcome, hundone, hclone disk here aliases⟩
  cases hsafe : disk.stepsUpSafely here path with
  | false => exact .inl ⟨.crashed, nofun, clone_of_not_stepsUpSafely hsayable hsafe⟩
  | true =>
    have hpresent := Disk.stepsUpSafely_iff.1 hsafe
    rw [clone_eq hsayable hsafe]
    unfold cloneInto
    cases hfollow : disk.follow here path with
    | ok location =>
      -- something that is no directory is at the path
      unfold Disk.isDirectory at hmissing
      rw [hfollow] at hmissing
      simp only [] at hmissing
      exact .inl ⟨.failed (.targetNotEmpty path.text), by simp, by
        simp [Except.toOption, hmissing, ending]⟩
    | error fault =>
      simp only [Except.toOption]
      cases htarget : makeTarget disk here path with
      | error fault => exact .inl ⟨.failed fault, by simp, rfl⟩
      | ok target =>
        obtain ⟨made, location⟩ := target
        have hmakes := makesNew_of_makeTarget htree (hstart hpresent) hsayable.path
          (fun place hplace => by cases hfollow.symm.trans hplace) hpresent htarget
        refine .inr ⟨made, location, hmakes, hsayable, ?_⟩
        cases hfetch : fetch made here aliases url branch with
        | error fault => exact .inl ⟨fault, rfl, by simp only [hfetch, ending]⟩
        | ok fetched => exact .inr ⟨fetched.1, fetched.2, rfl, by simp only [hfetch, ending]⟩

/-- A clone that is done has fetched a branch and checked out its tip in a new directory. -/
theorem exists_of_clone (hcommits : HoldsCommits disk)
    (h : Git.clone disk here aliases url branch path = (.done, after)) :
    ∃ made location source commit,
      Fetched disk here aliases url branch path made location source commit ∧
        IsCheckout made location (source.cloned url branch commit) commit after := by
  rcases clone_cases htree hstart hmissing with
    ⟨outcome, hundone, hclone⟩ | ⟨made, location, hmakes, -,
      ⟨fault, -, hclone⟩ | ⟨clone, commit, hfetch, hclone⟩⟩ <;> cases hclone.symm.trans h
  · exact absurd rfl hundone
  · obtain ⟨source, hfetched, rfl⟩ := hmakes.exists_fetched hfetch
    exact ⟨made, location, source, commit, hfetched,
      isCheckout_placeSnapshot hmakes.new (hfetched.isCommit hcommits) _⟩

/-- A clone that fails leaves no directory. -/
theorem isDirectory_of_clone_failed {fault : GitFault}
    (h : Git.clone disk here aliases url branch path = (.failed fault, after)) :
    after.isDirectory here path = false := by
  rcases clone_cases htree hstart hmissing with
    ⟨outcome, hundone, hclone⟩ | ⟨made, location, hmakes, -,
      ⟨fault, -, hclone⟩ | ⟨clone, commit, hfetch, hclone⟩⟩ <;> cases hclone.symm.trans h
  · exact hmissing
  · exact hmakes.new.isDirectory_erase hmakes.follow_eq

end Clone

/-- A clone crashes because of a NUL byte or a step up from nowhere. -/
theorem nul_mem_or_of_clone_crashed
    (h : Git.clone disk here aliases url branch path = (.crashed, after)) :
    '\x00' ∈ branch.toList ∨ ¬UpFromPresent disk (startOf here path) path.components := by
  unfold Git.clone at h
  split at h
  · next hnul => exact .inl (List.contains_iff_mem.1 hnul)
  split at h
  · cases h
  split at h
  · next hnot =>
    rw [← Disk.stepsUpSafely_iff]
    exact .inr (by simpa using hnot)
  split at h <;> cases h

/-! ## Another remote -/

/-- A clone has the remote that it was fetched from, and no other one. -/
theorem with_remotes_cloned (source : Repository) (url branch : String) (commit : Snapshot) :
    { source.cloned url branch commit with remotes := [⟨Repository.originName, url⟩] } =
      source.cloned url branch commit := by
  unfold Repository.cloned
  rfl

/-- A remote is added behind the others, under a name that none of them has. -/
theorem withRemote_eq_ok {changed : Repository} (h : withRemote repository name url = .ok changed) :
    repository.hasRemote name = false ∧
      changed = { repository with remotes := repository.remotes ++ [⟨name, url⟩] } := by
  unfold withRemote at h
  split at h
  · cases h
  split at h
  · cases h
  split at h
  · cases h
  next hname =>
  split at h
  · cases h
  · exact ⟨Bool.not_eq_true _ ▸ hname, (Except.ok.inj h).symm⟩

/-- A remote is added to the repository that was checked out, or nothing is changed. -/
theorem addRemote_eq (hnew : IsNew disk location made)
    (hfollow : made.follow here path = .ok location)
    (hcheckout : IsCheckout made location repository commit after) :
    addRemote after here path name url =
      match withRemote repository name url with
      | .error fault => (.error fault, after)
      | .ok changed => (.ok (), after.insert (location ++ [".git"]) (.repository changed)) := by
  have hopen : open? after here path = some (location ++ [".git"], repository) := by
    unfold open?
    rw [hcheckout.follow_eq hnew hfollow]
    simp only [repositoryAt?, hcheckout.data]
  unfold addRemote
  cases hremote : withRemote repository name url <;> simp only [hopen, hremote]

end PreviewInstaller.Git

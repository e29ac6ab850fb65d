import PreviewInstaller.Proofs.Disk.Resolution
import PreviewInstaller.Proofs.Path

set_option autoImplicit false

/-! # Laws of removal

A removal that succeeds takes away one place with all that lies below it, and nothing else. The path
leads nowhere after it. -/

namespace PreviewInstaller.Disk

variable {disk removed : Disk} {here location : Location} {path : Path} {entry : Entry}

/-- `removed` is the disk without what stood under the last name of a path, in the directory that
the names before it lead to. -/
structure Removal (disk : Disk) (here : Location) (path : Path) (front : List String)
    (last : String) (directory : Location) (removed : Disk) : Prop where
  components_eq : path.components = front ++ [last]
  last_ne_up : last ≠ ".."
  /-- The names lead there as well when all is gone that lies below the place. -/
  leads : (disk.eraseBelow (directory ++ [last])).followFrom linkLimit (startOf here path) front =
    .ok directory
  /-- Something stands there. -/
  found : ∃ entry, disk.stat here path = .ok (directory ++ [last], entry)
  entry?_eq : ∀ location, removed.entry? location =
    if directory ++ [last] <+: location then none else disk.entry? location

theorem eraseBelow_extends (location : Location) :
    ∀ other entry, Disk.entry? (disk.eraseBelow location) other = some entry →
      disk.entry? other = some entry := by
  intro other entry hentry
  rw [entry?_eraseBelow] at hentry
  split at hentry
  · cases hentry
  · exact hentry

/-- An empty directory is removed where the last name of its path stands. -/
theorem removeEmpty_eq_ok (h : disk.removeEmpty here path = .ok removed) :
    ∃ front last directory entry, path.components = front ++ [last] ∧ last ≠ ".." ∧
      disk.followFrom linkLimit (startOf here path) front = .ok directory ∧
      disk.entry? (directory ++ [last]) = some entry ∧ (∀ target, entry ≠ .link target) ∧
      removed = disk.erase (directory ++ [last]) := by
  unfold removeEmpty at h
  obtain ⟨_, -, h⟩ := exists_of_bind_eq_ok h
  by_cases hdot : lastPiece path = "."
  · rw [if_pos hdot] at h
    cases h
  by_cases hup : lastPiece path = ".."
  · rw [if_neg hdot, if_pos hup] at h
    cases h
  by_cases hempty : lastPiece path = ""
  · rw [if_neg hdot, if_neg hup, if_pos hempty] at h
    cases h
  rw [if_neg hdot, if_neg hup, if_neg hempty] at h
  obtain ⟨location, hlocate, h⟩ := exists_of_bind_eq_ok h
  -- a path that ends in a name has that name as its last one
  obtain ⟨names, hnames⟩ := List.getLast?_eq_some_iff.1 (Path.getLast?_components hempty hdot)
  rcases locate_eq_ok hlocate with
    ⟨hnil, -⟩ | ⟨front, last, directory, hcomponents, hleads, -, hlocation⟩
  · rw [hnil] at hnames
    cases names <;> cases hnames
  · obtain ⟨rfl, hlast⟩ := List.append_inj' (hnames.symm.trans hcomponents) rfl
    obtain rfl : lastPiece path = last := List.singleton_inj.1 hlast
    rw [if_neg hup] at hlocation
    subst hlocation
    cases hentry : disk.entry? (directory ++ [lastPiece path]) with
    | none =>
      rw [hentry] at h
      cases h
    | some entry =>
      rw [hentry] at h
      refine ⟨names, _, directory, entry, hcomponents, hup, hleads, hentry, ?_⟩
      cases entry with
      | link target => cases h
      | _ => exact ⟨nofun, (Except.ok.inj h).symm⟩

/-- What is no link is found in the directory that the names before it lead to. -/
theorem eq_of_stat {front : List String} {last : String} {directory : Location} {found : Entry}
    (h : disk.stat here path = .ok (location, found))
    (hcomponents : path.components = front ++ [last]) (hup : last ≠ "..")
    (hleads : disk.followFrom linkLimit (startOf here path) front = .ok directory)
    (hentry : disk.entry? (directory ++ [last]) = some entry)
    (hlink : ∀ target, entry ≠ .link target) : location = directory ++ [last] := by
  obtain ⟨hplace, -⟩ := stat_eq_ok_iff.1 h
  split at hplace
  · obtain ⟨-, -, hfollow, -⟩ := follow_eq_ok_iff.1 hplace
    rw [hcomponents] at hfollow
    obtain ⟨directory', hleads', -, ⟨hup', -⟩ | ⟨-, entry', hentry', hlocation⟩⟩ :=
      leadsOn_of_followFrom hfollow
    · exact absurd hup' hup
    · cases hleads.symm.trans hleads'
      cases hentry.symm.trans hentry'
      exact hlocation hlink
  · rcases locate_eq_ok hplace with
      ⟨hnil, -⟩ | ⟨front', last', directory', hcomponents', hleads', -, hlocation⟩
    · rw [hnil] at hcomponents
      cases front <;> cases hcomponents
    · obtain ⟨rfl, hlast⟩ := List.append_inj' (hcomponents.symm.trans hcomponents') rfl
      obtain rfl : last = last' := List.singleton_inj.1 hlast
      cases hleads.symm.trans hleads'
      rwa [if_neg hup] at hlocation

/-- A link is found where the last name of its path stands. -/
theorem exists_of_stat_link {target : String} (htree : disk.IsTree)
    (hstart : (disk.entry? (startOf here path)).any Entry.isDirectory = true)
    (h : disk.stat here path = .ok (location, .link target)) :
    ∃ front last directory, path.components = front ++ [last] ∧ last ≠ ".." ∧
      disk.followFrom linkLimit (startOf here path) front = .ok directory ∧
      location = directory ++ [last] := by
  obtain ⟨hplace, hentry⟩ := stat_eq_ok_iff.1 h
  have hnot : ¬(disk.entry? location).any Entry.isDirectory = true := by
    rw [hentry]
    exact nofun
  split at hplace
  · next hnames =>
    obtain ⟨-, -, -, entry, hentry', hdirectory⟩ := follow_eq_ok_iff.1 hplace
    cases hentry.symm.trans hentry'
    cases hdirectory hnames
  · rcases locate_eq_ok hplace with
      ⟨-, rfl⟩ | ⟨front, last, directory, hcomponents, hleads, hdirectory, hlocation⟩
    · exact absurd hstart hnot
    · split at hlocation
      · rw [hlocation] at hnot
        exact absurd (htree.isDirectory_dropLast hdirectory) hnot
      · next hup => exact ⟨front, last, directory, hcomponents, hup, hleads, hlocation⟩

/-- A link has nothing below it, so it is all that goes. -/
theorem exists_removal_of_link {target : String} (htree : disk.IsTree)
    (hstart : (disk.entry? (startOf here path)).any Entry.isDirectory = true)
    (h : disk.stat here path = .ok (location, .link target)) :
    ∃ front last directory, Removal disk here path front last directory (disk.erase location) := by
  obtain ⟨front, last, directory, hcomponents, hup, hleads, rfl⟩ :=
    exists_of_stat_link htree hstart h
  obtain ⟨-, hentry⟩ := stat_eq_ok_iff.1 h
  have hbelow : ∀ other, isBelow (directory ++ [last]) other = true → disk.entry? other = none :=
    fun other => htree.entry?_eq_none_of_isBelow hentry rfl
  have hsame : Disk.entry? (disk.eraseBelow (directory ++ [last])) = disk.entry? := by
    funext other
    rw [entry?_eraseBelow]
    split
    · next hother => exact (hbelow other hother).symm
    · rfl
  have herase : Disk.entry? (disk.erase (directory ++ [last])) =
      Disk.entry? ((disk.eraseBelow (directory ++ [last])).erase (directory ++ [last])) :=
    entry?_erase_congr hsame.symm _
  refine ⟨front, last, directory, hcomponents, hup, ?_, ⟨_, h⟩, fun other => ?_⟩
  · rwa [followFrom_congr hsame]
  · rw [herase, entry?_erase_eraseBelow (by simp)]

/-- Anything else is emptied first, and goes as what it is then. -/
theorem exists_removal_of_removeEmpty (h : disk.stat here path = .ok (location, entry))
    (hremoved : (disk.eraseBelow location).removeEmpty here path = .ok removed) :
    ∃ front last directory, Removal disk here path front last directory removed := by
  obtain ⟨front, last, directory, found, hcomponents, hup, hleads, hfound, hlink, rfl⟩ :=
    removeEmpty_eq_ok hremoved
  obtain rfl : location = directory ++ [last] :=
    eq_of_stat h hcomponents hup (followFrom_mono (eraseBelow_extends location) hleads)
      (eraseBelow_extends location _ _ hfound) hlink
  exact ⟨front, last, directory, hcomponents, hup, hleads, ⟨_, h⟩, fun other =>
    entry?_erase_eraseBelow (by simp)⟩

/-- A removal that fails has taken away what lies below the end of the path, or nothing. -/
theorem eq_of_removeTree_error {fault : DiskFault}
    (h : disk.removeTree here path = (.error fault, removed)) :
    removed = disk ∨ ∃ location entry, disk.stat here path = .ok (location, entry) ∧
      removed = disk.eraseBelow location := by
  unfold removeTree at h
  cases hstat : disk.stat here path with
  | error fault =>
    rw [hstat] at h
    exact .inl (congrArg Prod.snd h).symm
  | ok found =>
    obtain ⟨location, entry⟩ := found
    rw [hstat] at h
    cases entry with
    | link target => cases h
    | _ =>
      refine .inr ⟨location, _, rfl, ?_⟩
      cases hremoved : (disk.eraseBelow location).removeEmpty here path with
      | error fault =>
        simp only [hremoved] at h
        exact (congrArg Prod.snd h).symm
      | ok rest => simp [hremoved] at h

/-- A removal that succeeds takes away the place of the last name with what lies below it. -/
theorem exists_removal (htree : disk.IsTree)
    (hstart : (disk.entry? (startOf here path)).any Entry.isDirectory = true)
    (h : disk.removeTree here path = (.ok (), removed)) :
    ∃ front last directory, Removal disk here path front last directory removed := by
  unfold removeTree at h
  cases hstat : disk.stat here path with
  | error fault =>
    rw [hstat] at h
    cases h
  | ok found =>
    obtain ⟨location, entry⟩ := found
    rw [hstat] at h
    cases entry with
    | link target =>
      obtain rfl : disk.erase location = removed := congrArg Prod.snd h
      exact exists_removal_of_link htree hstart hstat
    | _ =>
      cases hremoved : (disk.eraseBelow location).removeEmpty here path with
      | error fault => simp [hremoved] at h
      | ok rest =>
        simp only [hremoved] at h
        obtain rfl : rest = removed := congrArg Prod.snd h
        exact exists_removal_of_removeEmpty hstat hremoved

/-- A removal, even one that fails, touches nothing but the end of the path and what lies below. -/
theorem entry?_removeTree {other : Location} (h : disk.stat here path = .ok (location, entry))
    (hother : ¬location <+: other) :
    Disk.entry? (disk.removeTree here path).2 other = disk.entry? other := by
  have hemptied : Disk.entry? (disk.eraseBelow location) other = disk.entry? other := by
    rw [entry?_eraseBelow, if_neg fun hbelow => hother (isBelow_iff.1 hbelow).1]
  unfold removeTree
  rw [h]
  cases entry with
  | link target => exact entry?_erase_of_ne fun heq => hother (heq ▸ List.prefix_refl _)
  | _ =>
    cases hremoved : (disk.eraseBelow location).removeEmpty here path with
    | error fault => simpa only [hremoved] using hemptied
    | ok removed =>
      obtain ⟨front, last, directory, hremoval⟩ := exists_removal_of_removeEmpty h hremoved
      obtain ⟨found, hfound⟩ := hremoval.found
      obtain rfl : location = directory ++ [last] :=
        congrArg Prod.fst (Except.ok.inj (h.symm.trans hfound))
      simp only [hremoved]
      rw [hremoval.entry?_eq, if_neg hother]

/-! ## After a removal -/

section Removal

variable {front : List String} {last : String} {directory : Location}

theorem Removal.entry?_of_some (h : Removal disk here path front last directory removed) :
    ∀ location entry, removed.entry? location = some entry →
      disk.entry? location = some entry := by
  intro location entry hentry
  rw [h.entry?_eq] at hentry
  split at hentry
  · cases hentry
  · exact hentry

theorem Removal.isTree (h : Removal disk here path front last directory removed)
    (htree : disk.IsTree) : removed.IsTree := by
  intro location name hthere
  rw [h.entry?_eq] at hthere ⊢
  split at hthere
  · cases hthere
  · next hother =>
    rw [if_neg fun hstarts => hother (hstarts.trans (List.prefix_append _ _))]
    exact htree location name hthere

/-- The path leads nowhere after the removal. -/
theorem Removal.not_followed (h : Removal disk here path front last directory removed) :
    ∀ location, removed.follow here path ≠ .ok location := by
  intro location hfollow
  obtain ⟨-, -, hnames, -⟩ := follow_eq_ok_iff.1 hfollow
  rw [h.components_eq] at hnames
  obtain ⟨directory', hleads', -, ⟨hup, -⟩ | ⟨-, entry, hentry, -⟩⟩ := leadsOn_of_followFrom hnames
  · exact h.last_ne_up hup
  · have hleads := followFrom_mono (eraseBelow_extends _) h.leads
    cases hleads.symm.trans (followFrom_mono h.entry?_of_some hleads')
    rw [h.entry?_eq, if_pos (List.prefix_refl _)] at hentry
    cases hentry

/-- Where the names of the path break off after the removal is what was removed, or lies in it. -/
theorem Removal.prefix_of_breaksOff (h : Removal disk here path front last directory removed)
    {front' rest : List String} {directory' : Location} {name : String}
    (hbreak : BreaksOff removed (startOf here path) path.components front' directory' name rest) :
    directory ++ [last] <+: directory' ++ name :: rest := by
  have hnames := h.components_eq.symm.trans hbreak.names_eq
  rcases List.eq_nil_or_concat rest with rfl | ⟨between, last', rfl⟩
  · obtain ⟨rfl, hlast⟩ := List.append_inj' hnames rfl
    obtain rfl := List.singleton_inj.1 hlast
    have hleads := followFrom_mono (eraseBelow_extends _) h.leads
    cases hleads.symm.trans (followFrom_mono h.entry?_of_some hbreak.leads)
    exact List.prefix_refl _
  · rw [List.concat_eq_append] at hnames hbreak ⊢
    have hfront : front = front' ++ name :: between := by
      rw [← List.cons_append, ← List.append_assoc] at hnames
      exact (List.append_inj' hnames rfl).1
    suffices hstarts : directory ++ [last] <+: directory' ++ [name] from
      hstarts.trans ⟨between ++ [last'], by simp⟩
    -- otherwise the names would break off as well when the place is only emptied
    by_contra hother
    have hmore : ∀ location entry, removed.entry? location = some entry →
        Disk.entry? (disk.eraseBelow (directory ++ [last])) location = some entry := by
      intro location entry hentry
      rw [h.entry?_eq] at hentry
      split at hentry
      · cases hentry
      · next hoff =>
        rw [entry?_eraseBelow, if_neg fun hbelow => hoff (isBelow_iff.1 hbelow).1, hentry]
    obtain ⟨entry, hentry, hkind⟩ := (Option.any_eq_true _ _).1 hbreak.isDirectory
    have hmissing := hbreak.missing
    rw [h.entry?_eq, if_neg hother] at hmissing
    have hemptied : BreaksOff (disk.eraseBelow (directory ++ [last])) (startOf here path)
        path.components front' directory' name (between ++ [last']) :=
      ⟨hbreak.names_eq, hbreak.up_notMem, followFrom_mono hmore hbreak.leads,
        by rw [hmore _ _ hentry]; exact hkind,
        by rw [entry?_eraseBelow, if_neg fun hbelow => hother (isBelow_iff.1 hbelow).1, hmissing]⟩
    exact hemptied.not_leads between (hfront ▸ h.leads)

/-- The location that the path is seen from is still there, if the path does not start with a step
up from where it was. -/
theorem Removal.isDirectory_startOf (h : Removal disk here path front last directory removed)
    (hstart : (disk.entry? (startOf here path)).any Entry.isDirectory = true)
    (hpresent : UpFromPresent removed (startOf here path) path.components) :
    (removed.entry? (startOf here path)).any Entry.isDirectory = true := by
  suffices hkept : ¬directory ++ [last] <+: startOf here path by rwa [h.entry?_eq, if_neg hkept]
  intro hstarts
  have hlength := hstarts.length_le
  rw [List.length_append, List.length_singleton] at hlength
  -- were the start in what is gone, the names before the last one would lead out of it: up from the
  -- start, or down through places that are gone once the directory is emptied
  have hleads := h.leads
  cases front with
  | nil =>
    obtain rfl : startOf here path = directory := Except.ok.inj hleads
    omega
  | cons first rest =>
    by_cases hup : first = ".."
    · have hnames : path.components = [] ++ ".." :: (rest ++ [last]) := by
        rw [h.components_eq, hup]
        rfl
      obtain ⟨place, hplace, hthere⟩ := hpresent [] _ hnames
      obtain rfl : startOf here path = place := Except.ok.inj hplace
      rw [h.entry?_eq, if_pos hstarts] at hthere
      cases hthere
    · have hgone : Disk.entry? (disk.eraseBelow (directory ++ [last]))
          (startOf here path ++ [first]) = none := by
        rw [entry?_eraseBelow, if_pos]
        refine isBelow_iff.2 ⟨hstarts.trans (List.prefix_append _ _), fun heq => ?_⟩
        have hsame := congrArg List.length heq
        simp only [List.length_append, List.length_singleton] at hsame
        omega
      obtain ⟨fault, herror⟩ := exists_error_of_missing rest hup hgone
      cases hleads.symm.trans (herror _)

end Removal

end PreviewInstaller.Disk

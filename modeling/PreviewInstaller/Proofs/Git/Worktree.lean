import PreviewInstaller.Proofs.Disk.Tree

set_option autoImplicit false

/-! # Work trees

The files of a commit are placed below a directory one after another. Where nothing was below it,
the commit's files and the directories on the way to them are all that is there after that, beside
the repository's own data. -/

namespace PreviewInstaller

namespace Disk

variable {disk : Disk} {location other : Location} {entry : Entry}

/-! ## Placing an entry -/

theorem mem_ancestors_iff : other ∈ ancestors location ↔ isBelow other location = true := by
  rw [isBelow_iff]
  cases location with
  | nil => simp [ancestors]
  | cons name rest =>
    simp only [ancestors, List.mem_map, List.mem_range]
    constructor
    · rintro ⟨count, hcount, rfl⟩
      refine ⟨List.take_prefix _ _, fun heq => ?_⟩
      have hlength := congrArg List.length heq
      rw [List.length_take] at hlength
      omega
    · rintro ⟨hstarts, hne⟩
      refine ⟨other.length, ?_, (List.prefix_iff_eq_take.1 hstarts).symm⟩
      have hle := hstarts.length_le
      have hlength : other.length ≠ (name :: rest).length := fun heq =>
        hne (hstarts.eq_of_length heq)
      omega

theorem entry?_ensureDirectory (disk : Disk) (location other : Location) :
    Disk.entry? (disk.ensureDirectory location) other =
      if other = location ∧ disk.entry? other = none then some .directory
      else disk.entry? other := by
  unfold ensureDirectory
  split
  · next hthere =>
    refine (if_neg ?_).symm
    rintro ⟨rfl, hnone⟩
    rw [hnone] at hthere
    cases hthere
  · next hmissing =>
    by_cases hother : other = location
    · subst hother
      have hroot : other ≠ [] := by
        rintro rfl
        exact hmissing rfl
      rw [entry?_insert_self hroot, if_pos ⟨rfl, by simpa using hmissing⟩]
    · rw [entry?_insert_of_ne hother, if_neg fun h => hother h.1]

theorem entry?_foldl_ensureDirectory (places : List Location) (disk : Disk) :
    Disk.entry? (places.foldl ensureDirectory disk) other =
      if other ∈ places ∧ disk.entry? other = none then some .directory
      else disk.entry? other := by
  induction places generalizing disk with
  | nil => simp
  | cons place places ih =>
    rw [List.foldl_cons, ih, entry?_ensureDirectory]
    by_cases hplace : other = place <;> cases hnone : disk.entry? other <;> simp [hplace]

/-- An entry stands in its place, and missing directories on the way to it are made. -/
theorem entry?_place (h : location ≠ []) :
    Disk.entry? (disk.place location entry) other =
      if other = location then some entry
      else if isBelow other location = true ∧ disk.entry? other = none then some .directory
      else disk.entry? other := by
  unfold place
  split
  · next heq => rw [heq, entry?_insert_self h]
  · next hne =>
    rw [entry?_insert_of_ne hne, entry?_foldl_ensureDirectory]
    simp only [mem_ancestors_iff]

end Disk

namespace Git

variable {disk : Disk} {location other : Location} {commit done : Snapshot} {names : List String}

/-! ## Commits -/

/-- What a leaf of a commit is when it is checked out. -/
def Leaf.entry : Leaf → Entry
  | .file found => .file { found with mode := File.plainMode found.isRunnable }
  | .link target => .link target

/-- What stands at the end of names where a commit is checked out. -/
def checkedOut? (commit : Snapshot) (names : List String) : Option Entry :=
  match commit.lookup names with
  | some leaf => some leaf.entry
  | none =>
    if commit.any fun (inner, _) => Disk.isBelow names inner then some .directory else none

/-- Whether names lead from a work tree to something that is not the repository's own data. -/
def InTree (names : List String) : Prop :=
  names ≠ [] ∧ names.head? ≠ some ".git"

instance (names : List String) : Decidable (InTree names) :=
  inferInstanceAs (Decidable (_ ∧ _))

/-- What every commit is like: it has one leaf of a name, and none in the place of the repository's
own data. -/
structure IsCommit (commit : Snapshot) : Prop where
  nodup : (commit.map Prod.fst).Nodup
  inTree : ∀ leaf ∈ commit, InTree leaf.1

instance (commit : Snapshot) : Decidable (IsCommit commit) :=
  decidable_of_iff ((commit.map Prod.fst).Nodup ∧ ∀ leaf ∈ commit, InTree leaf.1)
    ⟨fun h => ⟨h.1, h.2⟩, fun h => ⟨h.nodup, h.inTree⟩⟩

/-- What stands below a location is what is there where a commit is checked out. -/
def HoldsExactly (disk : Disk) (location : Location) (commit : Snapshot) : Prop :=
  ∀ names, InTree names → disk.entry? (location ++ names) = checkedOut? commit names

/-- What another leaf changes in a commit: its own names lead to it, and those on the way to it lead
to a directory if they led nowhere. -/
theorem checkedOut?_append_singleton {leaf : Leaf} (hnew : names ∉ done.map Prod.fst)
    (inner : List String) :
    checkedOut? (done ++ [(names, leaf)]) inner =
      if inner = names then some leaf.entry
      else if Disk.isBelow inner names = true ∧ checkedOut? done inner = none then some .directory
      else checkedOut? done inner := by
  unfold checkedOut?
  rw [List.lookup_append, List.lookup_cons, List.lookup_nil, List.any_append]
  by_cases hinner : inner = names
  · have hnone : done.lookup names = none := by
      rw [List.lookup_eq_none_iff]
      intro leaf hleaf
      rw [bne_iff_ne]
      rintro rfl
      exact hnew (List.mem_map_of_mem hleaf)
    rw [hinner, hnone]
    simp
  · have hne : (inner == names) = false := by simpa using hinner
    cases hlookup : done.lookup inner with
    | some found => simp [hinner]
    | none =>
      cases hbelow : Disk.isBelow inner names <;>
        cases hdone : done.any fun leaf => Disk.isBelow inner leaf.1 <;>
          simp [hinner, hne, hbelow]

theorem placeSnapshot_cons (disk : Disk) (location : Location) (leaf : List String × Leaf)
    (rest : Snapshot) : disk.placeSnapshot location (leaf :: rest) =
      (disk.place (location ++ leaf.1) leaf.2.entry).placeSnapshot location rest := by
  obtain ⟨names, leaf⟩ := leaf
  cases leaf <;> rfl

/-- Placing another leaf of a commit. -/
theorem HoldsExactly.place {leaf : Leaf} (h : HoldsExactly disk location done)
    (hnew : names ∉ done.map Prod.fst) (hne : names ≠ []) :
    HoldsExactly (disk.place (location ++ names) leaf.entry) location
      (done ++ [(names, leaf)]) := by
  intro inner hinner
  rw [checkedOut?_append_singleton hnew,
    Disk.entry?_place (List.append_ne_nil_of_right_ne_nil _ hne), h inner hinner]
  have hbelow : Disk.isBelow (location ++ inner) (location ++ names) =
      Disk.isBelow inner names := by
    rw [Bool.eq_iff_iff, Disk.isBelow_iff, Disk.isBelow_iff]
    simp [List.prefix_append_right_inj]
  simp only [List.append_cancel_left_eq, hbelow]

/-- The rest of a commit is placed where a part of it is. -/
theorem HoldsExactly.placeSnapshot (h : HoldsExactly disk location done)
    (hcommit : IsCommit (done ++ commit)) :
    HoldsExactly (disk.placeSnapshot location commit) location (done ++ commit) := by
  -- each leaf that is placed moves from the rest of the commit to what is done
  induction commit generalizing disk done with
  | nil => rwa [List.append_nil]
  | cons leaf rest ih =>
    obtain ⟨names, leaf⟩ := leaf
    have hnew : names ∉ done.map Prod.fst := by
      have hnodup := hcommit.nodup
      rw [List.map_append, List.nodup_append] at hnodup
      exact fun hmem => hnodup.2.2 _ hmem names (by simp) rfl
    rw [List.append_cons] at hcommit ⊢
    rw [placeSnapshot_cons]
    exact ih (h.place hnew (hcommit.inTree _ (by simp)).1) hcommit

/-- A commit is checked out where nothing was. -/
theorem holdsExactly_placeSnapshot (hcommit : IsCommit commit)
    (hempty : ∀ names, InTree names → disk.entry? (location ++ names) = none) :
    HoldsExactly (disk.placeSnapshot location commit) location commit := by
  have hnothing : HoldsExactly disk location [] := hempty
  exact hnothing.placeSnapshot hcommit

section Outside

variable (hother : ∀ names, InTree names → other ≠ location ++ names)
include hother

/-- Nothing outside of the work tree changes when an entry is placed in it. -/
theorem entry?_place_of_ne {entry : Entry} (hnames : InTree names)
    (hway : ∀ outer, outer <+: location → (disk.entry? outer).isSome = true) :
    Disk.entry? (disk.place (location ++ names) entry) other = disk.entry? other := by
  rw [Disk.entry?_place (List.append_ne_nil_of_right_ne_nil _ hnames.1),
    if_neg (hother names hnames), if_neg]
  rintro ⟨hbelow, hnone⟩
  have hpresent : ¬other <+: location := by
    intro hstarts
    have hthere := hway other hstarts
    rw [hnone] at hthere
    cases hthere
  obtain ⟨hstarts, -⟩ := Disk.isBelow_iff.1 hbelow
  -- what is on the way is above the work tree, where nothing is missing, or in it
  rcases Disk.prefix_append_cases hstarts with habove | ⟨inner, ⟨behind, rfl⟩, rfl⟩
  · exact hpresent habove
  · cases inner with
    | nil =>
      rw [List.append_nil] at hpresent
      exact hpresent (List.prefix_refl _)
    | cons name inner => exact hother (name :: inner) ⟨List.cons_ne_nil _ _, hnames.2⟩ rfl

/-- Nothing outside of the work tree changes when a commit is checked out. -/
theorem entry?_placeSnapshot_of_ne (hcommit : ∀ leaf ∈ commit, InTree leaf.1)
    (hway : ∀ outer, outer <+: location → (disk.entry? outer).isSome = true) :
    Disk.entry? (disk.placeSnapshot location commit) other = disk.entry? other := by
  induction commit generalizing disk with
  | nil => rfl
  | cons leaf rest ih =>
    have hleaf := hcommit leaf List.mem_cons_self
    rw [placeSnapshot_cons, ih fun leaf hmem => hcommit leaf (List.mem_cons_of_mem _ hmem)]
    · exact entry?_place_of_ne hother hleaf hway
    · intro outer houter
      rw [Disk.entry?_place (List.append_ne_nil_of_right_ne_nil _ hleaf.1)]
      split
      · rfl
      split
      · rfl
      · exact hway outer houter

end Outside

end Git

end PreviewInstaller

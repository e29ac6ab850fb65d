import PreviewInstaller.Proofs.Disk.Removal

set_option autoImplicit false

/-! # Places of paths

A path has a place even if nothing is there: where it ends, or would end if the directories that are
missing on its way were made. There is only one place of a path. -/

namespace PreviewInstaller.Disk

variable {disk removed : Disk} {here location other : Location} {path : Path}

/-- The place of a path. -/
inductive Place (disk : Disk) (here : Location) (path : Path) : Location → Prop where
  /-- Something stands at the end of the path. -/
  | found {location : Location} {entry : Entry} :
      disk.stat here path = .ok (location, entry) → Place disk here path location
  /-- The names of the path break off, and those that are missing lead straight down. -/
  | missing {front : List String} {directory : Location} {name : String} {rest : List String} :
      BreaksOff disk (startOf here path) path.components front directory name rest →
      Place disk here path (directory ++ name :: rest)

/-- The names of a path do not break off if something stands at its end. -/
theorem not_breaksOff_of_stat {entry : Entry} {front rest : List String} {directory : Location}
    {name : String} (h : disk.stat here path = .ok (location, entry)) :
    ¬BreaksOff disk (startOf here path) path.components front directory name rest := by
  intro hbreak
  have hcomponents := hbreak.names_eq
  obtain ⟨hplace, hentry⟩ := stat_eq_ok_iff.1 h
  split at hplace
  · obtain ⟨-, -, hnames, -⟩ := follow_eq_ok_iff.1 hplace
    rw [hcomponents] at hnames
    exact hbreak.not_leads rest hnames
  · rcases locate_eq_ok hplace with
      ⟨hnil, -⟩ | ⟨names, last, reached, hnames, hleads, -, hlocation⟩
    · rw [hnil] at hcomponents
      simp at hcomponents
    · rcases List.eq_nil_or_concat rest with rfl | ⟨between, last', rfl⟩
      · obtain ⟨rfl, hlast⟩ := List.append_inj' (hnames.symm.trans hcomponents) rfl
        obtain rfl := List.singleton_inj.1 hlast
        cases hbreak.leads.symm.trans hleads
        have hup : last ≠ ".." := fun hup => hbreak.up_notMem (hup ▸ List.mem_cons_self)
        rw [if_neg hup] at hlocation
        rw [hlocation, hbreak.missing] at hentry
        cases hentry
      · rw [List.concat_eq_append] at hcomponents
        have hsplit : names ++ [last] = (front ++ name :: between) ++ [last'] := by
          rw [← hnames, hcomponents, List.append_assoc, List.cons_append]
        obtain ⟨rfl, -⟩ := List.append_inj' hsplit rfl
        exact hbreak.not_leads between hleads

/-- Names break off at one place only. -/
theorem BreaksOff.eq {start : Location} {names front front' rest rest' : List String}
    {directory directory' : Location} {name name' : String}
    (h : BreaksOff disk start names front directory name rest)
    (h' : BreaksOff disk start names front' directory' name' rest') :
    directory ++ name :: rest = directory' ++ name' :: rest' := by
  have hnames := h.names_eq.symm.trans h'.names_eq
  rcases List.append_eq_append_iff.1 hnames with
    ⟨between, rfl, hrest⟩ | ⟨between, rfl, hrest⟩
  · cases between with
    | nil =>
      rw [List.append_nil] at h'
      cases h.leads.symm.trans h'.leads
      rw [hrest, List.nil_append]
    | cons first between =>
      obtain ⟨rfl, -⟩ := List.cons.inj hrest
      exact absurd h'.leads (h.not_leads between)
  · cases between with
    | nil =>
      rw [List.append_nil] at h
      cases h.leads.symm.trans h'.leads
      rw [hrest, List.nil_append]
    | cons first between =>
      obtain ⟨rfl, -⟩ := List.cons.inj hrest
      exact absurd h.leads (h'.not_leads between)

/-- A path has one place. -/
theorem Place.eq (h : Place disk here path location) (h' : Place disk here path other) :
    location = other := by
  cases h with
  | found hstat =>
    cases h' with
    | found hstat' => exact congrArg Prod.fst (Except.ok.inj (hstat.symm.trans hstat'))
    | missing hbreak => exact absurd hbreak (not_breaksOff_of_stat hstat)
  | missing hbreak =>
    cases h' with
    | found hstat => exact absurd hbreak (not_breaksOff_of_stat hstat)
    | missing hbreak' => exact hbreak.eq hbreak'

/-- Something stands at the end of a path that leads somewhere. -/
theorem exists_stat_of_follow (h : disk.follow here path = .ok location) :
    ∃ place entry, disk.stat here path = .ok (place, entry) := by
  obtain ⟨-, -, hnames, entry, hentry, -⟩ := follow_eq_ok_iff.1 h
  by_cases hdirectory : namesDirectory path = true
  · exact ⟨location, entry, stat_followed hdirectory h hentry⟩
  rcases List.eq_nil_or_concat path.components with hnil | ⟨front, last, hconcat⟩
  · rw [hnil] at hnames
    exact ⟨location, entry, stat_located hdirectory (locate_nil hnil hnames) hentry⟩
  · rw [List.concat_eq_append] at hconcat
    rw [hconcat] at hnames
    obtain ⟨directory, hleads, hkind, hlast⟩ := leadsOn_of_followFrom hnames
    have hlocate := locate_directory hconcat hleads hkind
    rcases hlast with ⟨hup, rfl⟩ | ⟨hup, found, hfound, -⟩
    · rw [if_pos hup] at hlocate
      exact ⟨_, entry, stat_located hdirectory hlocate hentry⟩
    · rw [if_neg hup] at hlocate
      exact ⟨_, found, stat_located hdirectory hlocate hfound⟩

/-- What is removed is in the place of the path. -/
theorem Removal.place {front : List String} {last : String} {directory : Location}
    (h : Removal disk here path front last directory removed) :
    Place disk here path (directory ++ [last]) := by
  obtain ⟨entry, hstat⟩ := h.found
  exact .found hstat

end PreviewInstaller.Disk

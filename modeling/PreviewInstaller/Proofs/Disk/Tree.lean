import PreviewInstaller.Disk.Tree

set_option autoImplicit false

/-! # Laws of file trees

What a disk says of each location after a change, and where paths lead: a disk with more on it leads
further, and where a path leads is up to nothing but what the disk says of the locations. -/

namespace PreviewInstaller.Disk

variable {disk : Disk} {location other : Location} {entry : Entry}

/-! ## Entries -/

theorem isBelow_iff {outer inner : Location} :
    isBelow outer inner = true ↔ outer <+: inner ∧ outer ≠ inner := by
  simp [isBelow]

/-- What names start with is a start of those in front, or reaches into those behind. -/
theorem prefix_append_cases {names front back : List String} (h : names <+: front ++ back) :
    names <+: front ∨ ∃ inner, inner <+: back ∧ names = front ++ inner := by
  rcases List.prefix_or_prefix_of_prefix h (List.prefix_append front back) with
    hfront | ⟨inner, rfl⟩
  · exact .inl hfront
  · exact .inr ⟨inner, (List.prefix_append_right_inj front).1 h, rfl⟩

theorem isBelow_nil (location : Location) : isBelow location [] = false := by
  cases location <;> rfl

theorem entry?_eq_lookup (disk : Disk) (h : location ≠ []) :
    disk.entry? location = disk.entries.lookup location := by
  cases location with
  | nil => exact absurd rfl h
  | cons name rest => rfl

theorem lookup_filter (keep : Location → Bool) (entries : List (Location × Entry)) :
    (entries.filter fun entry => keep entry.1).lookup location =
      if keep location then entries.lookup location else none := by
  induction entries with
  | nil => simp
  | cons first rest ih =>
    obtain ⟨place, entry⟩ := first
    by_cases hplace : location = place
    · subst hplace
      cases hkeep : keep location <;> simp [hkeep, ih]
    · have hne : (location == place) = false := by simpa using hplace
      cases hkeep : keep place <;> simp [hkeep, List.lookup_cons, hne, ih]

theorem entry?_insert_self (h : location ≠ []) :
    Disk.entry? (disk.insert location entry) location = some entry := by
  rw [entry?_eq_lookup _ h]
  exact List.lookup_cons_self

theorem entry?_insert_of_ne (h : other ≠ location) :
    Disk.entry? (disk.insert location entry) other = disk.entry? other := by
  by_cases hroot : other = []
  · rw [hroot]
    rfl
  · rw [entry?_eq_lookup _ hroot, entry?_eq_lookup _ hroot, insert, List.lookup_cons]
    have hne : (other == location) = false := by simpa using h
    rw [hne, lookup_filter fun place => place ≠ location]
    simp [h]

theorem entry?_erase_self (h : location ≠ []) :
    Disk.entry? (disk.erase location) location = none := by
  rw [entry?_eq_lookup _ h, erase, lookup_filter fun place => place ≠ location]
  simp

theorem entry?_erase_of_ne (h : other ≠ location) :
    Disk.entry? (disk.erase location) other = disk.entry? other := by
  by_cases hroot : other = []
  · rw [hroot]
    rfl
  · rw [entry?_eq_lookup _ hroot, entry?_eq_lookup _ hroot, erase,
      lookup_filter fun place => place ≠ location]
    simp [h]

theorem entry?_eraseBelow : Disk.entry? (disk.eraseBelow location) other =
    if isBelow location other then none else disk.entry? other := by
  by_cases hroot : other = []
  · rw [hroot, isBelow_nil]
    rfl
  · rw [entry?_eq_lookup _ hroot, entry?_eq_lookup _ hroot, eraseBelow,
      lookup_filter fun place => !isBelow location place]
    cases isBelow location other <;> rfl

/-- Without a directory and what lies in it. -/
theorem entry?_erase_eraseBelow (h : location ≠ []) :
    Disk.entry? ((disk.eraseBelow location).erase location) other =
      if location <+: other then none else disk.entry? other := by
  by_cases hsame : other = location
  · rw [hsame, entry?_erase_self h, if_pos (List.prefix_refl _)]
  · rw [entry?_erase_of_ne hsame, entry?_eraseBelow]
    simp only [isBelow_iff, Ne.symm hsame, ne_eq, not_false_eq_true, and_true]

/-- A place is empty if no location below it has an entry. -/
theorem isEmptyAt_iff : disk.isEmptyAt location = true ↔
    ∀ inner, isBelow location inner = true → disk.entry? inner = none := by
  rw [isEmptyAt, Bool.not_eq_true', List.any_eq_false]
  constructor
  · intro h inner hbelow
    have hroot : inner ≠ [] := by
      rintro rfl
      cases (isBelow_nil location).symm.trans hbelow
    rw [entry?_eq_lookup _ hroot, List.lookup_eq_none_iff]
    intro entry hentry
    rw [bne_iff_ne]
    rintro rfl
    exact h entry hentry hbelow
  · rintro h ⟨place, entry⟩ hentry hbelow
    have hnone := h place hbelow
    have hroot : place ≠ [] := by
      rintro rfl
      cases (isBelow_nil location).symm.trans hbelow
    rw [entry?_eq_lookup _ hroot, List.lookup_eq_none_iff] at hnone
    exact absurd rfl (bne_iff_ne.1 (hnone _ hentry))

theorem ensureDirectory_of_missing (h : disk.entry? location = none) :
    disk.ensureDirectory location = disk.insert location .directory := by
  simp [ensureDirectory, h]

/-- Everything that stands on the disk stands in a directory. -/
def IsTree (disk : Disk) : Prop :=
  ∀ location name, (disk.entry? (location ++ [name])).isSome = true →
    (disk.entry? location).any Entry.isDirectory = true

/-- Nothing stands below a place where nothing stands. -/
theorem IsTree.entry?_eq_none (h : disk.IsTree) (hstarts : location <+: other)
    (hnone : disk.entry? location = none) : disk.entry? other = none := by
  obtain ⟨names, rfl⟩ := hstarts
  induction names generalizing location with
  | nil => rwa [List.append_nil]
  | cons name names ih =>
    rw [List.append_cons]
    refine ih ?_
    cases hentry : disk.entry? (location ++ [name]) with
    | none => rfl
    | some entry =>
      have hdirectory := h location name (by rw [hentry]; rfl)
      rw [hnone] at hdirectory
      cases hdirectory

/-! ## Following paths -/

section Descend

variable {onLink onLink' : Location → String → List String → Except DiskFault Location}
  {here there : Location} {names : List String}

/-- A step into a directory, up or down. -/
theorem descend_cons (name : String) (rest : List String)
    (h : (disk.entry? here).any Entry.isDirectory = true) :
    disk.descend onLink here (name :: rest) =
      if name = ".." then disk.descend onLink here.dropLast rest
      else
        match disk.entry? (here ++ [name]) with
        | none => .error .noSuchFile
        | some (.link target) => onLink here target rest
        | some _ => disk.descend onLink (here ++ [name]) rest := by
  obtain ⟨entry, hentry, hdirectory⟩ := Option.any_eq_true _ _ |>.1 h
  have hleads : ¬(!entry.isDirectory) = true := by simp [hdirectory]
  rw [descend, hentry]
  exact if_neg hleads

/-- Only directories are left for another place. -/
theorem isDirectory_of_descend {name : String} {rest : List String}
    (h : disk.descend onLink here (name :: rest) = .ok there) :
    (disk.entry? here).any Entry.isDirectory = true := by
  rw [descend] at h
  cases hentry : disk.entry? here with
  | none =>
    rw [hentry] at h
    cases h
  | some entry =>
    rw [hentry] at h
    cases hdirectory : entry.isDirectory with
    | true => exact hdirectory
    | false => simp [hdirectory] at h

/-- A disk with more on it leads as far, where links are followed as far. -/
theorem descend_mono {more : Disk}
    (hmore : ∀ location entry, disk.entry? location = some entry →
      more.entry? location = some entry)
    (hlink : ∀ here target rest there, onLink here target rest = .ok there →
      onLink' here target rest = .ok there)
    (h : disk.descend onLink here names = .ok there) :
    more.descend onLink' here names = .ok there := by
  induction names generalizing here with
  | nil => exact h
  | cons name rest ih =>
    have hdirectory := isDirectory_of_descend h
    rw [descend_cons name rest hdirectory] at h
    have hmoreDirectory : (more.entry? here).any Entry.isDirectory = true := by
      obtain ⟨entry, hentry, hentryDirectory⟩ := Option.any_eq_true _ _ |>.1 hdirectory
      rw [hmore _ _ hentry]
      exact hentryDirectory
    rw [descend_cons name rest hmoreDirectory]
    split
    · next hup =>
      rw [if_pos hup] at h
      exact ih h
    · next hup =>
      rw [if_neg hup] at h
      cases hentry : disk.entry? (here ++ [name]) with
      | none =>
        rw [hentry] at h
        cases h
      | some entry =>
        rw [hentry] at h
        rw [hmore _ _ hentry]
        cases entry with
        | link target => exact hlink _ _ _ _ h
        | directory => exact ih h
        | file file => exact ih h
        | repository repository => exact ih h

/-- Names behind others are followed from where those lead to. -/
theorem descend_append {rest : List String} {result : Except DiskFault Location}
    (hlink : ∀ here target names, onLink here target names = .ok there →
      onLink' here target (names ++ rest) = result)
    (hrest : disk.descend onLink' there rest = result)
    (h : disk.descend onLink here names = .ok there) :
    disk.descend onLink' here (names ++ rest) = result := by
  induction names generalizing here with
  | nil =>
    cases h
    exact hrest
  | cons name names ih =>
    have hdirectory := isDirectory_of_descend h
    rw [descend_cons name names hdirectory] at h
    rw [List.cons_append, descend_cons name _ hdirectory]
    split
    · next hup =>
      rw [if_pos hup] at h
      exact ih h
    · next hup =>
      rw [if_neg hup] at h
      cases hentry : disk.entry? (here ++ [name]) with
      | none =>
        rw [hentry] at h
        cases h
      | some entry =>
        rw [hentry] at h
        cases entry with
        | link target => exact hlink _ _ _ h
        | directory => exact ih h
        | file file => exact ih h
        | repository repository => exact ih h

/-- The last name of a path leads on from a directory: up, to what stands there, or through a
link. -/
def LeadsOn (disk : Disk) (directory : Location) (last : String) (there : Location) : Prop :=
  (disk.entry? directory).any Entry.isDirectory = true ∧
    ((last = ".." ∧ there = directory.dropLast) ∨
      (last ≠ ".." ∧ ∃ entry, disk.entry? (directory ++ [last]) = some entry ∧
        ((∀ target, entry ≠ .link target) → there = directory ++ [last])))

theorem leadsOn_of_descend {last : String}
    (hlink : ∀ here target names, onLink here target (names ++ [last]) = .ok there →
      ∃ directory, onLink' here target names = .ok directory ∧
        disk.LeadsOn directory last there)
    (h : disk.descend onLink here (names ++ [last]) = .ok there) :
    ∃ directory, disk.descend onLink' here names = .ok directory ∧
      disk.LeadsOn directory last there := by
  induction names generalizing here with
  | nil =>
    have hdirectory := isDirectory_of_descend h
    refine ⟨here, rfl, hdirectory, ?_⟩
    rw [List.nil_append, descend_cons last [] hdirectory] at h
    by_cases hup : last = ".."
    · rw [if_pos hup] at h
      cases h
      exact .inl ⟨hup, rfl⟩
    · rw [if_neg hup] at h
      refine .inr ⟨hup, ?_⟩
      cases hentry : disk.entry? (here ++ [last]) with
      | none =>
        rw [hentry] at h
        cases h
      | some entry =>
        refine ⟨entry, rfl, fun hnot => ?_⟩
        rw [hentry] at h
        cases entry with
        | link target => exact absurd rfl (hnot target)
        | directory => exact (Except.ok.inj h).symm
        | file file => exact (Except.ok.inj h).symm
        | repository repository => exact (Except.ok.inj h).symm
  | cons name names ih =>
    have hdirectory := isDirectory_of_descend h
    rw [List.cons_append, descend_cons name _ hdirectory] at h
    rw [descend_cons name names hdirectory]
    by_cases hup : name = ".."
    · rw [if_pos hup] at h ⊢
      exact ih h
    · rw [if_neg hup] at h ⊢
      cases hentry : disk.entry? (here ++ [name]) with
      | none =>
        rw [hentry] at h
        cases h
      | some entry =>
        rw [hentry] at h
        cases entry with
        | link target => exact hlink _ _ _ h
        | directory => exact ih h
        | file file => exact ih h
        | repository repository => exact ih h

end Descend

section Follow

variable {links : Nat} {here there : Location} {names : List String}

/-- A disk with more on it leads as far. -/
theorem followFrom_mono {more : Disk}
    (hmore : ∀ location entry, disk.entry? location = some entry →
      more.entry? location = some entry)
    (h : disk.followFrom links here names = .ok there) :
    more.followFrom links here names = .ok there := by
  induction links generalizing here there names with
  | zero => exact descend_mono hmore (fun _ _ _ _ hlink => by cases hlink) h
  | succ links ih => exact descend_mono hmore (fun _ _ _ _ hlink => ih hlink) h

/-- Names behind others are followed from where those lead to, if they lead through no link. -/
theorem followFrom_append {rest : List String} {result : Except DiskFault Location}
    (hrest : ∀ onLink, disk.descend onLink there rest = result)
    (h : disk.followFrom links here names = .ok there) :
    disk.followFrom links here (names ++ rest) = result := by
  induction links generalizing here names with
  | zero => exact descend_append (fun _ _ _ hlink => by cases hlink) (hrest _) h
  | succ links ih =>
    refine descend_append (fun _ _ _ hlink => ?_) (hrest _) h
    rw [← List.append_assoc]
    exact ih hlink

theorem leadsOn_of_followFrom {last : String}
    (h : disk.followFrom links here (names ++ [last]) = .ok there) :
    ∃ directory, disk.followFrom links here names = .ok directory ∧
      disk.LeadsOn directory last there := by
  induction links generalizing here names with
  | zero => exact leadsOn_of_descend (fun _ _ _ hlink => by cases hlink) h
  | succ links ih =>
    refine leadsOn_of_descend (fun _ _ _ hlink => ?_) h
    rw [← List.append_assoc] at hlink
    exact ih hlink

end Follow

/-! ## Paths -/

section Paths

variable {here directory : Location} {path : Path} {names : List String} {last : String}
  {fault : DiskFault}

/-- The location that a path is seen from. -/
def startOf (here : Location) (path : Path) : Location :=
  if path.isAbsolute then [] else here

theorem follow_directory (hempty : path.text ≠ "") (hnul : path.hasNul = false)
    (h : disk.followFrom linkLimit (startOf here path) path.components = .ok location)
    (hdirectory : (disk.entry? location).any Entry.isDirectory = true) :
    disk.follow here path = .ok location := by
  obtain ⟨entry, hentry, hisDirectory⟩ := (Option.any_eq_true _ _).1 hdirectory
  rw [startOf] at h
  unfold follow
  simp only [hempty, hnul, h, hentry, hisDirectory, bind, Except.bind, pure, Except.pure, if_false,
    Bool.not_true, Bool.and_false, Bool.false_eq_true]

theorem follow_error (hempty : path.text ≠ "") (hnul : path.hasNul = false)
    (h : disk.followFrom linkLimit (startOf here path) path.components = .error fault) :
    disk.follow here path = .error fault := by
  rw [startOf] at h
  unfold follow
  simp only [hempty, hnul, h, if_false, Bool.false_eq_true]
  rfl

/-- The place of the last name of a path lies in the directory that the others lead to. -/
theorem locate_directory (hpath : path.components = names ++ [last])
    (h : disk.followFrom linkLimit (startOf here path) names = .ok directory)
    (hdirectory : (disk.entry? directory).any Entry.isDirectory = true) :
    disk.locate here path =
      .ok (if last = ".." then directory.dropLast else directory ++ [last]) := by
  obtain ⟨entry, hentry, hisDirectory⟩ := (Option.any_eq_true _ _).1 hdirectory
  rw [startOf] at h
  unfold locate
  simp only [hpath, List.dropLast_concat, List.getLast?_concat, h, hentry, hisDirectory, bind,
    Except.bind, pure, Except.pure, Bool.not_true, Bool.false_eq_true, if_false]

/-- A path without names stands for the location that it is seen from. -/
theorem locate_nil (hpath : path.components = [])
    (h : disk.followFrom linkLimit (startOf here path) [] = .ok directory) :
    disk.locate here path = .ok directory := by
  rw [startOf] at h
  unfold locate
  simp only [hpath, List.dropLast_nil, List.getLast?_nil, h]
  rfl

theorem locate_error (hpath : path.components = names ++ [last])
    (h : disk.followFrom linkLimit (startOf here path) names = .error fault) :
    disk.locate here path = .error fault := by
  rw [startOf] at h
  unfold locate
  simp only [hpath, List.dropLast_concat, h]
  rfl

theorem stat_followed (hnames : namesDirectory path = true)
    (h : disk.follow here path = .ok location) (hentry : disk.entry? location = some entry) :
    disk.stat here path = .ok (location, entry) := by
  simp only [stat, if_pos hnames, h, hentry, bind, Except.bind, pure, Except.pure]

theorem stat_located (hnames : ¬namesDirectory path = true)
    (h : disk.locate here path = .ok location) (hentry : disk.entry? location = some entry) :
    disk.stat here path = .ok (location, entry) := by
  simp only [stat, if_neg hnames, h, hentry, bind, Except.bind, pure, Except.pure]

theorem stat_missing (hfollow : disk.follow here path = .error .noSuchFile)
    (hlocate : disk.locate here path = .error .noSuchFile ∨
      ∃ location, disk.locate here path = .ok location ∧ disk.entry? location = none) :
    disk.stat here path = .error .noSuchFile := by
  unfold stat
  split
  · rw [hfollow]
    rfl
  · rcases hlocate with hlocate | ⟨location, hlocate, hnone⟩
    · rw [hlocate]
      rfl
    · simp only [hlocate, hnone, bind, Except.bind, throw, throwThe, MonadExceptOf.throw]

/-- A directory with nothing below it is removed. -/
theorem removeEmpty_directory (hpath : path.components = names ++ [lastPiece path])
    (hup : lastPiece path ≠ "..")
    (h : disk.followFrom linkLimit (startOf here path) names = .ok directory)
    (hdirectory : (disk.entry? directory).any Entry.isDirectory = true)
    (hlast : (disk.entry? (directory ++ [lastPiece path])).any Entry.isDirectory = true) :
    disk.removeEmpty here path = .ok (disk.erase (directory ++ [lastPiece path])) := by
  have hname : lastPiece path ≠ "" ∧ lastPiece path ≠ "." := by
    have hmem : lastPiece path ∈ path.components := hpath ▸ List.mem_concat_self
    simpa using (List.mem_filter.1 hmem).2
  have hlocate := locate_directory hpath h hdirectory
  rw [if_neg hup] at hlocate
  obtain ⟨entry, hentry, hisDirectory⟩ := (Option.any_eq_true _ _).1 hlast
  rw [startOf] at h
  unfold removeEmpty
  simp only [hname.1, hname.2, hup, if_false]
  rw [hpath, List.dropLast_concat, h, hlocate]
  cases entry with
  | link target => cases hisDirectory
  | _ => simp only [hentry, bind, Except.bind, pure, Except.pure]

theorem removeTree_directory {removed : Disk}
    (h : disk.stat here path = .ok (location, entry)) (hdirectory : entry.isDirectory = true)
    (hremoved : (disk.eraseBelow location).removeEmpty here path = .ok removed) :
    disk.removeTree here path = (.ok (), removed) := by
  unfold removeTree
  rw [h]
  cases entry with
  | link target => cases hdirectory
  | _ => simp only [hremoved]

end Paths

/-! ## The same entries -/

section Same

variable {first second : Disk}

theorem descend_congr (h : first.entry? = second.entry?) :
    first.descend = second.descend := by
  funext onLink here names
  induction names generalizing here with
  | nil => rfl
  | cons name rest ih =>
    simp only [descend, h, ih]

theorem followFrom_congr (h : first.entry? = second.entry?) :
    first.followFrom = second.followFrom := by
  funext links
  induction links with
  | zero => rw [followFrom, followFrom, descend_congr h]
  | succ links ih => rw [followFrom, followFrom, descend_congr h, ih]

theorem follow_congr (h : first.entry? = second.entry?) : first.follow = second.follow := by
  unfold follow
  rw [followFrom_congr h, h]

theorem isDirectory_congr (h : first.entry? = second.entry?) :
    first.isDirectory = second.isDirectory := by
  unfold isDirectory
  rw [follow_congr h, h]

theorem locate_congr (h : first.entry? = second.entry?) : first.locate = second.locate := by
  unfold locate
  rw [followFrom_congr h, h]

theorem stepsUpSafely_congr (h : first.entry? = second.entry?) :
    first.stepsUpSafely = second.stepsUpSafely := by
  unfold stepsUpSafely
  rw [followFrom_congr h, h]

theorem stat_congr (h : first.entry? = second.entry?) : first.stat = second.stat := by
  unfold stat
  rw [follow_congr h, locate_congr h, h]

theorem isEmptyAt_congr (h : first.entry? = second.entry?) :
    first.isEmptyAt = second.isEmptyAt := by
  funext location
  rw [Bool.eq_iff_iff, isEmptyAt_iff, isEmptyAt_iff, h]

theorem entry?_insert_congr (h : first.entry? = second.entry?) (location : Location)
    (entry : Entry) :
    Disk.entry? (first.insert location entry) = Disk.entry? (second.insert location entry) := by
  funext other
  by_cases hother : other = location
  · subst hother
    cases other with
    | nil => rfl
    | cons name rest => rw [entry?_insert_self (by simp), entry?_insert_self (by simp)]
  · rw [entry?_insert_of_ne hother, entry?_insert_of_ne hother, h]

theorem entry?_erase_congr (h : first.entry? = second.entry?) (location : Location) :
    Disk.entry? (first.erase location) = Disk.entry? (second.erase location) := by
  funext other
  by_cases hother : other = location
  · subst hother
    cases other with
    | nil => rfl
    | cons name rest => rw [entry?_erase_self (by simp), entry?_erase_self (by simp)]
  · rw [entry?_erase_of_ne hother, entry?_erase_of_ne hother, h]

theorem entry?_eraseBelow_congr (h : first.entry? = second.entry?) (location : Location) :
    Disk.entry? (first.eraseBelow location) = Disk.entry? (second.eraseBelow location) := by
  funext other
  rw [entry?_eraseBelow, entry?_eraseBelow, h]

theorem entry?_ensureDirectory_congr (h : first.entry? = second.entry?) (location : Location) :
    Disk.entry? (first.ensureDirectory location) =
      Disk.entry? (second.ensureDirectory location) := by
  unfold ensureDirectory
  rw [h]
  split
  · exact h
  · exact entry?_insert_congr h _ _

theorem entry?_place_congr (h : first.entry? = second.entry?) (location : Location)
    (entry : Entry) :
    Disk.entry? (first.place location entry) = Disk.entry? (second.place location entry) := by
  refine entry?_insert_congr ?_ _ _
  induction ancestors location generalizing first second with
  | nil => exact h
  | cons place rest ih => exact ih (entry?_ensureDirectory_congr h place)

theorem entry?_placeSnapshot_congr (h : first.entry? = second.entry?) (location : Location)
    (snapshot : Git.Snapshot) :
    Disk.entry? (first.placeSnapshot location snapshot) =
      Disk.entry? (second.placeSnapshot location snapshot) := by
  unfold placeSnapshot
  induction snapshot generalizing first second with
  | nil => exact h
  | cons leaf rest ih => exact ih (entry?_place_congr h _ _)

end Same

end PreviewInstaller.Disk

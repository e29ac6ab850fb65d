import Mathlib.Data.List.Induction
import PreviewInstaller.Proofs.Disk.Tree

set_option autoImplicit false

/-! # Where paths lead

What follows from a path that leads somewhere: the places on its way are there, the place of its
last name is known, and a disk with more on it leads to the same place. -/

namespace PreviewInstaller.Disk

variable {disk more : Disk} {location other : Location} {entry : Entry}

/-! ## Trees -/

/-- The directory that a directory lies in is one. -/
theorem IsTree.isDirectory_dropLast (h : disk.IsTree)
    (hdirectory : (disk.entry? location).any Entry.isDirectory = true) :
    (disk.entry? location.dropLast).any Entry.isDirectory = true := by
  rcases List.eq_nil_or_concat location with rfl | ⟨outer, name, rfl⟩
  · exact hdirectory
  · rw [List.concat_eq_append] at hdirectory ⊢
    rw [List.dropLast_concat]
    obtain ⟨entry, hentry, -⟩ := (Option.any_eq_true _ _).1 hdirectory
    exact h outer name (by rw [hentry]; rfl)

/-- Only a directory has anything below it. -/
theorem IsTree.entry?_eq_none_of_isBelow (h : disk.IsTree)
    (hentry : disk.entry? location = some entry) (hfile : entry.isDirectory = false)
    (hbelow : isBelow location other = true) : disk.entry? other = none := by
  obtain ⟨⟨names, rfl⟩, hne⟩ := isBelow_iff.1 hbelow
  cases names with
  | nil => exact absurd (List.append_nil location).symm hne
  | cons name names =>
    have hstarts : location ++ [name] <+: location ++ name :: names := ⟨names, by simp⟩
    refine h.entry?_eq_none hstarts ?_
    cases hname : disk.entry? (location ++ [name]) with
    | none => rfl
    | some found =>
      have hdirectory := h location name (by rw [hname]; rfl)
      rw [hentry] at hdirectory
      exact absurd (hfile.symm.trans hdirectory) nofun

/-- A disk is a tree if each of its entries lies in a directory. -/
theorem isTree_of_entries
    (h : ∀ entry ∈ disk.entries, (disk.entry? entry.1.dropLast).any Entry.isDirectory = true) :
    disk.IsTree := by
  intro location name hthere
  rw [entry?_eq_lookup _ (by simp)] at hthere
  obtain ⟨entry, hentry⟩ := Option.isSome_iff_exists.1 hthere
  obtain ⟨before, after, hentries, -⟩ := List.lookup_eq_some_iff.1 hentry
  have hdirectory := h (location ++ [name], entry) (hentries ▸ by simp)
  rwa [List.dropLast_concat] at hdirectory

/-- A directory can be made in another one. -/
theorem IsTree.insert_directory {directory : Location} {name : String} (h : disk.IsTree)
    (hdirectory : (disk.entry? directory).any Entry.isDirectory = true) :
    IsTree (disk.insert (directory ++ [name]) .directory) := by
  have hself : Disk.entry? (disk.insert (directory ++ [name]) .directory) (directory ++ [name]) =
      some .directory := entry?_insert_self (by simp)
  intro location inner hthere
  by_cases hlocation : location = directory ++ [name]
  · rw [hlocation, hself]
    rfl
  rw [entry?_insert_of_ne hlocation]
  by_cases hinner : location ++ [inner] = directory ++ [name]
  · rwa [(List.append_inj' hinner rfl).1]
  · rw [entry?_insert_of_ne hinner] at hthere
    exact h location inner hthere

/-! ## The way of a path -/

section Way

variable {onLink : Location → String → List String → Except DiskFault Location}
  {links : Nat} {here there : Location} {names rest : List String} {name : String}

theorem isSome_of_isDirectory (h : (disk.entry? location).any Entry.isDirectory = true) :
    (disk.entry? location).isSome = true := by
  obtain ⟨entry, hentry, -⟩ := (Option.any_eq_true _ _).1 h
  rw [hentry]
  rfl

theorem isSome_of_descend (htree : disk.IsTree)
    (hlink : ∀ here target rest there, (disk.entry? here).any Entry.isDirectory = true →
      onLink here target rest = .ok there → (disk.entry? there).isSome = true)
    (hhere : (disk.entry? here).isSome = true) (h : disk.descend onLink here names = .ok there) :
    (disk.entry? there).isSome = true := by
  induction names generalizing here with
  | nil =>
    cases h
    exact hhere
  | cons name names ih =>
    have hdirectory := isDirectory_of_descend h
    rw [descend_cons name names hdirectory] at h
    split at h
    · exact ih (isSome_of_isDirectory (htree.isDirectory_dropLast hdirectory)) h
    · cases hentry : disk.entry? (here ++ [name]) with
      | none =>
        rw [hentry] at h
        cases h
      | some entry =>
        rw [hentry] at h
        have hthere : (disk.entry? (here ++ [name])).isSome = true := by rw [hentry]; rfl
        cases entry with
        | link target => exact hlink _ _ _ _ hdirectory h
        | directory => exact ih hthere h
        | file file => exact ih hthere h
        | repository repository => exact ih hthere h

/-- Names lead to something that is there. -/
theorem isSome_of_followFrom (htree : disk.IsTree) (hhere : (disk.entry? here).isSome = true)
    (h : disk.followFrom links here names = .ok there) : (disk.entry? there).isSome = true := by
  -- a link that is followed takes one from the count, and the names behind it start anew
  induction links generalizing here there names with
  | zero => exact isSome_of_descend htree (fun _ _ _ _ _ hlink => by cases hlink) hhere h
  | succ links ih =>
    refine isSome_of_descend htree (fun here target rest there hdirectory hlink => ?_) hhere h
    refine ih ?_ hlink
    split
    · rfl
    · exact isSome_of_isDirectory hdirectory

/-- Names that lead to a directory start at one. -/
theorem isDirectory_of_followFrom (h : disk.followFrom links here names = .ok there)
    (hthere : (disk.entry? there).any Entry.isDirectory = true) :
    (disk.entry? here).any Entry.isDirectory = true := by
  cases names with
  | nil =>
    obtain rfl : here = there := by cases links <;> exact Except.ok.inj h
    exact hthere
  | cons name rest => cases links <;> exact isDirectory_of_descend h

/-- If names lead somewhere, so do the first of them. -/
theorem exists_followFrom_of_append (h : disk.followFrom links here (names ++ rest) = .ok there) :
    ∃ between, disk.followFrom links here names = .ok between := by
  -- the names are dropped from the end: of the last one it is known where those before it lead
  induction rest using List.reverseRecOn generalizing there with
  | nil => exact ⟨there, by rwa [List.append_nil] at h⟩
  | append_singleton rest last ih =>
    rw [← List.append_assoc] at h
    obtain ⟨directory, hdirectory, -⟩ := leadsOn_of_followFrom h
    exact ih hdirectory

/-- A name at which nothing stands leads nowhere. -/
theorem exists_error_of_missing (rest : List String) (hname : name ≠ "..")
    (hmissing : disk.entry? (here ++ [name]) = none) :
    ∃ fault, ∀ onLink, disk.descend onLink here (name :: rest) = .error fault := by
  cases hhere : disk.entry? here with
  | none => exact ⟨.noSuchFile, fun onLink => by simp only [descend, hhere]⟩
  | some entry =>
    cases hdirectory : entry.isDirectory with
    | false => exact ⟨.notDirectory, fun onLink => by simp [descend, hhere, hdirectory]⟩
    | true =>
      refine ⟨.noSuchFile, fun onLink => ?_⟩
      simp [descend, hhere, hdirectory, hname, hmissing]

/-- Names lead straight down where nothing but directories can be met. -/
theorem descend_straight (hup : ".." ∉ names)
    (hhere : (disk.entry? here).any Entry.isDirectory = true)
    (hmet : ∀ front, front <+: names → front ≠ [] → disk.entry? (here ++ front) = none ∨
      disk.entry? (here ++ front) = some .directory) :
    (∀ onLink, disk.descend onLink here names = .ok (here ++ names)) ∨
      ∃ fault, ∀ onLink, disk.descend onLink here names = .error fault := by
  induction names generalizing here with
  | nil => exact .inl fun onLink => by rw [List.append_nil]; rfl
  | cons name names ih =>
    simp only [List.mem_cons, not_or] at hup
    rcases hmet [name] ⟨names, rfl⟩ (by simp) with hnone | hdirectory
    · exact .inr (exists_error_of_missing names (Ne.symm hup.1) hnone)
    · have hstep : ∀ onLink, disk.descend onLink here (name :: names) =
          disk.descend onLink (here ++ [name]) names := fun onLink => by
        rw [descend_cons name names hhere, if_neg (Ne.symm hup.1), hdirectory]
      have hrest := ih hup.2 (by rw [hdirectory]; rfl) fun front hfront hne => by
        rw [List.append_assoc]
        exact hmet (name :: front) (List.cons_prefix_cons.2 ⟨rfl, hfront⟩) (by simp)
      rw [List.append_assoc] at hrest
      simp only [hstep]
      exact hrest

/-- Every step up that names take is from a place where something stands. -/
def UpFromPresent (disk : Disk) (start : Location) (names : List String) : Prop :=
  ∀ front rest, names = front ++ ".." :: rest →
    ∃ place, disk.followFrom linkLimit start front = .ok place ∧
      (disk.entry? place).isSome = true

/-- Behind a missing name, no step up is taken. -/
theorem UpFromPresent.notMem_behind {front : List String}
    (h : UpFromPresent disk here (front ++ name :: rest)) (hname : name ≠ "..")
    (hleads : disk.followFrom linkLimit here front = .ok there)
    (hmissing : disk.entry? (there ++ [name]) = none) : ".." ∉ name :: rest := by
  rw [List.mem_cons, not_or]
  refine ⟨hname.symm, fun hmem => ?_⟩
  obtain ⟨between, after, rfl⟩ := List.append_of_mem hmem
  obtain ⟨place, hplace, -⟩ := h (front ++ name :: between) after (by simp)
  obtain ⟨fault, herror⟩ := exists_error_of_missing between hname hmissing
  cases hplace.symm.trans (followFrom_append herror hleads)

/-- Names break off: the first of them lead to a directory in which the next one is missing, and
those behind it do not lead up. -/
structure BreaksOff (disk : Disk) (start : Location) (names front : List String)
    (directory : Location) (name : String) (rest : List String) : Prop where
  names_eq : names = front ++ name :: rest
  up_notMem : ".." ∉ name :: rest
  leads : disk.followFrom linkLimit start front = .ok directory
  isDirectory : (disk.entry? directory).any Entry.isDirectory = true
  missing : disk.entry? (directory ++ [name]) = none

/-- Names that break off lead nowhere, and no others do that go as far. -/
theorem BreaksOff.not_leads {names front : List String} {directory : Location}
    (h : BreaksOff disk here names front directory name rest) (behind : List String) :
    disk.followFrom linkLimit here (front ++ name :: behind) ≠ .ok there := by
  have hname : name ≠ ".." := fun hup => h.up_notMem (hup ▸ List.mem_cons_self)
  obtain ⟨fault, herror⟩ := exists_error_of_missing behind hname h.missing
  rw [followFrom_append herror h.leads]
  exact nofun

/-- Names that lead somewhere step up from present places only. -/
theorem upFromPresent_of_followFrom (h : disk.followFrom linkLimit here names = .ok there) :
    UpFromPresent disk here names := by
  rintro front rest rfl
  rw [List.append_cons] at h
  obtain ⟨between, hbetween⟩ := exists_followFrom_of_append h
  obtain ⟨place, hplace, hdirectory, -⟩ := leadsOn_of_followFrom hbetween
  exact ⟨place, hplace, isSome_of_isDirectory hdirectory⟩

/-- Names that lead straight down behind others step up where those do. -/
theorem UpFromPresent.append (h : UpFromPresent disk here names) (hrest : ".." ∉ rest) :
    UpFromPresent disk here (names ++ rest) := by
  intro front behind hsplit
  rcases List.append_eq_append_iff.1 hsplit with
    ⟨between, rfl, hbetween⟩ | ⟨between, rfl, hbetween⟩
  · exact absurd (hbetween ▸ by simp) hrest
  · cases between with
    | nil => exact absurd ((List.nil_append rest).symm.trans hbetween.symm ▸ by simp) hrest
    | cons first between =>
      obtain ⟨rfl, -⟩ := List.cons.inj hbetween
      exact h front between rfl

end Way

/-- A path that is checked steps up from present places. -/
theorem stepsUpSafely_iff {here : Location} {path : Path} :
    disk.stepsUpSafely here path = true ↔
      UpFromPresent disk (startOf here path) path.components := by
  unfold stepsUpSafely
  rw [← startOf]
  simp only [List.all_eq_true, List.mem_range, Bool.or_eq_true, decide_eq_true_eq]
  constructor
  · intro h front rest hnames
    have hup : path.components[front.length]? = some ".." := by rw [hnames]; simp
    have hplace := (h _ (List.getElem?_eq_some_iff.1 hup).1).resolve_left (absurd hup)
    rw [hnames, List.take_left] at hplace
    cases hleads : disk.followFrom linkLimit (startOf here path) front with
    | error fault =>
      rw [hleads] at hplace
      cases hplace
    | ok place =>
      rw [hleads] at hplace
      exact ⟨place, rfl, hplace⟩
  · intro h count _
    refine or_iff_not_imp_left.2 fun hup => ?_
    obtain ⟨hlt, hname⟩ := List.getElem?_eq_some_iff.1 (Decidable.not_not.1 hup)
    have hnames : path.components =
        path.components.take count ++ ".." :: path.components.drop (count + 1) := by
      rw [← hname, List.getElem_cons_drop, List.take_append_drop]
    obtain ⟨place, hleads, hthere⟩ := h _ _ hnames
    rw [hleads]
    exact hthere

/-! ## Paths that lead somewhere -/

theorem exists_of_bind_eq_ok {ε α β : Type} {first : Except ε α} {next : α → Except ε β}
    {result : β} (h : first >>= next = .ok result) :
    ∃ value, first = .ok value ∧ next value = .ok result := by
  cases first with
  | error fault => cases h
  | ok value => exact ⟨value, rfl, h⟩

section Paths

variable {here : Location} {path : Path}

/-- A path leads to a place if its names do, something is there and it is of the kind that the path
can name. -/
theorem follow_eq_ok_iff : disk.follow here path = .ok location ↔
    path.text ≠ "" ∧ path.hasNul = false ∧
      disk.followFrom linkLimit (startOf here path) path.components = .ok location ∧
        ∃ entry, disk.entry? location = some entry ∧
          (namesDirectory path = true → entry.isDirectory = true) := by
  rw [startOf]
  unfold follow
  by_cases hempty : path.text = ""
  · simp [hempty, bind, Except.bind, throw, throwThe, MonadExceptOf.throw]
  cases hnul : path.hasNul with
  | true => simp [hempty, bind, Except.bind, throw, throwThe, MonadExceptOf.throw]
  | false =>
    simp only [hempty, if_false, Bool.false_eq_true, ne_eq, not_false_eq_true, true_and]
    generalize disk.followFrom linkLimit _ path.components = reached
    cases reached with
    | error fault => simp only [bind, Except.bind, reduceCtorEq, false_and]
    | ok reached =>
      simp only [bind, Except.bind, Except.ok.injEq]
      cases hentry : disk.entry? reached with
      | none =>
        refine iff_of_false (by rintro ⟨⟩) ?_
        rintro ⟨rfl, entry, hthere, -⟩
        rw [hentry] at hthere
        cases hthere
      | some entry =>
        cases hkind : namesDirectory path && !entry.isDirectory with
        | true =>
          refine iff_of_false (by simp [hkind, throw, throwThe, MonadExceptOf.throw]) ?_
          rintro ⟨rfl, found, hthere, hdirectory⟩
          cases hentry.symm.trans hthere
          simp_all
        | false =>
          simp only [hkind, Bool.false_eq_true, if_false, pure, Except.pure, Except.ok.injEq]
          constructor
          · rintro rfl
            exact ⟨rfl, entry, hentry, by simpa using hkind⟩
          · exact And.left

/-- An absolute path leads to the same place from everywhere. -/
theorem follow_of_isAbsolute (h : path.isAbsolute = true) (here there : Location) :
    disk.follow here path = disk.follow there path := by
  unfold follow
  rw [if_pos h, if_pos h]

/-- The place of the last name of a path is known if the names before it lead to a directory. -/
theorem locate_eq_ok (h : disk.locate here path = .ok location) :
    (path.components = [] ∧ location = startOf here path) ∨
      ∃ names last directory, path.components = names ++ [last] ∧
        disk.followFrom linkLimit (startOf here path) names = .ok directory ∧
        (disk.entry? directory).any Entry.isDirectory = true ∧
        location = if last = ".." then directory.dropLast else directory ++ [last] := by
  unfold locate at h
  obtain ⟨directory, hleads, h⟩ := exists_of_bind_eq_ok h
  rw [← startOf.eq_def] at hleads
  rcases List.eq_nil_or_concat path.components with hnil | ⟨names, last, hconcat⟩
  · rw [hnil] at h hleads
    cases hleads
    exact .inl ⟨hnil, (Except.ok.inj h).symm⟩
  · rw [List.concat_eq_append] at hconcat
    rw [hconcat, List.dropLast_concat] at hleads
    rw [hconcat, List.getLast?_concat] at h
    refine .inr ⟨names, last, directory, hconcat, hleads, ?_⟩
    cases hentry : disk.entry? directory with
    | none =>
      rw [hentry] at h
      cases h
    | some entry =>
      simp only [hentry] at h
      cases hdirectory : entry.isDirectory with
      | false =>
        rw [hdirectory] at h
        cases h
      | true =>
        rw [hdirectory] at h
        exact ⟨hdirectory, (Except.ok.inj h).symm⟩

/-- The names of a path lead to the place of the last one, unless a link stands there. -/
theorem followFrom_of_locate (h : disk.locate here path = .ok location)
    (hentry : disk.entry? location = some entry) (hlink : ∀ target, entry ≠ .link target) :
    disk.followFrom linkLimit (startOf here path) path.components = .ok location := by
  rcases locate_eq_ok h with
    ⟨hnil, rfl⟩ | ⟨names, last, directory, hnames, hleads, hdirectory, hlocation⟩
  · rw [hnil]
    rfl
  · rw [hnames]
    refine followFrom_append (fun onLink => ?_) hleads
    rw [descend_cons last [] hdirectory]
    by_cases hup : last = ".."
    · rw [if_pos hup] at hlocation ⊢
      rw [hlocation]
      rfl
    · rw [if_neg hup] at hlocation ⊢
      rw [← hlocation, hentry]
      cases entry with
      | link target => exact absurd rfl (hlink target)
      | _ => rfl

/-- A disk with more on it has the last name of a path at the same place. -/
theorem locate_mono (hmore : ∀ location entry, disk.entry? location = some entry →
      more.entry? location = some entry) (h : disk.locate here path = .ok location) :
    more.locate here path = .ok location := by
  rcases locate_eq_ok h with
    ⟨hnil, rfl⟩ | ⟨names, last, directory, hnames, hleads, hdirectory, rfl⟩
  · exact locate_nil hnil rfl
  · obtain ⟨entry, hentry, hkind⟩ := (Option.any_eq_true _ _).1 hdirectory
    exact locate_directory hnames (followFrom_mono hmore hleads)
      (by rw [hmore _ _ hentry]; exact hkind)

/-- What stands at the end of a path is found where the path leads to, or where its last name
stands. -/
theorem stat_eq_ok_iff : disk.stat here path = .ok (location, entry) ↔
    (if namesDirectory path = true then disk.follow here path else disk.locate here path) =
        .ok location ∧ disk.entry? location = some entry := by
  have hstat : disk.stat here path =
      (if namesDirectory path = true then disk.follow here path else disk.locate here path) >>=
        fun location => (disk.entry? location).elim (.error .noSuchFile) fun entry =>
          .ok (location, entry) := by
    unfold stat
    split
    all_goals
      refine bind_congr fun place => ?_
      cases hentry : disk.entry? place <;> simp only [hentry] <;> rfl
  rw [hstat]
  generalize (if namesDirectory path = true then disk.follow here path
    else disk.locate here path) = reached
  cases reached with
  | error fault => simp only [bind, Except.bind, reduceCtorEq, false_and]
  | ok place =>
    simp only [bind, Except.bind, Except.ok.injEq]
    cases hentry : disk.entry? place with
    | none =>
      refine iff_of_false (by rintro ⟨⟩) ?_
      rintro ⟨rfl, hthere⟩
      cases hentry.symm.trans hthere
    | some found =>
      constructor
      · intro h
        cases h
        exact ⟨rfl, hentry⟩
      · rintro ⟨rfl, hthere⟩
        cases hentry.symm.trans hthere
        rfl

/-- A disk with more on it leads a path to the same place. -/
theorem follow_mono (hmore : ∀ location entry, disk.entry? location = some entry →
      more.entry? location = some entry) (h : disk.follow here path = .ok location) :
    more.follow here path = .ok location := by
  obtain ⟨hempty, hnul, hnames, entry, hentry, hkind⟩ := follow_eq_ok_iff.1 h
  exact follow_eq_ok_iff.2
    ⟨hempty, hnul, followFrom_mono hmore hnames, entry, hmore _ _ hentry, hkind⟩

end Paths

end PreviewInstaller.Disk

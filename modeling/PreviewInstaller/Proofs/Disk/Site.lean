import PreviewInstaller.Proofs.Disk.Resolution
import PreviewInstaller.Proofs.Path

set_option autoImplicit false

/-! # Sites of directories

A site is a place for a directory, told by a path: the first names of the path lead to a directory
that is there, and the names behind it are the directories that may have to be made. `On` describes
the disks that differ from each other on the site only: in how many of those directories are there,
and in what the last one holds. -/

namespace PreviewInstaller

open Disk (linkLimit startOf isBelow BreaksOff)
open Git (pathOf trimmed parentText obstacle?)

/-- A place for a directory. -/
structure Site where
  here : Location
  path : Path
  /-- A disk with nothing on the site. -/
  base : Disk
  /-- The names that lead to a directory that is there, perhaps through links. -/
  front : List String
  reached : Location
  /-- The names of the directories that may have to be made. -/
  names : List String
  no_nul : path.hasNul = false
  components_eq : path.components = front ++ names
  up_notMem : ".." ∉ names
  names_ne_nil : names ≠ []
  leads : base.followFrom linkLimit (if path.isAbsolute then [] else here) front = .ok reached
  reached_isDirectory : (base.entry? reached).any Entry.isDirectory = true
  nothing_there : ∀ count, 0 < count → count ≤ names.length →
    base.entry? (reached ++ names.take count) = none
  nothing_below : ∀ location, isBelow (reached ++ names) location = true →
    base.entry? location = none

namespace Site

variable (site : Site)

/-- The location that the first names behind the directory that is there lead to. -/
def way (count : Nat) : Location :=
  site.reached ++ site.names.take count

/-- The location that the path is seen from. -/
def start : Location :=
  if site.path.isAbsolute then [] else site.here

/-- The location of the directory. -/
def location : Location :=
  site.reached ++ site.names

/-- Whether a location is one of the directories that may have to be made, or lies in the last. -/
def Covers (location : Location) : Prop :=
  (∃ count, 0 < count ∧ count ≤ site.names.length ∧ location = site.way count) ∨
    isBelow site.location location = true

/-- The disks on which the first `made` directories of the site are there, and which are otherwise
as they were before there was anything on the site. -/
structure On (disk : Disk) (made : Nat) : Prop where
  le : made ≤ site.names.length
  outside : ∀ location, ¬site.Covers location →
    disk.entry? location = site.base.entry? location
  on_way : ∀ count, 0 < count → count ≤ made → count < site.names.length →
    disk.entry? (site.way count) = some .directory
  at_end : made = site.names.length →
    (disk.entry? site.location).any Entry.isDirectory = true
  missing : ∀ count, made < count → count ≤ site.names.length →
    disk.entry? (site.way count) = none
  below : made < site.names.length → ∀ location, isBelow site.location location = true →
    disk.entry? location = none

variable {site} {disk : Disk} {made count : Nat}

/-! ## Locations of a site -/

theorem way_length : site.way site.names.length = site.location := by
  rw [way, location, List.take_length]

theorem length_way (h : count ≤ site.names.length) :
    (site.way count).length = site.reached.length + count := by
  rw [way, List.length_append, List.length_take, Nat.min_eq_left h]

theorem way_inj {count' : Nat} (h : count ≤ site.names.length) (h' : count' ≤ site.names.length)
    (heq : site.way count = site.way count') : count = count' := by
  have hlength := congrArg List.length heq
  rw [length_way h, length_way h'] at hlength
  omega

theorem way_ne_nil (hpos : 0 < count) (h : count ≤ site.names.length) : site.way count ≠ [] := by
  intro hnil
  have hlength := length_way h
  rw [hnil, List.length_nil] at hlength
  omega

theorem names_length_pos : 0 < site.names.length :=
  List.length_pos_iff.2 site.names_ne_nil

theorem location_ne_nil : site.location ≠ [] := by
  rw [← way_length]
  exact way_ne_nil names_length_pos (Nat.le_refl _)

theorem way_zero : site.way 0 = site.reached := by
  rw [way, List.take_zero, List.append_nil]

/-- The directory is not on the way to itself. -/
theorem not_prefix_way (hlt : count < site.names.length) :
    ¬site.location <+: site.way count := by
  intro hstarts
  have hlength := hstarts.length_le
  rw [← way_length, length_way (Nat.le_refl _), length_way (Nat.le_of_lt hlt)] at hlength
  omega

/-- Nothing on the way lies in the directory itself. -/
theorem not_isBelow_way (h : count ≤ site.names.length) :
    isBelow site.location (site.way count) = false := by
  rw [Bool.eq_false_iff, ne_eq, Disk.isBelow_iff]
  rintro ⟨hstarts, hne⟩
  rcases Nat.lt_or_eq_of_le h with hlt | rfl
  · exact not_prefix_way hlt hstarts
  · exact hne way_length.symm

theorem covers_of_prefix {place : Location} (h : site.location <+: place) : site.Covers place := by
  by_cases hsame : site.location = place
  · exact .inl ⟨_, names_length_pos, Nat.le_refl _, hsame.symm.trans way_length.symm⟩
  · exact .inr (Disk.isBelow_iff.2 ⟨h, hsame⟩)

theorem not_covers_reached : ¬site.Covers site.reached := by
  rintro (⟨count, hpos, hle, heq⟩ | hbelow)
  · have hlength := congrArg List.length heq
    rw [length_way hle] at hlength
    omega
  · have hway : site.way 0 = site.reached := by simp [way]
    rw [← hway, not_isBelow_way (Nat.zero_le _)] at hbelow
    cases hbelow

/-! ## Disks on a site -/

theorem On.extends (h : site.On disk made) {location : Location} {entry : Entry}
    (hentry : site.base.entry? location = some entry) : disk.entry? location = some entry := by
  rw [h.outside location, hentry]
  rintro (⟨count, hpos, hle, rfl⟩ | hbelow)
  · rw [way, site.nothing_there count hpos hle] at hentry
    cases hentry
  · rw [site.nothing_below location hbelow] at hentry
    cases hentry

theorem On.isDirectory_way (h : site.On disk made) (hle : count ≤ made) :
    (disk.entry? (site.way count)).any Entry.isDirectory = true := by
  by_cases hzero : count = 0
  · rw [hzero, way_zero, h.outside _ not_covers_reached]
    exact site.reached_isDirectory
  · by_cases hend : count = site.names.length
    · rw [hend, way_length]
      exact h.at_end (Nat.le_antisymm h.le (hend ▸ hle))
    · rw [h.on_way count (by omega) hle (by have := h.le; omega)]
      rfl

/-- The names of a site lead from one of its directories to the next, as far as these are there. -/
theorem On.descend (h : site.On disk made)
    (onLink : Location → String → List String → Except DiskFault Location)
    {before todo after : List String} (hnames : site.names = before ++ (todo ++ after))
    (hbefore : before.length ≤ made) :
    disk.descend onLink (site.reached ++ before) todo =
      if (before ++ todo).length ≤ made then .ok (site.reached ++ (before ++ todo))
      else .error .noSuchFile := by
  induction todo generalizing before with
  | nil =>
    rw [List.append_nil, if_pos hbefore]
    rfl
  | cons name todo ih =>
    have hnames' : site.names = (before ++ [name]) ++ (todo ++ after) := by
      rw [hnames, List.cons_append, List.append_assoc, List.singleton_append]
    have hhere : site.reached ++ before = site.way before.length := by
      rw [way, hnames, List.take_left]
    have hnext : site.reached ++ (before ++ [name]) = site.way (before ++ [name]).length := by
      rw [way, hnames', List.take_left]
    have hup : name ≠ ".." := by
      rintro rfl
      exact site.up_notMem (hnames ▸ by simp)
    have hdirectory := h.isDirectory_way hbefore
    rw [← hhere] at hdirectory
    rw [Disk.descend_cons name todo hdirectory, if_neg hup, List.append_assoc]
    rw [List.append_cons before name todo]
    by_cases hmade : (before ++ [name]).length ≤ made
    · have hthere := h.isDirectory_way hmade
      rw [← hnext] at hthere
      obtain ⟨entry, hentry, hisDirectory⟩ := (Option.any_eq_true _ _).1 hthere
      rw [hentry, ← ih hnames' hmade]
      cases entry with
      | link target => cases hisDirectory
      | _ => rfl
    · have hmissing := h.missing (before ++ [name]).length (by omega) (by rw [hnames']; simp)
      rw [← hnext] at hmissing
      rw [hmissing, if_neg]
      rw [List.length_append]
      omega

/-- Where the path of the first directories of a site leads to. -/
theorem On.followFrom (h : site.On disk made) (hle : count ≤ site.names.length) :
    disk.followFrom linkLimit site.start (site.front ++ site.names.take count) =
      if count ≤ made then .ok (site.way count) else .error .noSuchFile := by
  have hleads : disk.followFrom linkLimit site.start site.front = .ok site.reached :=
    Disk.followFrom_mono (fun _ _ => h.extends) site.leads
  refine Disk.followFrom_append (fun onLink => ?_) hleads
  have hnames : site.names = [] ++ (site.names.take count ++ site.names.drop count) := by
    rw [List.nil_append, List.take_append_drop]
  have hlength : (site.names.take count).length = count := List.length_take_of_le hle
  have hdescend := h.descend onLink hnames (Nat.zero_le _)
  rw [List.append_nil, List.nil_append, hlength] at hdescend
  exact hdescend

/-- The path of a site steps up on the way to the directory that is there only. -/
theorem On.stepsUpSafely (h : site.On disk made) :
    disk.stepsUpSafely site.here site.path = true := by
  have hleads : disk.followFrom linkLimit site.start site.front = .ok site.reached :=
    Disk.followFrom_mono (fun _ _ => h.extends) site.leads
  rw [Disk.stepsUpSafely_iff, site.components_eq]
  exact (Disk.upFromPresent_of_followFrom hleads).append site.up_notMem

/-! ## Texts for the directories of a site -/

/-- A text names the directory that the first names of the site lead to. -/
structure Names (site : Site) (text : List Char) (count : Nat) : Prop where
  le : count ≤ site.names.length
  namesOf_eq : Path.namesOf text = site.front ++ site.names.take count
  isAbsolute_eq : (pathOf text).isAbsolute = site.path.isAbsolute
  no_nul : (pathOf text).hasNul = false
  ne_nil : text ≠ []

variable {text : List Char}

theorem pathOf_path : pathOf site.path.text.toList = site.path := by
  rw [pathOf, String.ofList_toList]

theorem names_path : Names site site.path.text.toList site.names.length := by
  have hnames : Path.namesOf site.path.text.toList =
      site.front ++ site.names.take site.names.length := by
    rw [← Path.components_eq, site.components_eq, List.take_length]
  refine ⟨Nat.le_refl _, hnames, by rw [pathOf_path], by rw [pathOf_path, site.no_nul], ?_⟩
  intro hnil
  rw [hnil, Path.namesOf_nil] at hnames
  have hlength := congrArg List.length hnames
  have hpos := site.names_length_pos
  rw [List.length_append, List.take_length, List.length_nil] at hlength
  omega

/-- Slashes at the end of a text do not count. -/
theorem Names.trimmed (h : Names site text count) : Names site (trimmed text) count := by
  obtain ⟨slashes, htext, hne⟩ := Path.exists_trimmed h.ne_nil
  have hnames := h.namesOf_eq
  have habsolute := h.isAbsolute_eq
  have hnul := h.no_nul
  rw [htext] at hnames habsolute hnul
  rw [Path.namesOf_slashes] at hnames
  rw [Path.isAbsolute_append hne] at habsolute
  rw [Path.hasNul_append, Bool.or_eq_false_iff] at hnul
  exact ⟨h.le, hnames, habsolute, hnul.1, hne⟩

/-- The text of the directory that lies around another one names the directory before it, unless
the last piece of the text names nothing. -/
theorem Names.parentText {front piece : List Char} {slashes : Nat}
    (h : Names site text (count + 1)) (hends : Path.EndsIn text front piece slashes) :
    Names site (parentText text) (if piece = ['.'] then count + 1 else count) := by
  have hnames := h.namesOf_eq
  rw [hends.namesOf_eq, Path.namesOf_piece hends.piece_ne_nil hends.slash_notMem,
    ← hends.namesOf_parentText] at hnames
  have hle := h.le
  refine ⟨by split <;> omega, ?_, hends.isAbsolute_parentText.trans h.isAbsolute_eq,
    hends.hasNul_parentText h.no_nul, hends.parentText_ne_nil⟩
  split at hnames
  · next hdot => rw [if_pos hdot, ← hnames, List.append_nil]
  · next hdot =>
    rw [List.take_succ_eq_append_getElem hle, ← List.append_assoc] at hnames
    rw [if_neg hdot, (List.append_inj' hnames rfl).1]

theorem Names.startOf_eq (h : Names site text count) :
    Disk.startOf site.here (pathOf text) = site.start := by
  rw [Disk.startOf, h.isAbsolute_eq]
  rfl

theorem Names.text_ne_empty (h : Names site text count) : (pathOf text).text ≠ "" := by
  simpa [pathOf] using h.ne_nil

theorem On.followFrom_text (h : site.On disk made) (htext : Names site text count) :
    disk.followFrom linkLimit (Disk.startOf site.here (pathOf text)) (pathOf text).components =
      if count ≤ made then .ok (site.way count) else .error .noSuchFile := by
  rw [htext.startOf_eq, Path.components_pathOf, htext.namesOf_eq, h.followFrom htext.le]

theorem On.follow (h : site.On disk made) (htext : Names site text count) :
    disk.follow site.here (pathOf text) =
      if count ≤ made then .ok (site.way count) else .error .noSuchFile := by
  have hfollow := h.followFrom_text htext
  by_cases hmade : count ≤ made
  · rw [if_pos hmade] at hfollow ⊢
    exact Disk.follow_directory htext.text_ne_empty htext.no_nul hfollow (h.isDirectory_way hmade)
  · rw [if_neg hmade] at hfollow ⊢
    exact Disk.follow_error htext.text_ne_empty htext.no_nul hfollow

/-- Where the last of the first names of a site stands is known as soon as all before it are
there. -/
theorem On.locate (h : site.On disk made) (htext : Names site text (count + 1)) :
    disk.locate site.here (pathOf text) =
      if count ≤ made then .ok (site.way (count + 1)) else .error .noSuchFile := by
  have hlt : count < site.names.length := htext.le
  have hcomponents : (pathOf text).components =
      site.front ++ site.names.take count ++ [site.names[count]] := by
    rw [Path.components_pathOf, htext.namesOf_eq, List.take_succ_eq_append_getElem hlt,
      List.append_assoc]
  have hway : site.way (count + 1) = site.way count ++ [site.names[count]] := by
    rw [way, List.take_succ_eq_append_getElem hlt, ← List.append_assoc, way]
  have hup : site.names[count] ≠ ".." := fun hup => site.up_notMem (hup ▸ List.getElem_mem hlt)
  have hfollow := h.followFrom (Nat.le_of_lt hlt)
  rw [← htext.startOf_eq] at hfollow
  by_cases hmade : count ≤ made
  · rw [if_pos hmade] at hfollow ⊢
    rw [Disk.locate_directory hcomponents hfollow (h.isDirectory_way hmade), if_neg hup, hway]
  · rw [if_neg hmade] at hfollow ⊢
    exact Disk.locate_error hcomponents hfollow

/-- What is not there has no entry. -/
theorem On.stat_missing (h : site.On disk made) (htext : Names site text count)
    (hmissing : made < count) : disk.stat site.here (pathOf text) = .error .noSuchFile := by
  obtain ⟨count, rfl⟩ : ∃ before, count = before + 1 := ⟨count - 1, by omega⟩
  have hfollow := h.follow htext
  have hlocate := h.locate htext
  rw [if_neg (by omega)] at hfollow
  by_cases hmade : count ≤ made
  · rw [if_pos hmade] at hlocate
    exact Disk.stat_missing hfollow (.inr ⟨_, hlocate, h.missing _ hmissing htext.le⟩)
  · rw [if_neg hmade] at hlocate
    exact Disk.stat_missing hfollow (.inl hlocate)

/-- Whether nothing is in the way of a directory: there is one, or a link. -/
def AllowsDirectory (entry : Entry) : Prop :=
  entry.isDirectory = true ∨ ∃ target, entry = .link target

theorem obstacle?_eq_none {here place : Location} {entry : Entry}
    (hfollow : disk.follow here (pathOf text) = .ok place)
    (hdirectory : (disk.entry? place).any Entry.isDirectory = true)
    (hentry : AllowsDirectory entry) : obstacle? disk here text entry = none := by
  rcases hentry with hisDirectory | ⟨target, rfl⟩
  · cases entry with
    | link target => cases hisDirectory
    | file file => cases hisDirectory
    | directory => rfl
    | repository repository => rfl
  · have htext : disk.follow here ⟨String.ofList text⟩ = .ok place := hfollow
    simp only [obstacle?, htext, hdirectory, if_true]

/-- The directory that the first names of a path lead to is found where the last of these names
stands, or through a link there. -/
theorem On.locate_front (h : site.On disk made) (htext : Names site text 0) :
    ∃ place entry, disk.locate site.here (pathOf text) = .ok place ∧
      disk.entry? place = some entry ∧ AllowsDirectory entry := by
  have hfollow := h.followFrom_text htext
  rw [if_pos (Nat.zero_le _), Path.components_pathOf, htext.namesOf_eq, List.take_zero,
    List.append_nil] at hfollow
  have hreached := h.isDirectory_way (Nat.zero_le made)
  obtain ⟨entry, hentry, hdirectory⟩ := (Option.any_eq_true _ _).1 hreached
  have hcomponents : (pathOf text).components = site.front := by
    rw [Path.components_pathOf, htext.namesOf_eq, List.take_zero, List.append_nil]
  rcases List.eq_nil_or_concat site.front with hfront | ⟨names, last, hfront⟩
  · refine ⟨site.way 0, entry, ?_, hentry, .inl hdirectory⟩
    rw [hfront] at hfollow
    exact Disk.locate_nil (by rw [hcomponents, hfront]) hfollow
  · rw [List.concat_eq_append] at hfront
    rw [hfront] at hfollow hcomponents
    obtain ⟨directory, hnames, hisDirectory, hlast⟩ := Disk.leadsOn_of_followFrom hfollow
    rw [Disk.locate_directory hcomponents hnames hisDirectory]
    rcases hlast with ⟨hup, hplace⟩ | ⟨hup, found, hfound, hplace⟩
    · rw [if_pos hup, ← hplace]
      exact ⟨_, entry, rfl, hentry, .inl hdirectory⟩
    · rw [if_neg hup]
      refine ⟨_, found, rfl, hfound, ?_⟩
      cases found with
      | link target => exact .inr ⟨target, rfl⟩
      | _ =>
        rw [hplace nofun, hfound] at hreached
        exact .inl hreached

/-- A directory that had to be made is found as itself. -/
theorem On.stat_way (h : site.On disk made) (htext : Names site text (count + 1))
    (hmade : count + 1 ≤ made) :
    ∃ entry, disk.stat site.here (pathOf text) = .ok (site.way (count + 1), entry) ∧
      entry.isDirectory = true := by
  have hfollow := h.follow htext
  rw [if_pos hmade] at hfollow
  have hlocate := h.locate htext
  rw [if_pos (Nat.le_of_succ_le hmade)] at hlocate
  obtain ⟨entry, hentry, hdirectory⟩ := (Option.any_eq_true _ _).1 (h.isDirectory_way hmade)
  by_cases hnames : Disk.namesDirectory (pathOf text) = true
  · exact ⟨entry, Disk.stat_followed hnames hfollow hentry, hdirectory⟩
  · exact ⟨entry, Disk.stat_located hnames hlocate hentry, hdirectory⟩

/-- What is there is a directory or a link to one, so that nothing is in the way. -/
theorem On.stat_there (h : site.On disk made) (htext : Names site text count)
    (hmade : count ≤ made) :
    ∃ location entry, disk.stat site.here (pathOf text) = .ok (location, entry) ∧
      obstacle? disk site.here text entry = none := by
  have hfollow := h.follow htext
  rw [if_pos hmade] at hfollow
  have hreached := h.isDirectory_way hmade
  cases count with
  | zero =>
    obtain ⟨place, found, hlocate, hfound, hallows⟩ := h.locate_front htext
    by_cases hnames : Disk.namesDirectory (pathOf text) = true
    · obtain ⟨entry, hentry, hdirectory⟩ := (Option.any_eq_true _ _).1 hreached
      exact ⟨_, entry, Disk.stat_followed hnames hfollow hentry,
        obstacle?_eq_none hfollow hreached (.inl hdirectory)⟩
    · exact ⟨place, found, Disk.stat_located hnames hlocate hfound,
        obstacle?_eq_none hfollow hreached hallows⟩
  | succ count =>
    obtain ⟨entry, hstat, hdirectory⟩ := h.stat_way htext hmade
    exact ⟨_, entry, hstat, obstacle?_eq_none hfollow hreached (.inl hdirectory)⟩

/-! ## Sites on a disk -/

theorem on_base : site.On site.base 0 where
  le := Nat.zero_le _
  outside _ _ := rfl
  on_way _ hpos hle _ := absurd hpos (Nat.not_lt.2 hle)
  at_end h := absurd h.symm (Nat.ne_of_gt names_length_pos)
  missing count hpos hle := site.nothing_there count hpos hle
  below _ location hbelow := site.nothing_below location hbelow

/-- Where the names of a path break off on a disk, its directory has a site. -/
theorem exists_of_breaksOff {here directory : Location} {path : Path} {front rest : List String}
    {name : String} (htree : disk.IsTree) (hnul : path.hasNul = false)
    (h : BreaksOff disk (startOf here path) path.components front directory name rest) :
    ∃ site : Site, site.here = here ∧ site.path = path ∧ site.base = disk ∧
      site.location = directory ++ name :: rest := by
  have hnothing : ∀ location, directory ++ [name] <+: location → disk.entry? location = none :=
    fun location hstarts => htree.entry?_eq_none hstarts h.missing
  refine ⟨⟨here, path, disk, front, directory, name :: rest, hnul, h.names_eq, h.up_notMem,
    List.cons_ne_nil _ _, h.leads, h.isDirectory, ?_, ?_⟩, rfl, rfl, rfl, rfl⟩
  · intro count hpos _
    obtain ⟨count, rfl⟩ : ∃ before, count = before + 1 := ⟨count - 1, by omega⟩
    refine hnothing _ ⟨rest.take count, ?_⟩
    rw [List.append_assoc, List.take_succ_cons, List.singleton_append]
  · intro location hbelow
    refine hnothing _ (List.IsPrefix.trans ⟨rest, ?_⟩ (Disk.isBelow_iff.1 hbelow).1)
    rw [List.append_assoc, List.singleton_append]

end Site

end PreviewInstaller

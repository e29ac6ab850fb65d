import PreviewInstaller.Proofs.Disk.Resolution
import PreviewInstaller.Proofs.Path

set_option autoImplicit false

/-! # The directory to clone into

The directories on the way of a path are made one in the other, as far as they are missing. Where
the path led nowhere before and steps up from no missing place, its directory is new after that, and
nothing is in it. -/

namespace PreviewInstaller.Git

open Disk (linkLimit startOf isBelow namesDirectory IsTree UpFromPresent BreaksOff
  exists_of_bind_eq_ok)

variable {disk between more : Disk} {here start directory location : Location} {path : Path}
  {names front rest : List String} {name : String} {text : List Char}

/-! ## Growing disks -/

/-- A disk grows along names: a directory is made under one of the names, in the directory that the
names before it lead to, and again. -/
inductive Grows (start : Location) (names : List String) (disk : Disk) : Disk → Prop where
  | refl : Grows start names disk disk
  | step {more : Disk} {front : List String} {name : String} {directory : Location} :
      Grows start names disk more → front ++ [name] <+: names → name ≠ ".." →
      more.followFrom linkLimit start front = .ok directory →
      (more.entry? directory).any Entry.isDirectory = true →
      more.entry? (directory ++ [name]) = none →
      Grows start names disk (more.insert (directory ++ [name]) .directory)

theorem entry?_insert_of_some {entry found : Entry} {other : Location}
    (hmissing : disk.entry? location = none) (hfound : disk.entry? other = some found) :
    Disk.entry? (disk.insert location entry) other = some found := by
  rw [Disk.entry?_insert_of_ne, hfound]
  rintro rfl
  cases hmissing.symm.trans hfound

namespace Grows

theorem widen (h : Grows start names disk more) {longer : List String}
    (hnames : names <+: longer) : Grows start longer disk more := by
  induction h with
  | refl => exact .refl
  | step _ hfront hup hleads hdirectory hmissing ih =>
    exact .step ih (hfront.trans hnames) hup hleads hdirectory hmissing

theorem trans (h : Grows start names disk between) (h' : Grows start names between more) :
    Grows start names disk more := by
  induction h' with
  | refl => exact h
  | step _ hfront hup hleads hdirectory hmissing ih =>
    exact .step ih hfront hup hleads hdirectory hmissing

/-- What was there stays as it is. -/
theorem keeps (h : Grows start names disk more) :
    ∀ location entry, disk.entry? location = some entry → more.entry? location = some entry := by
  induction h with
  | refl => exact fun _ _ => id
  | step _ _ _ _ _ hmissing ih =>
    exact fun location entry hentry => entry?_insert_of_some hmissing (ih location entry hentry)

theorem isTree (h : Grows start names disk more) (htree : disk.IsTree) : more.IsTree := by
  induction h with
  | refl => exact htree
  | step _ _ _ _ hdirectory _ ih => exact ih.insert_directory hdirectory

theorem isDirectory (h : Grows start names disk more)
    (hdirectory : (disk.entry? location).any Entry.isDirectory = true) :
    (more.entry? location).any Entry.isDirectory = true := by
  obtain ⟨entry, hentry, hkind⟩ := (Option.any_eq_true _ _).1 hdirectory
  rw [h.keeps _ _ hentry]
  exact hkind

/-- What is new is a directory on the way. -/
theorem new (h : Grows start names disk more) {entry : Entry}
    (hmissing : disk.entry? location = none) (hentry : more.entry? location = some entry) :
    entry = .directory ∧ ∃ front, front <+: names ∧
      more.followFrom linkLimit start front = .ok location := by
  induction h with
  | refl => cases hmissing.symm.trans hentry
  | @step more front name directory _ hfront hup hleads hdirectory hnone ih =>
    have hkeeps : ∀ other found, more.entry? other = some found →
        Disk.entry? (more.insert (directory ++ [name]) .directory) other = some found :=
      fun _ _ => entry?_insert_of_some hnone
    by_cases hlocation : location = directory ++ [name]
    · have hself : Disk.entry? (more.insert (directory ++ [name]) .directory)
          (directory ++ [name]) = some .directory :=
        Disk.entry?_insert_self (by simp)
      rw [hlocation, hself] at hentry
      refine ⟨(Option.some.inj hentry).symm, front ++ [name], hfront, ?_⟩
      refine Disk.followFrom_append (fun onLink => ?_) (Disk.followFrom_mono hkeeps hleads)
      obtain ⟨found, hfound, hkind⟩ := (Option.any_eq_true _ _).1 hdirectory
      rw [Disk.descend_cons name [] (by rw [hkeeps _ _ hfound]; exact hkind), if_neg hup, hself,
        hlocation]
      rfl
    · rw [Disk.entry?_insert_of_ne hlocation] at hentry
      obtain ⟨hkind, front, hfront, hfollow⟩ := ih hentry
      exact ⟨hkind, front, hfront, Disk.followFrom_mono hkeeps hfollow⟩

/-- A disk that grows lacks something under one of the names. -/
theorem eq_or_exists_missing (h : Grows start names disk more) :
    more = disk ∨ ∃ front name rest directory, names = front ++ name :: rest ∧ name ≠ ".." ∧
      disk.followFrom linkLimit start front = .ok directory ∧
      (disk.entry? directory).any Entry.isDirectory = true ∧
      disk.entry? (directory ++ [name]) = none := by
  induction h with
  | refl => exact .inl rfl
  | step _ hfront hup hleads hdirectory hmissing ih =>
    rcases ih with rfl | hbreak
    · obtain ⟨rest, hnames⟩ := hfront
      rw [List.append_assoc, List.singleton_append] at hnames
      exact .inr ⟨_, _, rest, _, hnames.symm, hup, hleads, hdirectory, hmissing⟩
    · exact .inr hbreak

end Grows

/-! ## Making directories -/

/-- A disk grows when a directory is made where the last name of a path stands. -/
theorem Grows.ensureDirectory (h : Grows (startOf here path) names disk more) (htree : disk.IsTree)
    (hstart : (disk.entry? (startOf here path)).any Entry.isDirectory = true)
    (hnames : path.components <+: names) (hlocate : more.locate here path = .ok location) :
    Grows (startOf here path) names disk (more.ensureDirectory location) := by
  unfold Disk.ensureDirectory
  split
  · exact h
  next hmissing =>
  have hdirectories : ∀ other, location = other →
      ¬(more.entry? other).any Entry.isDirectory = true := by
    rintro _ rfl hdirectory
    exact hmissing (Disk.isSome_of_isDirectory hdirectory)
  rcases Disk.locate_eq_ok hlocate with
    ⟨-, hlocation⟩ | ⟨front, last, directory, hcomponents, hleads, hdirectory, hlocation⟩
  · exact absurd (h.isDirectory hstart) (hdirectories _ hlocation)
  · split at hlocation
    · exact absurd ((h.isTree htree).isDirectory_dropLast hdirectory) (hdirectories _ hlocation)
    · next hup =>
      subst hlocation
      exact .step h (hcomponents ▸ hnames) hup hleads hdirectory (by simpa using hmissing)

/-- Making the directory of a path grows the disk along its names. -/
theorem grows_of_makeDirectories {depth : Nat} (htree : disk.IsTree)
    (hstart : (disk.entry? (startOf here (pathOf text))).any Entry.isDirectory = true)
    (h : makeDirectories disk here depth text = .ok more) :
    Grows (startOf here (pathOf text)) (Path.namesOf text) disk more := by
  -- the directory around the path is made first, along the names before the last one
  induction depth generalizing text more with
  | zero =>
    cases h
    exact .refl
  | succ depth ih =>
    have hcomponents : (pathOf text).components <+: Path.namesOf text := by
      simp only [Path.components_pathOf, List.prefix_refl]
    rw [makeDirectories] at h
    split at h
    · next location hlocate =>
      cases h
      exact Grows.refl.ensureDirectory htree hstart hcomponents hlocate
    · have hparentStart : startOf here (pathOf (parentText text)) = startOf here (pathOf text) := by
        rw [startOf, startOf, Path.isAbsolute_parentText]
      obtain ⟨between, hparent, h⟩ := exists_of_bind_eq_ok h
      have hgrows := ih (by rwa [hparentStart]) hparent
      rw [hparentStart] at hgrows
      split at h
      · next location hlocate =>
        cases h
        exact (hgrows.widen (Path.namesOf_parentText_prefix text)).ensureDirectory htree
          hstart hcomponents hlocate
      · cases h
    · cases h

/-- The directory to clone into is made where nothing stands in its way. -/
def makeUnopposed (disk : Disk) (here : Location) (target : List Char) :
    Except GitFault (Disk × Location) := do
  let disk ← makeDirectories disk here 1 target
  match disk.follow here (pathOf target) with
  | .ok location => return (disk, location)
  | .error fault => throw (.unknownEntry (String.ofList target) fault)

/-- The directory to clone into, made in the one around it. -/
def makeLast (disk : Disk) (here : Location) (target : List Char) :
    Except GitFault (Disk × Location) :=
  match disk.stat here (pathOf target) with
  | .ok (_, entry) =>
    match obstacle? disk here target entry with
    | some fault => .error fault
    | none => makeUnopposed disk here target
  | .error _ => makeUnopposed disk here target

/-- The directory to clone into is made after the one around it, if that is missing. -/
theorem exists_of_makeTarget (h : makeTarget disk here path = .ok (more, location)) :
    ∃ between, (between = disk ∨ ∃ depth,
        makeDirectories disk here depth (parentText (trimmed path.text.toList)) = .ok between) ∧
      makeLast between here (trimmed path.text.toList) = .ok (more, location) := by
  unfold makeTarget at h
  generalize trimmed path.text.toList = target at h ⊢
  simp only [] at h
  split at h
  · split at h
    · cases h
    · exact ⟨disk, .inl rfl, h⟩
  · obtain ⟨between, hbetween, h⟩ := exists_of_bind_eq_ok h
    exact ⟨between, .inr ⟨_, hbetween⟩, h⟩
  · cases h

theorem exists_of_makeUnopposed {target : List Char}
    (h : makeUnopposed disk here target = .ok (more, location)) :
    makeDirectories disk here 1 target = .ok more ∧
      more.follow here (pathOf target) = .ok location := by
  obtain ⟨between, hbetween, h⟩ := exists_of_bind_eq_ok h
  split at h
  · next hfollow =>
    cases h
    exact ⟨hbetween, hfollow⟩
  · cases h

/-- Nothing else stands where the directory is made. -/
theorem exists_of_makeLast {target : List Char}
    (h : makeLast disk here target = .ok (more, location)) :
    (∀ place entry, disk.stat here (pathOf target) = .ok (place, entry) →
        obstacle? disk here target entry = none) ∧
      makeDirectories disk here 1 target = .ok more ∧
      more.follow here (pathOf target) = .ok location := by
  unfold makeLast at h
  split at h
  · next place entry hstat =>
    split at h
    · cases h
    · next hobstacle =>
      refine ⟨fun place' entry' hstat' => ?_, exists_of_makeUnopposed h⟩
      cases hstat.symm.trans hstat'
      exact hobstacle
  · next fault hstat =>
    refine ⟨fun place entry hstat' => ?_, exists_of_makeUnopposed h⟩
    cases hstat.symm.trans hstat'

/-- Where nothing else stands, a directory does, or a link that leads to one. -/
theorem isDirectory_of_obstacle? {target : List Char} {entry : Entry}
    (h : obstacle? disk here target entry = none)
    (hfollow : disk.follow here (pathOf target) = .ok location) :
    entry.isDirectory = true ∨ (disk.entry? location).any Entry.isDirectory = true := by
  cases entry with
  | link link =>
    have hfollow' : disk.follow here ⟨String.ofList target⟩ = .ok location := hfollow
    simp only [obstacle?, hfollow'] at h
    by_cases hdirectory : (disk.entry? location).any Entry.isDirectory = true
    · exact .inr hdirectory
    · rw [if_neg hdirectory] at h
      cases h
  | file file => cases h
  | directory => exact .inl rfl
  | repository repository => exact .inl rfl

/-- What is made or found to clone into is a directory. -/
theorem isDirectory_of_makeLast {target : List Char} (htree : disk.IsTree)
    (hstart : (disk.entry? (startOf here (pathOf target))).any Entry.isDirectory = true)
    (h : makeLast disk here target = .ok (more, location)) :
    (more.entry? location).any Entry.isDirectory = true := by
  obtain ⟨hobstacle, hmade, hfollow⟩ := exists_of_makeLast h
  obtain ⟨-, -, hnames, entry, hentry, hkind⟩ := Disk.follow_eq_ok_iff.1 hfollow
  by_cases hdirectory : namesDirectory (pathOf target) = true
  · rw [hentry]
    exact hkind hdirectory
  have hkeeps := (grows_of_makeDirectories htree hstart hmade).keeps
  rw [makeDirectories] at hmade
  split at hmade
  · next place hlocate =>
    cases hmade
    -- unless it is a link, what stands at the last name is what the path leads to
    have hplace : ∀ {found : Entry}, Disk.entry? (disk.ensureDirectory place) place = some found →
        (∀ target, found ≠ .link target) → place = location := fun hfound hlink =>
      Except.ok.inj ((Disk.followFrom_of_locate (Disk.locate_mono hkeeps hlocate) hfound
        hlink).symm.trans hnames)
    cases hthere : disk.entry? place with
    | none =>
      rw [Disk.ensureDirectory_of_missing hthere] at hplace ⊢
      have hroot : place ≠ [] := by
        rintro rfl
        cases hthere
      have hself : Disk.entry? (disk.insert place .directory) place = some .directory :=
        Disk.entry?_insert_self hroot
      rw [← hplace hself (by simp), hself]
      rfl
    | some found =>
      have hsame : disk.ensureDirectory place = disk := by
        simp [Disk.ensureDirectory, hthere]
      rw [hsame] at hplace hfollow ⊢
      have hfree := hobstacle place found (Disk.stat_located hdirectory hlocate hthere)
      rcases isDirectory_of_obstacle? hfree hfollow with hkind | hkind
      · rw [← hplace hthere (by rintro link rfl; cases hkind), hthere]
        exact hkind
      · exact hkind
  · next hlocate =>
    obtain ⟨between, hbetween, hmade⟩ := exists_of_bind_eq_ok hmade
    cases hbetween
    rw [hlocate] at hmade
    cases hmade
  · cases hmade

/-! ## New directories -/

/-- A directory that was just made on a disk, perhaps with directories on the way to it: it was not
there before, and nothing is in it. -/
structure IsNew (disk : Disk) (location : Location) (more : Disk) : Prop where
  missing : disk.entry? location = none
  at_location : more.entry? location = some .directory
  keeps : ∀ place entry, disk.entry? place = some entry → more.entry? place = some entry
  eq_directory : ∀ place entry, disk.entry? place = none → more.entry? place = some entry →
    entry = .directory
  on_way : ∀ place entry, disk.entry? place = none → more.entry? place = some entry →
    place <+: location
  empty : ∀ place, isBelow location place = true → more.entry? place = none
  isTree : more.IsTree

/-- The names along which a disk has grown broke off, if they step up from no missing place. -/
theorem Grows.exists_breaksOff (hgrows : Grows start names disk more) (hgrown : more ≠ disk)
    (hpresent : UpFromPresent disk start names) :
    ∃ front directory name rest, BreaksOff disk start names front directory name rest := by
  obtain ⟨front, name, rest, directory, rfl, hname, hleads, hkind, hmissing⟩ :=
    hgrows.eq_or_exists_missing.resolve_left hgrown
  exact ⟨front, directory, name, rest, rfl, hpresent.notMem_behind hname hleads hmissing, hleads,
    hkind, hmissing⟩

section Behind

variable (hgrows : Grows start names disk more) (htree : disk.IsTree)
  (hbreak : BreaksOff disk start names front directory name rest)
include hgrows htree hbreak

/-- Behind a missing name, there is nothing but directories that were made. -/
theorem Grows.entry?_behind (hstarts : directory ++ [name] <+: location) :
    more.entry? location = none ∨ more.entry? location = some .directory := by
  cases hentry : more.entry? location with
  | none => exact .inl rfl
  | some entry =>
    obtain ⟨rfl, -⟩ := hgrows.new (htree.entry?_eq_none hstarts hbreak.missing) hentry
    exact .inr rfl

/-- Names behind a missing one lead straight down, if they lead anywhere. -/
theorem Grows.eq_of_followFrom {behind : List String} (hbehind : behind <+: name :: rest)
    (h : more.followFrom linkLimit start (front ++ behind) = .ok location) :
    location = directory ++ behind := by
  have hleadsMore := Disk.followFrom_mono hgrows.keeps hbreak.leads
  have hstraight := Disk.descend_straight (fun hmem => hbreak.up_notMem (hbehind.subset hmem))
    (hgrows.isDirectory hbreak.isDirectory) fun first hfirst hne => by
      obtain ⟨others, rfl⟩ : ∃ others, first = name :: others := by
        cases first with
        | nil => exact absurd rfl hne
        | cons inner others =>
          obtain rfl := (List.cons_prefix_cons.1 (hfirst.trans hbehind)).1
          exact ⟨others, rfl⟩
      exact hgrows.entry?_behind htree hbreak ⟨others, by simp⟩
  rcases hstraight with hok | ⟨fault, herror⟩
  · exact Except.ok.inj (h.symm.trans (Disk.followFrom_append hok hleadsMore))
  · cases h.symm.trans (Disk.followFrom_append herror hleadsMore)

variable (hstart : (disk.entry? start).isSome = true)
include hstart

/-- A directory that was made is on the way of the names, behind the place where they broke off. -/
theorem Grows.exists_behind {entry : Entry} (hnone : disk.entry? location = none)
    (hentry : more.entry? location = some entry) :
    ∃ behind, behind <+: name :: rest ∧ location = directory ++ behind := by
  obtain ⟨-, inner, hinner, hfollow⟩ := hgrows.new hnone hentry
  rw [hbreak.names_eq] at hinner
  rcases Disk.prefix_append_cases hinner with ⟨after, hafter⟩ | ⟨behind, hbehind, rfl⟩
  · -- names before the missing one lead to places that were there before
    have hleads := hbreak.leads
    rw [← hafter] at hleads
    obtain ⟨between, hbetween⟩ := Disk.exists_followFrom_of_append hleads
    cases hfollow.symm.trans (Disk.followFrom_mono hgrows.keeps hbetween)
    have hthere := Disk.isSome_of_followFrom htree hstart hbetween
    rw [hnone] at hthere
    cases hthere
  · exact ⟨behind, hbehind, hgrows.eq_of_followFrom htree hbreak hbehind hfollow⟩

/-- Where the names lead now, there is a directory that is new. -/
theorem Grows.isNew (hfound : more.followFrom linkLimit start names = .ok location)
    (hdirectory : (more.entry? location).any Entry.isDirectory = true) :
    location = directory ++ name :: rest ∧ IsNew disk location more := by
  rw [hbreak.names_eq] at hfound
  obtain rfl := hgrows.eq_of_followFrom htree hbreak (List.prefix_refl _) hfound
  have hbehind : directory ++ [name] <+: directory ++ name :: rest := ⟨rest, by simp⟩
  have hway : ∀ place entry, disk.entry? place = none → more.entry? place = some entry →
      place <+: directory ++ name :: rest := by
    intro place entry hnone hentry
    obtain ⟨behind, hstarts, rfl⟩ := hgrows.exists_behind htree hbreak hstart hnone hentry
    exact (List.prefix_append_right_inj directory).2 hstarts
  exact ⟨rfl, {
    missing := htree.entry?_eq_none hbehind hbreak.missing
    at_location := by
      refine (hgrows.entry?_behind htree hbreak hbehind).resolve_left fun hnone => ?_
      rw [hnone] at hdirectory
      cases hdirectory
    keeps := hgrows.keeps
    eq_directory := fun _ _ hnone hentry => (hgrows.new hnone hentry).1
    on_way := hway
    empty := by
      intro place hbelow
      obtain ⟨hstarts, hne⟩ := Disk.isBelow_iff.1 hbelow
      have hnone := htree.entry?_eq_none (hbehind.trans hstarts) hbreak.missing
      cases hentry : more.entry? place with
      | none => rfl
      | some entry =>
        have hlength := (hway place entry hnone hentry).length_le
        exact absurd (hstarts.eq_of_length_le hlength) hne
    isTree := hgrows.isTree htree }⟩

end Behind

/-! ## The directory of a path -/

theorem startOf_trimmed (here : Location) (path : Path) :
    startOf here (pathOf (trimmed path.text.toList)) = startOf here path := by
  rw [startOf, startOf, Path.isAbsolute_trimmed, pathOf, String.ofList_toList]

/-- The disk grows along the names of the path until the directory to clone into is there. -/
theorem grows_of_makeTarget (htree : disk.IsTree)
    (hstart : (disk.entry? (startOf here path)).any Entry.isDirectory = true)
    (h : makeTarget disk here path = .ok (more, location)) :
    Grows (startOf here path) path.components disk more ∧
      (more.entry? location).any Entry.isDirectory = true ∧
      more.follow here (pathOf (trimmed path.text.toList)) = .ok location := by
  obtain ⟨between, hbetween, hlast⟩ := exists_of_makeTarget h
  have htarget := startOf_trimmed here path
  have hnames : Path.namesOf (trimmed path.text.toList) = path.components :=
    Path.namesOf_trimmed path.text.toList
  have hparent : startOf here (pathOf (parentText (trimmed path.text.toList))) =
      startOf here path := by
    rw [← htarget, startOf, startOf, Path.isAbsolute_parentText]
  have hprefix := Path.namesOf_parentText_prefix (trimmed path.text.toList)
  rw [hnames] at hprefix
  generalize parentText (trimmed path.text.toList) = parent at hbetween hparent hprefix
  have hgrows : Grows (startOf here path) path.components disk between := by
    rcases hbetween with rfl | ⟨depth, hbetween⟩
    · exact .refl
    · rw [← hparent] at hstart ⊢
      exact (grows_of_makeDirectories htree hstart hbetween).widen hprefix
  have hstart' := hgrows.isDirectory hstart
  rw [← htarget] at hstart'
  obtain ⟨-, hmade, hfollow⟩ := exists_of_makeLast hlast
  have hgrows' := grows_of_makeDirectories (hgrows.isTree htree) hstart' hmade
  rw [htarget, hnames] at hgrows'
  exact ⟨hgrows.trans hgrows', isDirectory_of_makeLast (hgrows.isTree htree) hstart' hlast, hfollow⟩

/-- The directory to clone into is made. It is new, and stands where the names of the path broke
off. -/
structure MakesNew (disk : Disk) (here : Location) (path : Path) (location : Location)
    (more : Disk) : Prop where
  target_eq : makeTarget disk here path = .ok (more, location)
  breaksOff : ∃ front directory name rest,
    BreaksOff disk (startOf here path) path.components front directory name rest ∧
      location = directory ++ name :: rest
  new : IsNew disk location more
  follow_eq : more.follow here path = .ok location

/-- Where a path led nowhere, the directory to clone into is new. -/
theorem makesNew_of_makeTarget (htree : disk.IsTree)
    (hstart : (disk.entry? (startOf here path)).any Entry.isDirectory = true)
    (hnul : path.hasNul = false) (hlost : ∀ location, disk.follow here path ≠ .ok location)
    (hpresent : UpFromPresent disk (startOf here path) path.components)
    (h : makeTarget disk here path = .ok (more, location)) :
    MakesNew disk here path location more := by
  obtain ⟨hgrows, hdirectory, hfollow⟩ := grows_of_makeTarget htree hstart h
  obtain ⟨htext, -, hnames, -⟩ := Disk.follow_eq_ok_iff.1 hfollow
  rw [startOf_trimmed, Path.components_pathOf, Path.namesOf_trimmed, ← Path.components_eq] at hnames
  have hempty : path.text ≠ "" := by
    intro hempty
    rw [hempty] at htext
    exact htext rfl
  have hmore := Disk.follow_directory hempty hnul hnames hdirectory
  have hgrown : more ≠ disk := by
    rintro rfl
    exact hlost location hmore
  obtain ⟨front, directory, name, rest, hbreak⟩ := hgrows.exists_breaksOff hgrown hpresent
  obtain ⟨hlocation, hnew⟩ :=
    hgrows.isNew htree hbreak (Disk.isSome_of_isDirectory hstart) hnames hdirectory
  exact ⟨h, ⟨front, directory, name, rest, hbreak, hlocation⟩, hnew, hmore⟩

end PreviewInstaller.Git

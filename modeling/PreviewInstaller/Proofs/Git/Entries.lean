import PreviewInstaller.Proofs.Git.Cloning
import PreviewInstaller.Proofs.Git.Target

set_option autoImplicit false

/-! # Clones of the same entries

Disks with the same entries cannot be told apart by a clone: it ends in the same way on both of
them, and leaves the same entries again. -/

namespace PreviewInstaller.Git

variable {first second : Disk} {here : Location} {path : Path}

/-- Computations that give the same as far as it is seen, followed by ones that go on from what is
seen, give the same. -/
theorem map_bind_congr {ε α β γ δ : Type} {seen : α → γ} {shown : β → δ} {one other : Except ε α}
    {next next' : α → Except ε β} (h : one.map seen = other.map seen)
    (hnext : ∀ value value', seen value = seen value' →
      (next value).map shown = (next' value').map shown) :
    (one >>= next).map shown = (other >>= next').map shown := by
  cases one with
  | error fault =>
    cases other with
    | error fault' =>
      cases h
      rfl
    | ok value' => cases h
  | ok value =>
    cases other with
    | error fault' => cases h
    | ok value' => exact hnext value value' (Except.ok.inj h)

theorem obstacle?_congr (h : first.entry? = second.entry?) :
    obstacle? first = obstacle? second := by
  funext here text entry
  cases entry <;> simp only [obstacle?, Disk.follow_congr h, h]

/-- The same directories are made. -/
theorem makeDirectories_congr (here : Location) (depth : Nat) (text : List Char)
    (h : first.entry? = second.entry?) :
    (makeDirectories first here depth text).map Disk.entry? =
      (makeDirectories second here depth text).map Disk.entry? := by
  induction depth generalizing text with
  | zero => exact congrArg Except.ok h
  | succ depth ih =>
    rw [makeDirectories, makeDirectories, Disk.locate_congr h]
    split
    · exact congrArg Except.ok (Disk.entry?_ensureDirectory_congr h _)
    · refine map_bind_congr (ih (parentText text)) fun made made' hmade => ?_
      rw [Disk.locate_congr hmade]
      split
      · exact congrArg Except.ok (Disk.entry?_ensureDirectory_congr hmade _)
      · rfl
    · rfl

/-- What is seen of the directory to clone into: the entries, and where it is. -/
def seenTarget (target : Disk × Location) : (Location → Option Entry) × Location :=
  ( Disk.entry? target.1, target.2)

theorem makeUnopposed_congr (here : Location) (target : List Char)
    (h : first.entry? = second.entry?) :
    (makeUnopposed first here target).map seenTarget =
      (makeUnopposed second here target).map seenTarget := by
  refine map_bind_congr (makeDirectories_congr here 1 target h) fun made made' hmade => ?_
  rw [Disk.follow_congr hmade]
  split
  · exact congrArg Except.ok (Prod.ext hmade rfl)
  · rfl

theorem makeLast_congr (here : Location) (target : List Char)
    (h : first.entry? = second.entry?) :
    (makeLast first here target).map seenTarget = (makeLast second here target).map seenTarget := by
  unfold makeLast
  rw [Disk.stat_congr h, obstacle?_congr h]
  split
  · split
    · rfl
    · exact makeUnopposed_congr here target h
  · exact makeUnopposed_congr here target h

theorem makeTarget_congr (here : Location) (path : Path) (h : first.entry? = second.entry?) :
    (makeTarget first here path).map seenTarget = (makeTarget second here path).map seenTarget := by
  unfold makeTarget
  rw [Disk.stat_congr h, obstacle?_congr h]
  generalize trimmed path.text.toList = target
  simp only []
  split
  · split
    · rfl
    · exact makeLast_congr here target h
  · exact map_bind_congr (makeDirectories_congr here _ _ h) fun made made' hmade =>
      makeLast_congr here target hmade
  · rfl

variable (here) (aliases : List (String × String)) (url branch : String) (path)

theorem cloneInto_congr (h : first.entry? = second.entry?) :
    (cloneInto first here aliases url branch path).1 =
        (cloneInto second here aliases url branch path).1 ∧
      Disk.entry? (cloneInto first here aliases url branch path).2 =
        Disk.entry? (cloneInto second here aliases url branch path).2 := by
  unfold cloneInto
  rw [Disk.follow_congr h, Disk.isEmptyAt_congr h, h, fetch_congr h]
  cases hfollow : (second.follow here path).toOption with
  | some location =>
    simp only []
    split
    · split
      · exact ⟨rfl, h⟩
      · exact ⟨rfl, Disk.entry?_placeSnapshot_congr (Disk.entry?_insert_congr h _ _) _ _⟩
    · exact ⟨rfl, h⟩
  | none =>
    have htarget := makeTarget_congr here path h
    cases hfirst : makeTarget first here path with
    | error fault =>
      cases hsecond : makeTarget second here path with
      | error fault' =>
        rw [hfirst, hsecond] at htarget
        cases htarget
        exact ⟨rfl, h⟩
      | ok target' =>
        rw [hfirst, hsecond] at htarget
        cases htarget
    | ok target =>
      cases hsecond : makeTarget second here path with
      | error fault' =>
        rw [hfirst, hsecond] at htarget
        cases htarget
      | ok target' =>
        rw [hfirst, hsecond] at htarget
        obtain ⟨made, location⟩ := target
        obtain ⟨made', location'⟩ := target'
        obtain ⟨hmade, rfl⟩ := Prod.mk.inj (Except.ok.inj htarget)
        simp only [fetch_congr hmade]
        split
        · exact ⟨rfl, Disk.entry?_erase_congr (Disk.entry?_eraseBelow_congr hmade _) _⟩
        · exact ⟨rfl, Disk.entry?_placeSnapshot_congr (Disk.entry?_insert_congr hmade _ _) _ _⟩

/-- A clone ends in the same way on disks with the same entries, and leaves the same entries. -/
theorem clone_congr (h : first.entry? = second.entry?) :
    (clone first here aliases url branch path).1 = (clone second here aliases url branch path).1 ∧
      Disk.entry? (clone first here aliases url branch path).2 =
        Disk.entry? (clone second here aliases url branch path).2 := by
  by_cases hsayable : Sayable url branch path
  · have hsame : first.stepsUpSafely here path = second.stepsUpSafely here path := by
      rw [Disk.stepsUpSafely_congr h]
    cases hsafe : second.stepsUpSafely here path with
    | false =>
      rw [clone_of_not_stepsUpSafely hsayable (hsame.trans hsafe),
        clone_of_not_stepsUpSafely hsayable hsafe]
      exact ⟨rfl, h⟩
    | true =>
      obtain ⟨houtcome, hentries⟩ := cloneInto_congr here path aliases url branch h
      rw [clone_eq hsayable (hsame.trans hsafe), clone_eq hsayable hsafe, houtcome]
      exact ⟨rfl, hentries⟩
  · obtain ⟨outcome, -, hclone⟩ := clone_unsayable hsayable
    rw [hclone, hclone]
    exact ⟨rfl, h⟩

end PreviewInstaller.Git

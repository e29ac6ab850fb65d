import PreviewInstaller.Disk.Launch
import PreviewInstaller.Proofs.Disk.Tree

set_option autoImplicit false

/-! # Laws of launching

What a command does is up to the entries of the disk alone. -/

namespace PreviewInstaller.Disk

variable {first second : Disk}

theorem entry?_touch_congr (h : first.entry? = second.entry?) (here : Location) (path : Path) :
    Disk.entry? (first.touch here path) = Disk.entry? (second.touch here path) := by
  unfold touch
  rw [follow_congr h, locate_congr h]
  split
  · split
    · exact h
    · exact entry?_insert_congr h _ _
  · exact h

/-- The steps of a script end in the same way with the same entries. -/
theorem runSteps_congr (surroundings : Surroundings) (steps : List ScriptStep)
    (h : first.entry? = second.entry?) :
    (runSteps surroundings first steps).1 = (runSteps surroundings second steps).1 ∧
      Disk.entry? (runSteps surroundings first steps).2.2 =
        Disk.entry? (runSteps surroundings second steps).2.2 := by
  induction steps generalizing first second with
  | nil => exact ⟨rfl, h⟩
  | cons step steps ih =>
    cases step with
    | touch path => exact ih (entry?_touch_congr h _ _)
    | exit code => exact ⟨rfl, h⟩
    | signal number => exact ⟨rfl, h⟩
    | printArguments => exact ih h
    | printDirectory => exact ih h
    | printVariable name => exact ih h
    | print text => exact ih h
    | printError text => exact ih h

theorem prepare_congr (h : first.entry? = second.entry?) : first.prepare = second.prepare := by
  unfold prepare
  rw [follow_congr h, h]

/-- The variables and arguments of a script show in what it prints and in nothing else. -/
theorem runSteps_directory (surroundings surroundings' : Surroundings)
    (h : surroundings.directory = surroundings'.directory) (disk : Disk)
    (steps : List ScriptStep) :
    (runSteps surroundings disk steps).1 = (runSteps surroundings' disk steps).1 ∧
      (runSteps surroundings disk steps).2.2 = (runSteps surroundings' disk steps).2.2 := by
  induction steps generalizing disk with
  | nil => exact ⟨rfl, rfl⟩
  | cons step steps ih =>
    cases step with
    | touch path =>
      simp only [runSteps, h]
      exact ih _
    | exit code => exact ⟨rfl, rfl⟩
    | signal number => exact ⟨rfl, rfl⟩
    | printArguments => exact ih disk
    | printDirectory => exact ih disk
    | printVariable name => exact ih disk
    | print text => exact ih disk
    | printError text => exact ih disk

/-- Commands that are prepared in the same way end in the same way and leave the same disk. -/
theorem launch_of_prepare {disk : Disk} {here : Location} {command command' : Command}
    (h : disk.prepare here command = disk.prepare here command') (inherited : TextMap String) :
    (disk.launch here inherited command).1 = (disk.launch here inherited command').1 ∧
      (disk.launch here inherited command).2.2 = (disk.launch here inherited command').2.2 := by
  unfold launch
  rw [h]
  split
  · exact ⟨rfl, rfl⟩
  · next directory steps _ =>
    obtain ⟨hstatus, hdisk⟩ := runSteps_directory
      ⟨directory, command.arguments, childVariables inherited command⟩
      ⟨directory, command'.arguments, childVariables inherited command'⟩ rfl disk steps
    exact ⟨congrArg Except.ok hstatus, hdisk⟩

theorem launch_congr (here : Location) (inherited : TextMap String) (command : Command)
    (h : first.entry? = second.entry?) :
    (first.launch here inherited command).1 = (second.launch here inherited command).1 ∧
      Disk.entry? (first.launch here inherited command).2.2 =
        Disk.entry? (second.launch here inherited command).2.2 := by
  unfold launch
  rw [prepare_congr h]
  split
  · exact ⟨rfl, h⟩
  · next directory steps _ =>
    obtain ⟨hstatus, hentries⟩ := runSteps_congr
      ⟨directory, command.arguments, childVariables inherited command⟩ steps h
    exact ⟨congrArg Except.ok hstatus, hentries⟩

end PreviewInstaller.Disk

import PreviewInstaller.Proofs.Procedure
import PreviewInstaller.Program

set_option autoImplicit false

/-! # Laws of the program

A session either ends in a notice without doing anything, or does what a command does and reports
its error. A command that needs a configuration starts by making it, from the working directory and
from letters that are drawn. -/

namespace PreviewInstaller.Program

open CommandLine
open Procedure (Step Yields Performs)

variable {environment : Environment} {arguments : List String} {steps : List Step}

/-! ## Sessions -/

theorem session_of_error {notice : Notice} (h : parse arguments = .error notice)
    (environment : Environment) : session environment arguments = .done (.noticed notice) := by
  unfold session run
  rw [h]
  rfl

/-- The end of a session with a command: its error is reported unless it is a crash. -/
def conclude : Except Error Unit → Procedure Ending
  | .ok () => .done .succeeded
  | .error error =>
    if error ≠ .crash then .perform (.report (.failed error)) fun _ => .done (.failed error)
    else .done (.failed error)

theorem session_of_ok {subcommand : Subcommand} {given : Given}
    (h : parse arguments = .ok (subcommand, given)) (environment : Environment) :
    session environment arguments =
      (execute subcommand (optionsOf environment given)).run.bind conclude := by
  unfold session run
  rw [h]
  refine (Procedure.bind_bind _ _ _).trans (congrArg _ (funext fun outcome => ?_))
  cases outcome <;> rfl

/-- How a session ends with the outcome of a command. -/
def endingOf : Except Error Unit → Ending
  | .ok () => .succeeded
  | .error error => .failed error

/-- The steps with which a session ends after a command. -/
def lastSteps : Except Error Unit → List Step
  | .ok () => []
  | .error error => if error ≠ .crash then [⟨.report (.failed error), ()⟩] else []

theorem yields_conclude_iff {outcome : Except Error Unit} {ending : Ending} :
    Yields (conclude outcome) steps ending ↔
      steps = lastSteps outcome ∧ ending = endingOf outcome := by
  cases outcome with
  | ok value => exact Procedure.yields_done_iff
  | error error =>
    by_cases hcrash : error = .crash
    · subst hcrash
      exact Procedure.yields_done_iff
    · rw [conclude, lastSteps, if_pos hcrash, if_pos hcrash]
      constructor
      · intro h
        obtain ⟨⟨⟩, rest, rfl, hdone⟩ := Procedure.yields_perform_iff.1 h
        obtain ⟨rfl, rfl⟩ := Procedure.yields_done_iff.1 hdone
        exact ⟨rfl, rfl⟩
      · rintro ⟨rfl, rfl⟩
        exact Procedure.yields_perform_iff.2 ⟨(), [], rfl, .done _⟩

/-- A session with a command does what the command does, and then the last steps. -/
theorem yields_session_iff {subcommand : Subcommand} {given : Given} {ending : Ending}
    (h : parse arguments = .ok (subcommand, given)) :
    Yields (session environment arguments) steps ending ↔
      ∃ before outcome, Yields (execute subcommand (optionsOf environment given)).run before
          outcome ∧
        steps = before ++ lastSteps outcome ∧ ending = endingOf outcome := by
  rw [session_of_ok h, Procedure.yields_bind_iff]
  constructor
  · rintro ⟨before, outcome, after, rfl, hbefore, hafter⟩
    obtain ⟨rfl, rfl⟩ := yields_conclude_iff.1 hafter
    exact ⟨before, outcome, hbefore, rfl, rfl⟩
  · rintro ⟨before, outcome, hbefore, rfl, rfl⟩
    exact ⟨before, outcome, _, rfl, hbefore, yields_conclude_iff.2 ⟨rfl, rfl⟩⟩

/-- Whether a session ends in a notice is up to the arguments, and so is which one. -/
theorem yields_noticed_iff {notice : Notice} :
    Yields (session environment arguments) steps (.noticed notice) ↔
      parse arguments = .error notice ∧ steps = [] := by
  constructor
  · intro h
    cases hparse : parse arguments with
    | error notice' =>
      rw [session_of_error hparse] at h
      obtain ⟨rfl, ⟨⟩⟩ := Procedure.yields_done_iff.1 h
      exact ⟨rfl, rfl⟩
    | ok command =>
      obtain ⟨_, outcome, -, -, hending⟩ := (yields_session_iff hparse).1 h
      cases outcome <;> cases hending
  · rintro ⟨hparse, rfl⟩
    rw [session_of_error hparse]
    exact .done _

/-! ## Configurations -/

/-- The letters that are drawn in these steps. -/
def drawnLetters (steps : List Step) : List Char :=
  steps.filterMap fun
    | ⟨.drawLetter, index⟩ => some (letter index)
    | _ => none

@[simp]
theorem drawnLetters_append (before after : List Step) :
    drawnLetters (before ++ after) = drawnLetters before ++ drawnLetters after :=
  List.filterMap_append

theorem yields_drawLetters {ε : Type} {count : Nat} {result : Except ε (List Char)}
    (h : Yields (drawLetters count : Task ε (List Char)).run steps result) :
    result = .ok (drawnLetters steps) ∧ (drawnLetters steps).length = count := by
  induction count generalizing steps result with
  | zero =>
    obtain ⟨rfl, rfl⟩ := Procedure.yields_done_iff.1 h
    exact ⟨rfl, rfl⟩
  | succ count ih =>
    obtain ⟨index, rest, rfl, hrest⟩ := Task.yields_act_bind_iff.1 h
    obtain ⟨_, hfailed, -⟩ | ⟨before, letters, after, rfl, hbefore, hafter⟩ :=
      Task.yields_bind_iff.1 hrest
    · cases (ih hfailed).1
    · obtain ⟨⟨⟩, hlength⟩ := ih hbefore
      obtain ⟨rfl, rfl⟩ := Procedure.yields_done_iff.1 hafter
      rw [List.append_nil]
      exact ⟨rfl, congrArg (· + 1) hlength⟩

/-- A configuration is made of the options, of a working directory and of letters that are drawn. -/
theorem yields_configure {options : Options} {config : Config}
    (h : Yields (configure options).run steps (.ok config)) :
    (∃ directory, config = .ofOptions options directory (String.ofList (drawnLetters steps))) ∧
      (drawnLetters steps).length = testBranchIdLength := by
  obtain ⟨_, rest, rfl, hrest⟩ := Task.yields_act_bind_iff.1 h
  obtain ⟨directory, rfl, hdirectory⟩ := Task.yields_orThrow_bind_ok_iff.1 hrest
  obtain ⟨_, -, ⟨⟩⟩ | ⟨drawn, letters, after, rfl, hdrawn, hafter⟩ :=
    Task.yields_bind_iff.1 hdirectory
  obtain ⟨⟨⟩, hlength⟩ := yields_drawLetters hdrawn
  obtain ⟨rfl, ⟨⟩⟩ := Procedure.yields_done_iff.1 hafter
  rw [List.append_nil]
  exact ⟨⟨directory, rfl⟩, hlength⟩

/-- Finding the cluster adds nothing to a configuration. -/
theorem yields_configureWithCluster {options : Options} {config : Config}
    (h : Yields (configureWithCluster options).run steps (.ok config)) :
    (∃ directory, config = .ofOptions options directory (String.ofList (drawnLetters steps))) ∧
      (drawnLetters steps).length = testBranchIdLength := by
  obtain ⟨_, -, ⟨⟩⟩ | ⟨before, made, after, rfl, hmade, hafter⟩ := Task.yields_bind_iff.1 h
  obtain ⟨connected, rest, rfl, hrest⟩ := Task.yields_act_bind_iff.1 hafter
  obtain ⟨_, rfl, hconfig⟩ := Task.yields_orThrow_bind_ok_iff.1 hrest
  obtain ⟨rfl, ⟨⟩⟩ := Procedure.yields_done_iff.1 hconfig
  have hdrawn : drawnLetters (before ++ [⟨.connect, .ok ()⟩]) = drawnLetters before := by
    rw [drawnLetters_append]
    exact List.append_nil _
  rw [hdrawn]
  exact yields_configure hmade

/-- What making a configuration can do. -/
inductive ConfiguringAction : Action → Prop where
  | findWorkingDirectory : ConfiguringAction .findWorkingDirectory
  | drawLetter : ConfiguringAction .drawLetter
  | connect : ConfiguringAction .connect

theorem performs_drawLetters {ε : Type} {property : Action → Prop} (h : property .drawLetter)
    (count : Nat) : Performs property (drawLetters count : Task ε (List Char)).run := by
  induction count with
  | zero => exact Task.performs_pure _
  | succ count ih =>
    refine Task.performs_bind (Task.performs_act h) fun _ => ?_
    exact Task.performs_bind ih fun _ => Task.performs_pure _

theorem performs_configure (options : Options) :
    Performs ConfiguringAction (configure options).run := by
  refine Task.performs_bind (Task.performs_act .findWorkingDirectory) fun _ => ?_
  refine Task.performs_bind (Task.performs_orThrow _ _) fun _ => ?_
  exact Task.performs_bind (performs_drawLetters .drawLetter _) fun _ => Task.performs_pure _

theorem performs_configureWithCluster (options : Options) :
    Performs ConfiguringAction (configureWithCluster options).run := by
  refine Task.performs_bind (performs_configure options) fun _ => ?_
  refine Task.performs_bind (Task.performs_act .connect) fun _ => ?_
  exact Task.performs_bind (Task.performs_orThrow _ _) fun _ => Task.performs_pure _

/-- The working directory is asked for once, so a configuration is made in the one that is told. -/
theorem exists_ofOptions_of_configure {options : Options} {config : Config} {directory : Path}
    (h : Yields (configure options).run steps (.ok config))
    (htold : ⟨.findWorkingDirectory, Except.ok directory⟩ ∈ steps) :
    ∃ testBranchId, config = .ofOptions options directory testBranchId := by
  obtain ⟨_, rest, rfl, hrest⟩ := Task.yields_act_bind_iff.1 h
  obtain ⟨found, rfl, hfound⟩ := Task.yields_orThrow_bind_ok_iff.1 hrest
  have hletters : ∀ step ∈ rest, step.action = .drawLetter :=
    @Performs.of_mem_steps _ (fun action => action = .drawLetter) _ _ _
      (Task.performs_bind (performs_drawLetters (by rfl) _) fun _ => Task.performs_pure _) hfound
  obtain rfl : found = directory := by
    rcases List.mem_cons.1 htold with heq | hmem
    · cases heq
      rfl
    · cases hletters _ hmem
  obtain ⟨_, -, ⟨⟩⟩ | ⟨_, letters, _, -, -, hmade⟩ := Task.yields_bind_iff.1 hfound
  obtain ⟨-, ⟨⟩⟩ := Procedure.yields_done_iff.1 hmade
  exact ⟨String.ofList letters, rfl⟩

/-- Finding the cluster tells no working directory. -/
theorem exists_ofOptions_of_configureWithCluster {options : Options} {config : Config}
    {directory : Path} (h : Yields (configureWithCluster options).run steps (.ok config))
    (htold : ⟨.findWorkingDirectory, Except.ok directory⟩ ∈ steps) :
    ∃ testBranchId, config = .ofOptions options directory testBranchId := by
  obtain ⟨_, -, ⟨⟩⟩ | ⟨before, made, after, rfl, hmade, hafter⟩ := Task.yields_bind_iff.1 h
  obtain ⟨connected, rest, rfl, hrest⟩ := Task.yields_act_bind_iff.1 hafter
  obtain ⟨_, -, hconfig⟩ := Task.yields_orThrow_bind_ok_iff.1 hrest
  obtain ⟨rfl, ⟨⟩⟩ := Procedure.yields_done_iff.1 hconfig
  rcases List.mem_append.1 htold with hbefore | hconnect
  · exact exists_ofOptions_of_configure hmade hbefore
  · cases List.mem_singleton.1 hconnect

end PreviewInstaller.Program

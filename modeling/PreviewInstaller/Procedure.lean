import PreviewInstaller.Cluster.Request
import PreviewInstaller.Event

set_option autoImplicit false

/-! # Procedures

A procedure is what the installer wants of the world, as a tree: it is done with a value, or it
performs an action and goes on with the answer. What the answers are is not its business: a handler
supplies them, and `Yields` says which actions and answers can lead to which value, whatever the
world does.

Every action that reaches outside is one constructor of `Action`, so a statement about all runs is a
statement about all lists of actions and answers. -/

namespace PreviewInstaller

/-- How cloning a repository ended. -/
inductive CloneOutcome where
  | done
  | failed (fault : GitFault)
  /-- The process does not survive the call. -/
  | crashed
deriving DecidableEq, Repr

/-- What a procedure can do to the world or ask of it. -/
inductive Action where
  | report (event : Event)
  /-- Asks whether a path, links followed, is a directory. -/
  | findDirectory (path : Path)
  /-- Removes a directory with everything in it. -/
  | removeDirectory (path : Path)
  /-- Clones a repository, checks out one of its branches and waits until that is done. -/
  | clone (url branch : String) (path : Path)
  /-- Adds a remote to the repository at a path. -/
  | addRemote (path : Path) (name url : String)
  /-- Starts a program and waits until it ends. -/
  | launch (command : Command)
  | send (request : Cluster.Request)
  | readClock
  | findWorkingDirectory
  /-- Finds the cluster and makes a client for it. -/
  | connect
  /-- Draws one letter of the alphabet. -/
  | drawLetter

/-- What an action is answered with. -/
def Action.Answer : Action → Type
  | .report _ => Unit
  | .findDirectory _ => Bool
  | .removeDirectory _ => Except DiskFault Unit
  | .clone .. => CloneOutcome
  | .addRemote .. => Except GitFault Unit
  | .launch _ => Except DiskFault ExitStatus
  | .send _ => Cluster.Reply
  | .readClock => Instant
  | .findWorkingDirectory => Except DiskFault Path
  | .connect => Except Cluster.ClientFault Unit
  | .drawLetter => Fin 26

/-- A tree of actions that ends in a value. -/
inductive Procedure (α : Type) where
  | done (value : α)
  | perform (action : Action) (resume : action.Answer → Procedure α)

namespace Procedure

variable {α β : Type}

/-- The first procedure, and then the second with its value. -/
def bind : Procedure α → (α → Procedure β) → Procedure β
  | .done value, next => next value
  | .perform action resume, next => .perform action fun answer => bind (resume answer) next

instance : Monad Procedure where
  pure := .done
  bind := bind

theorem bind_done (procedure : Procedure α) : procedure.bind .done = procedure := by
  induction procedure with
  | done value => rfl
  | perform action resume ih => simp only [bind, ih]

theorem bind_bind {γ : Type} (procedure : Procedure α) (f : α → Procedure β)
    (g : β → Procedure γ) :
    (procedure.bind f).bind g = procedure.bind fun value => (f value).bind g := by
  induction procedure with
  | done value => rfl
  | perform action resume ih => simp only [bind, ih]

instance : LawfulMonad Procedure :=
  LawfulMonad.mk' Procedure (fun procedure => bind_done procedure) (fun _ _ => rfl)
    (fun procedure f g => bind_bind procedure f g)

/-- An action by itself. -/
def act (action : Action) : Procedure action.Answer :=
  .perform action .done

/-! ## Running -/

/-- What supplies the answers, with a state of its own. -/
structure Handler (World : Type) where
  answer : (action : Action) → World → action.Answer × World

/-- The value that a procedure ends in, and the world it leaves. -/
def run {World : Type} (handler : Handler World) : Procedure α → World → α × World
  | .done value, world => (value, world)
  | .perform action resume, world =>
    let (answer, world) := handler.answer action world
    run handler (resume answer) world

/-- An action with its answer. -/
structure Step where
  action : Action
  answer : action.Answer

/-- The steps that lead a procedure to a value. -/
inductive Yields : Procedure α → List Step → α → Prop where
  | done (value : α) : Yields (.done value) [] value
  | perform {action : Action} {resume : action.Answer → Procedure α} {steps : List Step}
      {value : α} (answer : action.Answer) :
      Yields (resume answer) steps value →
        Yields (.perform action resume) (⟨action, answer⟩ :: steps) value

/-- A sequence leads where its second part leads from the value of the first one. -/
theorem yields_bind_iff {procedure : Procedure α} {next : α → Procedure β} {steps : List Step}
    {result : β} :
    Yields (procedure.bind next) steps result ↔
      ∃ before value after, steps = before ++ after ∧ Yields procedure before value ∧
        Yields (next value) after result := by
  constructor
  · intro h
    induction procedure generalizing steps with
    | done value => exact ⟨[], value, steps, rfl, .done value, h⟩
    | perform action resume ih =>
      cases h with
      | perform answer h =>
        obtain ⟨before, value, after, rfl, hbefore, hafter⟩ := ih answer h
        exact ⟨_ :: before, value, after, rfl, .perform answer hbefore, hafter⟩
  · rintro ⟨before, value, after, rfl, hbefore, hafter⟩
    induction hbefore with
    | done value => exact hafter
    | perform answer _ ih => exact .perform answer (ih hafter)

end Procedure

/-- A procedure that can end early with an error. -/
abbrev Task (ε α : Type) := ExceptT ε Procedure α

namespace Task

variable {ε : Type}

/-- An action that a task cannot fail in. -/
def act (action : Action) : Task ε action.Answer :=
  ExceptT.lift (Procedure.act action)

/-- Reports an event. -/
def report (event : Event) : Task ε Unit :=
  act (.report event)

/-- Sends a request and waits for the reply. -/
def send (request : Cluster.Request) : Task ε Cluster.Reply :=
  act (.send request)

/-- The present instant. -/
def readClock : Task ε Instant :=
  act .readClock

/-- Whether a path, links followed, is a directory. -/
def findDirectory (path : Path) : Task ε Bool :=
  act (.findDirectory path)

/-- Clones a repository and checks out one of its branches. -/
def clone (url branch : String) (path : Path) : Task ε CloneOutcome :=
  act (.clone url branch path)

/-- Removes a directory with everything in it. -/
def removeDirectory (path : Path) : Task ε (Except DiskFault Unit) :=
  act (.removeDirectory path)

/-- Adds a remote to the repository at a path. -/
def addRemote (path : Path) (name url : String) : Task ε (Except GitFault Unit) :=
  act (.addRemote path name url)

/-- Starts a program and waits until it ends. -/
def launch (command : Command) : Task ε (Except DiskFault ExitStatus) :=
  act (.launch command)

/-- The working directory. -/
def findWorkingDirectory : Task ε (Except DiskFault Path) :=
  act .findWorkingDirectory

/-- Finds the cluster and makes a client for it. -/
def connect : Task ε (Except Cluster.ClientFault Unit) :=
  act .connect

/-- One letter of the alphabet. -/
def drawLetter : Task ε (Fin 26) :=
  act .drawLetter

/-- The value of an outcome, or its fault as an error. -/
def orThrow {α φ : Type} (toError : φ → ε) : Except φ α → Task ε α
  | .ok value => pure value
  | .error fault => throw (toError fault)

/-- A task with its faults as other errors. -/
def mapFault {α φ : Type} (toError : φ → ε) (task : Task φ α) : Task ε α :=
  ExceptT.mk ((Except.mapError toError ·) <$> task.run)

/-- The outcome of a task, as a value of a task that cannot fail. -/
def outcome {α φ : Type} (task : Task φ α) : Task ε (Except φ α) :=
  ExceptT.lift task.run

end Task

end PreviewInstaller

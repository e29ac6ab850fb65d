import PreviewInstaller.Machine
import PreviewInstaller.Proofs.Cluster.Client
import PreviewInstaller.Proofs.Cluster.Server

set_option autoImplicit false

/-! # Machines with a cluster

A world is a machine and what the server of the cluster keeps. The server answers the requests, and
the machine answers everything else. -/

namespace PreviewInstaller.Cluster

open Procedure (Handler)

/-- A machine and what a server keeps. -/
structure World where
  machine : Machine
  store : Store

/-- A machine with nothing on it, on the first day of 1970. -/
def bareMachine : Machine where
  disk := ⟨[]⟩
  environment := .empty
  workingDirectory := some []
  aliases := []
  network := .unreachable
  clusterFault := none
  clock := .epoch
  letters := []
  transcript := []
  requests := []

/-- A store that keeps nothing. -/
def Store.empty : Store where
  objects _ _ := none
  served := 0

namespace World

variable (server : Server)

/-- The answer to an action, and the world after it. -/
def answer (world : World) : (action : Action) → action.Answer × World
  | .send request =>
    let (reply, store) := server.serve world.store request
    (reply, { world with store })
  | action =>
    let (answer, machine) := world.machine.answer action
    (answer, { world with machine })

/-- What a world does with procedures. -/
def handler : Handler World :=
  ⟨fun action world => world.answer server action⟩

/-- The value of a procedure in a world, and the world after it. -/
def run {α : Type} (procedure : Procedure α) (world : World) : α × World :=
  procedure.run (handler server) world

/-- A call ends in what the reply to its request is read as. -/
theorem run_call {α : Type} (codec : Codec α) {request : Request}
    (huri : request.uri?.isSome = true) (world : World) :
    run server (call codec request).run world =
      ((server.serve world.store request).1.decode codec,
        { world with store := (server.serve world.store request).2 }) := by
  rw [Cluster.run_call huri]
  rfl

/-- No action changes the time that the clock shows. -/
theorem clock_run {α : Type} (procedure : Procedure α) (world : World) :
    (run server procedure world).2.machine.clock = world.machine.clock := by
  let clock (world : World) : Instant := world.machine.clock
  have hkept : ∀ action world, True →
      clock ((handler server).answer action world).2 = clock world := by
    rintro action world -
    cases action <;> rfl
  exact (Procedure.Performs.of_forall (fun _ => trivial) procedure).run_unchanged
    (handler server) hkept world

end World

end PreviewInstaller.Cluster

import PreviewInstaller.Proofs.Cluster.World

set_option autoImplicit false

/-! # Requests as bytes

A request reaches the server as bytes: its body is printed, and the server reads the print. Nothing
is lost on the way as long as the body has meaning throughout, whatever characters its texts hold,
so a server that reads bytes does what one that is handed the requests does. -/

namespace PreviewInstaller.Cluster

open Procedure (Handler Performs)

namespace Request

/-- The request with its body as it is read from the bytes that were sent; `none` if they cannot be
read. -/
def arrived? : Request → Option Request
  | .get collection name => some (.get collection name)
  | .create collection body => (jsonOfBytes? (bodyOf body)).map (.create collection ·)
  | .replace collection name body => (jsonOfBytes? (bodyOf body)).map (.replace collection name ·)
  | .mergePatch collection name patch =>
    (jsonOfBytes? (bodyOf patch)).map (.mergePatch collection name ·)

/-- The body of a request, if it has one, has meaning throughout. -/
def IsReadable (request : Request) : Prop :=
  ∀ body, request.body? = some body → body.isReadable = true

/-- A readable request arrives as it was sent. -/
theorem IsReadable.arrived?_eq {request : Request} (h : request.IsReadable) :
    request.arrived? = some request := by
  cases request with
  | get collection name => rfl
  | create collection body =>
    rw [arrived?, jsonOfBytes?_bodyOf (h body rfl), Option.map_some]
  | replace collection name body =>
    rw [arrived?, jsonOfBytes?_bodyOf (h body rfl), Option.map_some]
  | mergePatch collection name patch =>
    rw [arrived?, jsonOfBytes?_bodyOf (h patch rfl), Option.map_some]

end Request

/-! ## Servers and worlds -/

variable (server : Server)

/-- The reply to a request that is read from its bytes, and what is kept after it. A request that
cannot be read is refused. -/
def Server.receive (store : Store) (request : Request) : Reply × Store :=
  match request.arrived? with
  | some arrived => server.serve store arrived
  | none => (server.refuse store.served 400, { store with served := store.served + 1 })

namespace World

/-- What a world does with procedures whose requests are sent as bytes. -/
def wire : Handler World where
  answer
    | .send request, world =>
      let (reply, store) := server.receive world.store request
      (reply, { world with store })
    | action, world => world.answer server action

/-- The value of a procedure whose requests are sent as bytes, and the world after it. -/
def runWired {α : Type} (procedure : Procedure α) (world : World) : α × World :=
  procedure.run (wire server) world

/-- Any request that is sent is readable. -/
def SendsReadable : Action → Prop
  | .send request => request.IsReadable
  | _ => True

/-- A procedure that sends readable requests runs as if the server were handed them. -/
theorem runWired_eq {α : Type} {procedure : Procedure α} (h : Performs SendsReadable procedure)
    (world : World) : runWired server procedure world = run server procedure world := by
  refine h.run_congr (fun action world haction => ?_) world
  cases action with
  | send request =>
    simp only [wire, handler, answer, Server.receive, haction.arrived?_eq]
  | _ => rfl

end World

end PreviewInstaller.Cluster

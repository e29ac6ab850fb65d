import PreviewInstaller.Disk.Launch
import PreviewInstaller.Git.Cloning
import PreviewInstaller.Procedure

set_option autoImplicit false

/-! # A machine

A machine answers the actions of procedures without any system behind it: it has a disk, variables,
a clock, letters to draw and a network whose replies are known beforehand. It keeps a transcript of
all that was reported and printed, and of the requests that reached the network. -/

namespace PreviewInstaller

/-- What carries requests to the cluster. -/
inductive Network where
  /-- Requests are answered with these replies in turn; after that the service fails. -/
  | scripted (replies : List Cluster.Reply)
  /-- Requests do not get out. -/
  | unreachable
deriving DecidableEq, Repr

/-- A line or a piece of text that left the machine. -/
inductive Emission where
  | reported (event : Event)
  | printed (printed : Printed)
  /-- A fault of the transport, as the cluster client logs it. -/
  | transportFault (text : String)
deriving DecidableEq, Repr

/-- A machine. -/
structure Machine where
  disk : Disk
  environment : TextMap String
  /-- The working directory, unless it was removed. -/
  workingDirectory : Option Location
  /-- The starts of urls that stand for others. -/
  aliases : List (String × String)
  network : Network
  /-- Why there is no cluster, if there is none. -/
  clusterFault : Option Cluster.ClientFault
  clock : Instant
  /-- The letters that are drawn, the first one over and over when they are used up. -/
  letters : List (Fin 26)
  /-- What was reported and printed, the latest first. -/
  transcript : List Emission
  /-- The requests that reached the network, the latest first. -/
  requests : List Cluster.Request

namespace Machine

/-- The location that relative paths are seen from. -/
def here (machine : Machine) : Location :=
  machine.workingDirectory.getD []

/-- The machine with more in its transcript. -/
def record (machine : Machine) (entries : List Emission) : Machine :=
  { machine with transcript := entries.reverse ++ machine.transcript }

/-- What the service says when it has no more replies. -/
def noReplyLeft : Cluster.Reply :=
  .serviceFailure "no response left"

/-- What the transport says when requests do not get out. -/
def unreachableText : String :=
  "error trying to connect: tcp connect error: Network is unreachable (os error 101)"

/-- The reply to a request. -/
def send (machine : Machine) (request : Cluster.Request) : Cluster.Reply × Machine :=
  match machine.network with
  | .unreachable =>
    (.connectionFailure unreachableText, machine.record [.transportFault unreachableText])
  | .scripted replies =>
    (replies.head?.getD noReplyLeft,
      { machine with
        network := .scripted replies.tail
        requests := request :: machine.requests })

/-- The answer to an action, and the machine after it. -/
def answer (machine : Machine) : (action : Action) → action.Answer × Machine
  | .report event => ((), machine.record [.reported event])
  | .findDirectory path => (machine.disk.isDirectory machine.here path, machine)
  | .removeDirectory path =>
    let (outcome, disk) := machine.disk.removeTree machine.here path
    (outcome, { machine with disk })
  | .clone url branch path =>
    let (outcome, disk) := Git.clone machine.disk machine.here machine.aliases url branch path
    (outcome, { machine with disk })
  | .addRemote path name url =>
    let (outcome, disk) := Git.addRemote machine.disk machine.here path name url
    (outcome, { machine with disk })
  | .launch command =>
    let (outcome, printed, disk) :=
      machine.disk.launch machine.here machine.environment command
    (outcome, { machine with disk }.record (printed.map .printed))
  | .send request => machine.send request
  | .readClock => (machine.clock, machine)
  | .findWorkingDirectory =>
    (match machine.workingDirectory with
      | some location => .ok ⟨Disk.locationText location⟩
      | none => .error .noSuchFile, machine)
  | .connect =>
    (match machine.clusterFault with
      | some fault => .error fault
      | none => .ok (), machine)
  | .drawLetter =>
    (machine.letters.head?.getD 0, { machine with letters := machine.letters.tail })

/-- What a machine does with procedures. -/
def handler : Procedure.Handler Machine :=
  ⟨fun action machine => machine.answer action⟩

/-- The value of a procedure on a machine, and the machine after it. -/
def run {α : Type} (machine : Machine) (procedure : Procedure α) : α × Machine :=
  procedure.run handler machine

/-! ## What a machine shows -/

/-- What was reported and printed, in order. -/
def entries (machine : Machine) : List Emission :=
  machine.transcript.reverse

/-- The events that were reported, in order. -/
def events (machine : Machine) : List Event :=
  machine.entries.filterMap fun
    | .reported event => some event
    | _ => none

/-- What was printed to the standard output. -/
def output (machine : Machine) : String :=
  String.join (machine.entries.filterMap fun
    | .printed (.output text) => some text
    | _ => none)

/-- What was printed to the standard error. -/
def errorOutput (machine : Machine) : String :=
  String.join (machine.entries.filterMap fun
    | .printed (.error text) => some text
    | _ => none)

/-- The replies that were not used. -/
def unusedReplies (machine : Machine) : List Cluster.Reply :=
  match machine.network with
  | .scripted replies => replies
  | .unreachable => []

end Machine

end PreviewInstaller

import PreviewInstaller.Command
import PreviewInstaller.Disk.Tree
import PreviewInstaller.TextMap

set_option autoImplicit false

/-! # Launching programs from a disk

A command is started in its working directory. What it names has to be a script that may be run;
its steps then print, make files and end the script. -/

namespace PreviewInstaller

/-- What a program has printed. -/
inductive Printed where
  | output (text : String)
  | error (text : String)
deriving DecidableEq, Repr

namespace Disk

/-- The text of a location. -/
def locationText (location : Location) : String :=
  "/" ++ "/".intercalate location

/-- Makes an empty file where nothing stands. -/
def touch (disk : Disk) (here : Location) (path : Path) : Disk :=
  match disk.follow here path, disk.locate here path with
  | .error .noSuchFile, .ok location =>
    if namesDirectory path then disk
    else disk.insert location (.file ⟨.text "", File.plainMode false⟩)
  | _, _ => disk

/-- What a script runs with. -/
structure Surroundings where
  directory : Location
  arguments : List String
  environment : TextMap String

/-- The line on a variable. -/
def variableLine (environment : TextMap String) (name : String) : String :=
  match environment.get? name with
  | some value => name ++ "=" ++ value ++ "\n"
  | none => name ++ " unset\n"

/-- The line on arguments: their number and each of them in brackets. -/
def argumentsLine (arguments : List String) : String :=
  "[" ++ toString arguments.length ++ "]" ++
    String.join (arguments.map fun argument => "[" ++ argument ++ "]") ++ "\n"

/-- Runs the steps of a script until one ends it. -/
def runSteps (surroundings : Surroundings) (disk : Disk) :
    List ScriptStep → ExitStatus × List Printed × Disk
  | [] => (.exited 0, [], disk)
  | step :: rest =>
    let goOn (printed : List Printed) (disk : Disk) : ExitStatus × List Printed × Disk :=
      let (status, more, disk) := runSteps surroundings disk rest
      (status, printed ++ more, disk)
    match step with
    | .printArguments => goOn [.output (argumentsLine surroundings.arguments)] disk
    | .printDirectory => goOn [.output (locationText surroundings.directory ++ "\n")] disk
    | .printVariable name => goOn [.output (variableLine surroundings.environment name)] disk
    | .print text => goOn [.output (text ++ "\n")] disk
    | .printError text => goOn [.error (text ++ "\n")] disk
    | .touch path => goOn [] (disk.touch surroundings.directory ⟨path⟩)
    | .exit code => (.exited (code % 256), [], disk)
    | .signal number => (.signalled number, [], disk)

/-- The shell, which every system has. -/
def shell : String := "/bin/sh"

/-- The program that a text names as its interpreter. -/
def interpreter? (text : String) : Option String :=
  (Text.after? "#!" text).map fun rest =>
    let line := ((Text.firstLine rest).toList.dropWhile fun c => c = ' ' || c = '\t')
    String.ofList (line.takeWhile fun c => c ≠ ' ' && c ≠ '\t')

/-- The steps of the program in a file. A text for the shell does nothing. -/
def program (file : File) : Except DiskFault (List ScriptStep) :=
  if !file.isRunnable then .error .permissionDenied
  else
    match file.content with
    | .script steps => .ok steps
    | .text text =>
      match interpreter? text with
      | none => .error .execFormat
      | some interpreter => if interpreter = shell then .ok [] else .error .noSuchFile

/-- Whether a command holds a NUL byte, which no process can be started with. -/
def commandHasNul (command : Command) : Bool :=
  command.program.hasNul || command.workingDirectory.hasNul ||
    command.arguments.any (·.toList.contains '\x00') ||
    command.environment.any fun (name, value) =>
      name.toList.contains '\x00' || value.toList.contains '\x00'

/-- The program that a command names and the directory it runs in. -/
def prepare (disk : Disk) (here : Location) (command : Command) :
    Except DiskFault (Location × List ScriptStep) := do
  if commandHasNul command then throw .nulByte
  let directory ← disk.follow here command.workingDirectory
  if !(disk.entry? directory).any Entry.isDirectory then throw .notDirectory
  let location ← disk.follow directory command.program
  match disk.entry? location with
  | some (.file file) => return (directory, ← program file)
  | _ => throw .permissionDenied

/-- The variables that a child has: those of the command over the inherited ones. -/
def childVariables (inherited : TextMap String) (command : Command) : TextMap String :=
  command.environment.foldl (fun known (name, value) => known.insert name value) inherited

/-- Starts a command and runs it to its end. -/
def launch (disk : Disk) (here : Location) (inherited : TextMap String) (command : Command) :
    Except DiskFault ExitStatus × List Printed × Disk :=
  match disk.prepare here command with
  | .error fault => (.error fault, [], disk)
  | .ok (directory, steps) =>
    let surroundings : Surroundings :=
      { directory
        arguments := command.arguments
        environment := childVariables inherited command }
    let (status, printed, disk) := runSteps surroundings disk steps
    (.ok status, printed, disk)

end Disk

end PreviewInstaller

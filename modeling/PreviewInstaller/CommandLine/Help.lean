import PreviewInstaller.CommandLine.Flag

set_option autoImplicit false

/-! # Help

The help of the program, of its `help` subcommand and of the others. The help of a flag shows the
value of its variable unless that is a secret. -/

namespace PreviewInstaller.CommandLine

/-- What variables are set to. -/
abbrev Environment := TextMap String

/-- What help is about. -/
inductive Topic where
  | program
  | help
  | subcommand (subcommand : Subcommand)
deriving DecidableEq, Repr

/-- Lines that each end in a line feed. -/
def paragraph (lines : List String) : String :=
  String.join (lines.map (· ++ "\n"))

/-- A text with spaces behind it up to a width. -/
def column (width : Nat) (text : String) : String :=
  text ++ String.ofList (List.replicate (width - text.length) ' ')

/-- A text whose further lines are indented. -/
def indented (width : Nat) (text : String) : String :=
  let indent := List.replicate width ' '
  String.ofList (text.toList.flatMap fun c => if c = '\n' then '\n' :: indent else [c])

/-- The note on the variable of a flag. -/
def variableNote (environment : Environment) (flag : Flag) : String :=
  match flag.variableName? with
  | none => ""
  | some name =>
    if flag.isSecret then " [env: " ++ name ++ "]"
    else " [env: " ++ name ++ "=" ++ (environment.get? name).getD "" ++ "]"

/-- The note on the default of a flag. -/
def defaultNote (flag : Flag) : String :=
  match flag.default? with
  | none => ""
  | some "" => " [default: \"\"]"
  | some value => " [default: " ++ value ++ "]"

/-- The lines on a flag. -/
def flagLines (environment : Environment) (flag : Flag) : List String :=
  ["      " ++ flag.usage,
   "          " ++ indented 10 (flag.about ++ variableNote environment flag ++ defaultNote flag)]

/-- The list of subcommands. -/
def subcommandLines : List String :=
  let entries := Subcommand.all.map (fun s => (s.name, s.about)) ++ [(helpName, helpAbout)]
  entries.map fun (name, about) => "  " ++ column 16 name ++ about

/-- The help on a topic. -/
def helpText (environment : Environment) : Topic → String
  | .program =>
    paragraph ([programAbout, "", "Usage: " ++ programName ++ " <COMMAND>", "", "Commands:"] ++
      subcommandLines ++
      ["", "Options:", "  -h, --help     Print help", "  -V, --version  Print version"])
  | .help =>
    paragraph [helpAbout, "", "Usage: " ++ programName ++ " help [COMMAND]...", "", "Arguments:",
      "  [COMMAND]...  Print help for the subcommand(s)"]
  | .subcommand subcommand =>
    paragraph ([subcommand.about, "",
        "Usage: " ++ programName ++ " " ++ subcommand.name ++ " [OPTIONS]", "", "Options:"] ++
      Flag.all.flatMap (flagLines environment) ++ ["  -h, --help", "          Print help"])

/-- The version of the program. -/
def versionText : String :=
  paragraph [programName ++ " " ++ programVersion]

end PreviewInstaller.CommandLine

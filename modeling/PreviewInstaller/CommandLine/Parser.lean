import PreviewInstaller.CommandLine.Help

set_option autoImplicit false

/-! # Parsing the command line

A command line names a subcommand and gives flags their values, each flag at most once. Whatever
else it says yields a notice: the help or the version that it asks for, or what is wrong with it.

The value of a flag is the next argument unless that starts with a dash and has more than it, or
what follows an equals sign in the same argument. A flag with its value behind it is recorded only
when the next flag comes or the arguments end; an argument that belongs to nothing is reported
before that. -/

namespace PreviewInstaller.CommandLine

/-! ## Notices -/

/-- Why the arguments yield no command. -/
inductive Notice where
  | help (topic : Topic)
  | version
  /-- No subcommand is named. -/
  | nothingAsked
  | unknownArgument (argument : String)
  | unknownSubcommand (name : String)
  | missingValue (flag : Flag)
  | repeatedFlag (flag : Flag)
  /-- `value` is given to a switch that takes none. -/
  | unwantedValue (switch value : String)
deriving DecidableEq, Repr

namespace Notice

/-- Whether a notice is what the user asked for. -/
def isWanted : Notice → Bool
  | .help _ | .version => true
  | _ => false

/-- The exit code that a notice ends the program with. -/
def exitCode (notice : Notice) : Nat :=
  if notice.isWanted then 0 else 2

/-- The text of a notice: all of it if it is wanted, else its first line. The hints and the usage
behind that line are left out. -/
def message (environment : Environment) : Notice → String
  | .help topic => helpText environment topic
  | .version => versionText
  | .nothingAsked => ""
  | .unknownArgument argument => "error: unexpected argument '" ++ argument ++ "' found"
  | .unknownSubcommand name => "error: unrecognized subcommand '" ++ name ++ "'"
  | .missingValue flag =>
    "error: a value is required for '" ++ flag.usage ++ "' but none was supplied"
  | .repeatedFlag flag =>
    "error: the argument '" ++ flag.usage ++ "' cannot be used multiple times"
  | .unwantedValue switch value =>
    "error: unexpected value '" ++ value ++ "' for '" ++ switch ++
      "' found; no more were expected"

end Notice

/-! ## Arguments -/

/-- What an argument looks like. -/
inductive Argument where
  /-- Two dashes and nothing else: no flags follow. -/
  | endOfFlags
  /-- Two dashes, a name and perhaps a value behind an equals sign. -/
  | long (name : String) (value : Option String)
  /-- One dash and letters, of which the first one decides. -/
  | short (letter : Char)
  /-- Anything else, a dash alone among it. -/
  | plain
deriving DecidableEq, Repr

/-- What an argument looks like. -/
def Argument.ofText (text : String) : Argument :=
  match text.toList with
  | ['-', '-'] => .endOfFlags
  | '-' :: '-' :: rest =>
    let name := String.ofList (rest.takeWhile (· ≠ '='))
    match rest.dropWhile (· ≠ '=') with
    | [] => .long name none
    | _ :: value => .long name (some (String.ofList value))
  | '-' :: letter :: _ => .short letter
  | _ => .plain

/-- A short switch as it is reported. -/
def dashed (letter : Char) : String :=
  String.ofList ['-', letter]

/-! ## Flags of a subcommand -/

/-- The flags that are given, with their values. -/
abbrev Given := List (Flag × String)

/-- The value that a flag is given. -/
def Given.value? (given : Given) (flag : Flag) : Option String :=
  List.lookup flag given

/-- Flags so far, and the one under way, perhaps with its value. -/
structure Progress where
  given : Given := []
  pending : Option (Flag × Option String) := none

namespace Progress

/-- Records a flag with its value. -/
def record (given : Given) (flag : Flag) (value : String) : Except Notice Given :=
  if (given.value? flag).isSome then .error (.repeatedFlag flag)
  else .ok (given ++ [(flag, value)])

/-- The flags given, with the one under way among them. -/
def settle (progress : Progress) : Except Notice Given :=
  match progress.pending with
  | none => .ok progress.given
  | some (flag, none) => .error (.missingValue flag)
  | some (flag, some value) => record progress.given flag value

/-- Whether the flag under way lacks its value. -/
def awaiting? (progress : Progress) : Option Flag :=
  match progress.pending with
  | some (flag, none) => some flag
  | _ => none

end Progress

/-- The notice of help that is asked for after these flags. -/
def helpAfter (progress : Progress) (subcommand : Subcommand) : Notice :=
  match progress.settle with
  | .ok _ => .help (.subcommand subcommand)
  | .error notice => notice

/-- The flags that the arguments after a subcommand give. -/
def parseFlags (subcommand : Subcommand) : Progress → List String → Except Notice Given
  | progress, [] => progress.settle
  | progress, text :: rest =>
    match Argument.ofText text with
    | .endOfFlags =>
      match rest with
      | [] => progress.settle
      | stray :: _ => .error (.unknownArgument stray)
    | .long name value =>
      match Flag.ofName? name with
      | some flag => do
        match value with
        | some value =>
          let given ← Progress.record (← progress.settle) flag value
          parseFlags subcommand { given } rest
        | none =>
          let given ← progress.settle
          parseFlags subcommand { given, pending := some (flag, none) } rest
      | none =>
        if name = "help" then
          match value with
          | some value => .error (.unwantedValue "--help" value)
          | none => .error (helpAfter progress subcommand)
        else .error (.unknownArgument ("--" ++ name))
    | .short letter =>
      if letter = 'h' then .error (helpAfter progress subcommand)
      else .error (.unknownArgument (dashed letter))
    | .plain =>
      match progress.awaiting? with
      | some flag =>
        parseFlags subcommand { progress with pending := some (flag, some text) } rest
      | none => .error (.unknownArgument text)

/-! ## The program -/

/-- The notice of the `help` subcommand with these arguments. -/
def helpNotice : List String → Notice
  | [] => .help .program
  | name :: rest =>
    let topic? : Option Topic :=
      if name = helpName then some .help else (Subcommand.ofName? name).map .subcommand
    match topic?, rest with
    | none, _ => .unknownSubcommand name
    | some topic, [] => .help topic
    | some _, stray :: _ => .unknownSubcommand stray

/-- Whether a subcommand has this name. -/
def isSubcommandName (name : String) : Bool :=
  name = helpName || (Subcommand.ofName? name).isSome

/-- The subcommand and the flags that arguments give. -/
def parse : List String → Except Notice (Subcommand × Given)
  | [] => .error .nothingAsked
  | text :: rest =>
    match Argument.ofText text with
    | .endOfFlags =>
      match rest with
      | [] => .error .nothingAsked
      | stray :: _ =>
        if isSubcommandName stray then .error (.unknownArgument stray)
        else .error (.unknownSubcommand stray)
    | .long name value =>
      if name = "help" ∨ name = "version" then
        match value with
        | some value => .error (.unwantedValue ("--" ++ name) value)
        | none => .error (if name = "help" then .help .program else .version)
      else .error (.unknownArgument ("--" ++ name))
    | .short letter =>
      if letter = 'h' then .error (.help .program)
      else if letter = 'V' then .error .version
      else .error (.unknownArgument (dashed letter))
    | .plain =>
      if text = helpName then .error (helpNotice rest)
      else
        match Subcommand.ofName? text with
        | some subcommand => (subcommand, ·) <$> parseFlags subcommand {} rest
        | none => .error (.unknownSubcommand text)

/-! ## Options -/

/-- The value of a flag: what it is given, else its variable if that is set, else its default. -/
def valueOf? (environment : Environment) (given : Given) (flag : Flag) : Option String :=
  given.value? flag <|> flag.variableName?.bind environment.get? <|> flag.default?

/-- The options that flags and variables make. -/
def optionsOf (environment : Environment) (given : Given) : Options :=
  let value (flag : Flag) : String := (valueOf? environment given flag).getD ""
  { tmpDir := value .tmpDir
    infraDeploymentsBranch := value .infraDeploymentsBranch
    infraDeploymentsOrg := value .infraDeploymentsOrg
    forkRemote := value .forkRemote
    forkOrg := value .forkOrg
    quayToken := value .quayToken
    defaultQuayOrg := value .defaultQuayOrg
    defaultQuayOrgToken := value .defaultQuayOrgToken
    imageTagExpiration := value .imageTagExpiration
    githubToken := value .githubToken
    pacGithubAppId := value .pacGithubAppId
    pacGithubAppPrivateKey := value .pacGithubAppPrivateKey
    oauthRedirectProxyUrl := valueOf? environment given .oauthRedirectProxyUrl }

end PreviewInstaller.CommandLine

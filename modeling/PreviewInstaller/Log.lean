import PreviewInstaller.Machine

set_option autoImplicit false

/-! # Log lines

Which of the reports are printed is for a filter to say. A filter is a list of directives between
commas: a level for everything, a target, or a target with a level. A directive cares for the
targets that start with its own, and the longest that does decides. Without a filter, and with one
that is malformed, everything from `INFO` on is printed. -/

namespace PreviewInstaller

namespace Log

/-- How far reports go down: nothing, errors, warnings too, or all of them. -/
abbrev Verbosity := Nat

/-- The place of a level: the fewer reports, the smaller. -/
def rank : Level → Verbosity
  | .error => 1
  | .warn => 2
  | .info => 3

/-- A level of a filter for the reports whose target starts with `target`. -/
structure Directive where
  target : String
  verbosity : Verbosity
deriving DecidableEq, Repr

/-- The names of levels. -/
def verbosities : List (String × Verbosity) :=
  [("off", 0), ("error", 1), ("warn", 2), ("info", 3), ("debug", 4), ("trace", 5),
   ("0", 0), ("1", 1), ("2", 2), ("3", 3), ("4", 4), ("5", 5)]

/-- The most that a directive can ask for, and does without a level. -/
def everything : Verbosity := 5

/-- The level of a name, in letters of either case. -/
def verbosity? (name : List Char) : Option Verbosity :=
  verbosities.lookup (String.ofList (name.map Char.toLower))

/-- Whether a character can stand in a target. -/
def isTargetChar (c : Char) : Bool :=
  c.isAlphanum || c = '_' || c = ':' || c = '-'

/-- The directive of a text. -/
def directive? (text : List Char) : Option Directive :=
  match verbosity? text with
  | some verbosity => some ⟨"", verbosity⟩
  | none =>
    let target := text.takeWhile isTargetChar
    if target = [] then none
    else
      match text.dropWhile isTargetChar with
      | [] | ['='] => some ⟨String.ofList target, everything⟩
      | '=' :: level =>
        (verbosity? level).map fun verbosity => ⟨String.ofList target, verbosity⟩
      | _ => none

/-- The directives of a filter; `none` if it is malformed. -/
def directives? (text : String) : Option (List Directive) :=
  ((Text.pieces ',' text.toList).filter (· ≠ [])).mapM directive?

/-- The directives that count where the filter variable has a value, or has none. -/
def directivesOf (setting? : Option String) : List Directive :=
  (setting?.bind directives?).getD [⟨"", rank .info⟩]

/-- Whether a report of a target and level is printed. Of directives that care equally, the last
one counts. -/
def isEnabled (directives : List Directive) (target : String) (level : Level) : Bool :=
  let caring := directives.filter fun directive => Text.startsWith directive.target target
  let decisive := caring.foldl (fun best directive =>
    match best with
    | none => some directive
    | some other =>
      if other.target.length ≤ directive.target.length then some directive else best)
    (none : Option Directive)
  match decisive with
  | none => false
  | some directive => rank level ≤ directive.verbosity

/-- The target of the program's reports. -/
def programTarget : String := "appstudio_installer"

/-- The target of the cluster client's reports. -/
def clientTarget : String := "kube_client"

/-- The line of a report. -/
def line (level : Level) (message : String) : String :=
  level.name ++ " " ++ message ++ "\n"

/-- What a trace adds to the standard output of the program. -/
def printed (directives : List Directive) : Emission → String
  | .reported event =>
    if isEnabled directives programTarget event.level then line event.level event.message else ""
  | .printed (.output text) => text
  | .printed (.error _) => ""
  | .transportFault text =>
    if isEnabled directives clientTarget .error then
      line .error ("failed with error " ++ text)
    else ""

/-- The standard output of the program: log lines, and between them what its child printed. -/
def output (directives : List Directive) (machine : Machine) : String :=
  String.join (machine.entries.map (printed directives))

end Log

end PreviewInstaller

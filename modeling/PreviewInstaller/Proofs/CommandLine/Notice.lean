import PreviewInstaller.Console
import PreviewInstaller.Proofs.Program

set_option autoImplicit false

/-! # Notices

A session that ends in a notice has done nothing before, and what it shows is a function of the
arguments and of the variables that the help shows. The variables that hold secrets are not among
these, so nothing that the parser can answer tells them apart. -/

namespace PreviewInstaller.CommandLine

/-! ## Variables that are not shown -/

/-- The variables that hold secrets. -/
def hiddenVariables : List String :=
  ["QUAY_TOKEN", "DEFAULT_QUAY_ORG_TOKEN", "GITHUB_TOKEN", "E2E_PAC_GITHUB_APP_PRIVATE_KEY"]

/-- Environments with the same variables but for those that hold secrets. -/
def AgreeOnShown (first second : Environment) : Prop :=
  ∀ name, name ∉ hiddenVariables → first.get? name = second.get? name

/-- The help hides the values of these variables and of no others. -/
theorem mem_hiddenVariables_iff {flag : Flag} {name : String} (h : flag.variableName? = some name) :
    name ∈ hiddenVariables ↔ flag.isSecret = true := by
  cases flag <;> cases h <;> decide

variable {first second : Environment}

/-! ## Help -/

theorem variableNote_eq (h : AgreeOnShown first second) (flag : Flag) :
    variableNote first flag = variableNote second flag := by
  unfold variableNote
  cases hname : flag.variableName? with
  | none => rfl
  | some name =>
    -- a value is shown only if the variable is not hidden, and then it is the same
    dsimp only
    split
    · rfl
    · next hsecret => rw [h name (mt (mem_hiddenVariables_iff hname).1 hsecret)]

theorem helpText_eq (h : AgreeOnShown first second) (topic : Topic) :
    helpText first topic = helpText second topic := by
  have hlines : flagLines first = flagLines second := by
    funext flag
    rw [flagLines, flagLines, variableNote_eq h]
  cases topic with
  | program => rfl
  | help => rfl
  | subcommand subcommand => rw [helpText, helpText, hlines]

theorem message_eq (h : AgreeOnShown first second) (notice : Notice) :
    notice.message first = notice.message second := by
  cases notice with
  | help topic => exact helpText_eq h topic
  | _ => rfl

end PreviewInstaller.CommandLine

namespace PreviewInstaller.Program

open CommandLine Procedure

variable {first second : Environment}

/-! ## Sessions that end in a notice -/

theorem standardOutput_noticed_eq (h : AgreeOnShown first second) (notice : Notice)
    (machine machine' : Machine) :
    standardOutput first (.noticed notice) machine =
      standardOutput second (.noticed notice) machine' := by
  rw [standardOutput, standardOutput, message_eq h]

theorem standardError_noticed_eq (h : AgreeOnShown first second) (notice : Notice)
    (machine machine' : Machine) :
    standardError first (.noticed notice) machine =
      standardError second (.noticed notice) machine' := by
  cases notice with
  | nothingAsked => exact helpText_eq h .program
  | _ => simp only [standardError, message_eq h]

/-- No notice tells variables that hold secrets: whether there is one is the same in every
environment, and what it shows is the same in environments that agree on the others. -/
theorem session_hides_variables (arguments : List String) :
    (∀ environment steps notice, Yields (session environment arguments) steps (.noticed notice) ↔
      parse arguments = .error notice ∧ steps = []) ∧
    ∀ first second, AgreeOnShown first second →
      (∀ topic, helpText first topic = helpText second topic) ∧
      ∀ notice, parse arguments = .error notice →
        notice.message first = notice.message second ∧
        ∀ machine machine' : Machine,
          let (ending, after) := machine.run (session first arguments)
          let (ending', after') := machine'.run (session second arguments)
          ending = .noticed notice ∧ ending' = .noticed notice ∧
            ending.exitCode = ending'.exitCode ∧
            standardOutput first ending after = standardOutput second ending' after' ∧
            standardError first ending after = standardError second ending' after' := by
  refine ⟨fun _ _ _ => yields_noticed_iff, fun first second h => ⟨helpText_eq h, ?_⟩⟩
  intro notice hparse
  refine ⟨message_eq h notice, fun machine machine' => ?_⟩
  rw [session_of_error hparse, session_of_error hparse]
  exact ⟨rfl, rfl, rfl, standardOutput_noticed_eq h notice _ _,
    standardError_noticed_eq h notice _ _⟩

theorem session_hides_variables_help :
    let first := TextMap.ofEntries [("GITHUB_TOKEN", "ghp_1"), ("MY_GITHUB_ORG", "me")]
    let second := TextMap.ofEntries [("MY_GITHUB_ORG", "me"), ("QUAY_TOKEN", "")]
    AgreeOnShown first second ∧
      parse ["install", "--help"] = .error (.help (.subcommand .install)) ∧
      helpText first (.subcommand .install) = helpText second (.subcommand .install) := by
  intro first second
  have hagree : AgreeOnShown first second := by
    intro name hname
    simp only [hiddenVariables, List.mem_cons, List.not_mem_nil, or_false, not_or] at hname
    simp [first, second, TextMap.ofEntries, hname]
  have hparse : parse ["install", "--help"] = .error (.help (.subcommand .install)) := rfl
  exact ⟨hagree, hparse,
    (((session_hides_variables ["install", "--help"]).2 first second hagree).2 _ hparse).1⟩

end PreviewInstaller.Program

import PreviewInstaller.Proofs.CommandLine.Grammar

set_option autoImplicit false

/-! # What the command line accepts

The parser accepts what the grammar allows, and so exactly that: no flag with its value is refused,
in whatever order and spelling they come. The options that a command line makes are those that the
grammar reads off it, so neither the order of the flags nor their spelling makes a difference. -/

namespace PreviewInstaller.CommandLine

/-! ## Arguments -/

theorem plain_of_isValue {text : String} (h : IsValue text) : Argument.ofText text = .plain := by
  rcases h with rfl | hhead
  · decide
  · unfold Argument.ofText
    split
    · next hchars => simp [hchars] at hhead
    · next hchars => simp [hchars] at hhead
    · next hchars => simp [hchars] at hhead
    · rfl

/-- Behind two dashes the name ends at the first equals sign, and the value is what follows. -/
theorem ofText_longText {name : String} (hne : name ≠ "") (hsign : '=' ∉ name.toList)
    (value : Option String) : Argument.ofText (longText name value) = .long name value := by
  have hfront : ∀ c ∈ name.toList, decide (c ≠ '=') = true := by
    intro c hc
    exact decide_eq_true fun heq => hsign (heq ▸ hc)
  obtain ⟨first, rest, hname⟩ : ∃ first rest, name.toList = first :: rest :=
    List.exists_cons_of_ne_nil fun hnil => hne (String.toList_inj.1 hnil)
  obtain ⟨back, hback⟩ : ∃ back : List Char,
      back = (value.map fun value => '=' :: value.toList).getD [] := ⟨_, rfl⟩
  have hchars : (longText name value).toList = '-' :: '-' :: first :: (rest ++ back) := by
    cases value <;> simp [longText, hname, hback]
  -- the sign is the first character that can end the name
  have htake : (first :: (rest ++ back)).takeWhile (· ≠ '=') = first :: rest := by
    rw [← List.cons_append, ← hname, List.takeWhile_append_of_pos hfront, hback]
    cases value <;> simp
  have hdrop : (first :: (rest ++ back)).dropWhile (· ≠ '=') = back := by
    rw [← List.cons_append, ← hname, List.dropWhile_append_of_pos hfront, hback]
    cases value <;> simp
  simp only [Argument.ofText, hchars, htake, hdrop, ← hname, String.ofList_toList]
  cases value <;> simp [hback]

theorem ofText_flag (flag : Flag) (value : Option String) :
    Argument.ofText (longText flag.name value) = .long flag.name value := by
  have hname : ∀ flag ∈ Flag.all, flag.name ≠ "" ∧ '=' ∉ flag.name.toList := by decide
  exact ofText_longText (hname flag flag.mem_all).1 (hname flag flag.mem_all).2 value

theorem Flag.ofName?_name (flag : Flag) : Flag.ofName? flag.name = some flag := by
  have h : ∀ flag ∈ Flag.all, Flag.ofName? flag.name = some flag := by decide
  exact h flag flag.mem_all

/-- The name of a subcommand is no flag, and names no other subcommand. -/
theorem Subcommand.ofText_name (subcommand : Subcommand) :
    Argument.ofText subcommand.name = .plain ∧ subcommand.name ≠ helpName ∧
      Subcommand.ofName? subcommand.name = some subcommand := by
  cases subcommand <;> decide

/-! ## Flags -/

variable {subcommand : Subcommand} {progress : Progress} {before given : Given} {flag : Flag}
  {value : String} {words rest : List String}

theorem record_of_notMem (h : flag ∉ before.map (·.1)) (value : String) :
    Progress.record before flag value = .ok (before ++ [(flag, value)]) := by
  rw [Progress.record, Given.value?_eq_none_iff.2 h]
  rfl

/-- One occurrence of a flag is taken, and settles with its value behind the others. -/
theorem parseFlags_occurrence (h : Occurrence words (flag, value))
    (hsettle : progress.settle = .ok before) (hnew : flag ∉ before.map (·.1))
    (rest : List String) :
    ∃ progress', progress'.settle = .ok (before ++ [(flag, value)]) ∧
      parseFlags subcommand progress (words ++ rest) = parseFlags subcommand progress' rest := by
  have hrecord := record_of_notMem hnew value
  cases h with
  | joined flag value =>
    refine ⟨{ given := before ++ [(flag, value)] }, rfl, ?_⟩
    simp only [List.cons_append, List.nil_append, parseFlags, ofText_flag, Flag.ofName?_name,
      hsettle, hrecord, bind, Except.bind]
  | apart flag hvalue =>
    -- the value is still pending when the next flag comes
    refine ⟨{ given := before, pending := some (flag, some value) }, hrecord, ?_⟩
    simp only [List.cons_append, List.nil_append, parseFlags, ofText_flag, Flag.ofName?_name,
      hsettle, bind, Except.bind, plain_of_isValue hvalue, Progress.awaiting?]

/-- Occurrences of flags that are all new are accepted. -/
theorem parseFlags_complete (h : Occurrences words given) (hsettle : progress.settle = .ok before)
    (hnodup : ((before ++ given).map (·.1)).Nodup) :
    parseFlags subcommand progress words = .ok (before ++ given) := by
  -- what is settled before each occurrence grows by it, and the flags of both parts stay distinct
  induction h generalizing progress before with
  | nil => rw [parseFlags, hsettle, List.append_nil]
  | @cons words rest entry given h _ ih =>
    obtain ⟨flag, value⟩ := entry
    have hnew : flag ∉ before.map (·.1) := by
      intro hmem
      rw [List.map_append, List.nodup_append] at hnodup
      exact hnodup.2.2 flag hmem flag (by simp) rfl
    obtain ⟨progress', hsettle', hparse⟩ := parseFlags_occurrence h hsettle hnew rest
    rw [hparse, ih hsettle' (by simpa [List.append_assoc] using hnodup), List.append_assoc]
    rfl

theorem parse_complete (subcommand : Subcommand) (h : Accepts words given) :
    parse (subcommand.name :: words) = .ok (subcommand, given) := by
  obtain ⟨hplain, hhelp, hname⟩ := subcommand.ofText_name
  have hflags : parseFlags subcommand {} words = .ok ([] ++ given) :=
    parseFlags_complete h.occurrences rfl h.nodup
  simp only [parse, hplain, hhelp, hname, hflags, if_false]
  rfl

/-- The parser accepts what the grammar allows. -/
theorem parse_iff_accepts {arguments : List String} (h : "--" ∉ arguments) :
    parse arguments = .ok (subcommand, given) ↔
      ∃ words, arguments = subcommand.name :: words ∧ Accepts words given := by
  constructor
  · intro hparse
    obtain ⟨words, harguments | harguments, haccepts⟩ := parse_sound hparse
    · exact ⟨words, harguments, haccepts⟩
    · exact absurd (by simp [harguments]) h
  · rintro ⟨words, rfl, haccepts⟩
    exact parse_complete subcommand haccepts

/-! ## Options -/

variable {environment : Environment} {options : Options}

/-- What options say of a flag; `none` if they leave it unset. -/
def optionOf (options : Options) : Flag → Option String
  | .tmpDir => some options.tmpDir
  | .infraDeploymentsBranch => some options.infraDeploymentsBranch
  | .infraDeploymentsOrg => some options.infraDeploymentsOrg
  | .forkRemote => some options.forkRemote
  | .forkOrg => some options.forkOrg
  | .quayToken => some options.quayToken
  | .defaultQuayOrg => some options.defaultQuayOrg
  | .defaultQuayOrgToken => some options.defaultQuayOrgToken
  | .imageTagExpiration => some options.imageTagExpiration
  | .githubToken => some options.githubToken
  | .pacGithubAppId => some options.pacGithubAppId
  | .pacGithubAppPrivateKey => some options.pacGithubAppPrivateKey
  | .oauthRedirectProxyUrl => options.oauthRedirectProxyUrl

/-- Options are what they say of the flags. -/
theorem eq_of_optionOf {first second : Options}
    (h : ∀ flag, optionOf first flag = optionOf second flag) : first = second := by
  have hfields : Flag.all.map (optionOf first) = Flag.all.map (optionOf second) :=
    List.map_congr_left fun flag _ => h flag
  obtain ⟨⟩ := first
  obtain ⟨⟩ := second
  simpa [Flag.all, optionOf] using hfields

/-- A flag with a default is always worth something. -/
theorem some_getD_valueOf? (environment : Environment) (given : Given) {flag : Flag}
    (h : flag.default?.isSome) :
    some ((valueOf? environment given flag).getD "") = valueOf? environment given flag := by
  obtain ⟨value, hvalue⟩ : ∃ value, valueOf? environment given flag = some value := by
    rw [← Option.isSome_iff_exists]
    simp [valueOf?, h]
  rw [hvalue, Option.getD_some]

theorem optionOf_optionsOf (environment : Environment) (given : Given) (flag : Flag) :
    optionOf (optionsOf environment given) flag = valueOf? environment given flag := by
  cases flag with
  | oauthRedirectProxyUrl => rfl
  | _ => exact some_getD_valueOf? environment given rfl

theorem Given.value?_eq_some_iff (hnodup : (given.map (·.1)).Nodup) :
    given.value? flag = some value ↔ (flag, value) ∈ given := by
  constructor
  · exact Given.mem_of_value?
  · exact Given.value?_of_mem hnodup

/-- What flags are worth does not depend on their order. -/
theorem optionsOf_perm {given' : Given} (h : given.Perm given')
    (hnodup : (given.map (·.1)).Nodup) (environment : Environment) :
    optionsOf environment given = optionsOf environment given' := by
  have hnodup' : (given'.map (·.1)).Nodup := (h.map _).nodup_iff.1 hnodup
  have hvalue : given.value? = given'.value? := by
    funext flag
    refine Option.ext fun value => ?_
    rw [Given.value?_eq_some_iff hnodup, Given.value?_eq_some_iff hnodup', h.mem_iff]
  simp only [optionsOf, valueOf?, hvalue]

/-! ## Commands -/

/-- Arguments yield a command, which is a subcommand with its options. -/
def Commands (environment : Environment) (arguments : List String) (subcommand : Subcommand)
    (options : Options) : Prop :=
  ∃ given, parse arguments = .ok (subcommand, given) ∧ options = optionsOf environment given

/-- Options say of each flag what it is worth, and nothing of flags that are worth nothing. -/
def AreOptions (environment : Environment) (given : Given) (options : Options) : Prop :=
  ∀ flag value, optionOf options flag = some value ↔ OptionValue environment given flag value

theorem areOptions_iff (hnodup : (given.map (·.1)).Nodup) :
    AreOptions environment given options ↔ options = optionsOf environment given := by
  constructor
  · intro h
    refine eq_of_optionOf fun flag => Option.ext fun value => ?_
    rw [h flag value, optionValue_iff hnodup, optionOf_optionsOf]
  · rintro rfl flag value
    rw [optionValue_iff hnodup, optionOf_optionsOf]

/-- Arguments yield a command exactly if they are the name of a subcommand and occurrences of flags,
no flag twice, and the options are what these, the variables and the defaults say. In another order
or spelling the same occurrences yield the same command. -/
theorem commands_iff_grammatical {arguments : List String} (h : "--" ∉ arguments)
    (environment : Environment) :
    (∀ subcommand options, Commands environment arguments subcommand options ↔
      ∃ words given, arguments = subcommand.name :: words ∧ Accepts words given ∧
        AreOptions environment given options) ∧
    ∀ subcommand words given words' given', arguments = subcommand.name :: words →
      Accepts words given → Occurrences words' given' → given.Perm given' →
        ∃ options, Commands environment arguments subcommand options ∧
          Commands environment (subcommand.name :: words') subcommand options := by
  constructor
  · intro subcommand options
    constructor
    · rintro ⟨given, hparse, hoptions⟩
      obtain ⟨words, harguments, haccepts⟩ := (parse_iff_accepts h).1 hparse
      exact ⟨words, given, harguments, haccepts, (areOptions_iff haccepts.nodup).2 hoptions⟩
    · rintro ⟨words, given, harguments, haccepts, hoptions⟩
      have hparse := (parse_iff_accepts h).2 ⟨words, harguments, haccepts⟩
      exact ⟨given, hparse, (areOptions_iff haccepts.nodup).1 hoptions⟩
  · rintro subcommand words given words' given' rfl haccepts hoccurrences hperm
    have hnodup : (given'.map (·.1)).Nodup := (hperm.map _).nodup_iff.1 haccepts.nodup
    refine ⟨optionsOf environment given, ⟨given, parse_complete _ haccepts, rfl⟩, given', ?_, ?_⟩
    · exact parse_complete _ ⟨hoccurrences, hnodup⟩
    · exact optionsOf_perm hperm haccepts.nodup environment

/-- Two flags in either order, with their values apart and joined. -/
theorem commands_iff_grammatical_clone :
    let arguments := ["clone", "--fork-org", "-", "--tmp-dir=--x"]
    let environment := TextMap.ofEntries [("MY_GITHUB_ORG", "me"), ("QUAY_TOKEN", "")]
    "--" ∉ arguments ∧ ∃ options, Commands environment arguments .clone options ∧
      Commands environment ["clone", "--tmp-dir=--x", "--fork-org=-"] .clone options := by
  intro arguments environment
  have hdashes : "--" ∉ arguments := by decide
  have hapart : Occurrence ["--fork-org", "-"] (.forkOrg, "-") := .apart .forkOrg (.inl rfl)
  have hjoined : Occurrence ["--fork-org=-"] (.forkOrg, "-") := .joined .forkOrg "-"
  have htmpDir : Occurrence ["--tmp-dir=--x"] (.tmpDir, "--x") := .joined .tmpDir "--x"
  have haccepts : Accepts ["--fork-org", "-", "--tmp-dir=--x"]
      [(.forkOrg, "-"), (.tmpDir, "--x")] :=
    ⟨.cons hapart (.cons htmpDir .nil), by decide⟩
  exact ⟨hdashes, (commands_iff_grammatical hdashes environment).2 .clone _ _ _ _ rfl haccepts
    (.cons htmpDir (.cons hjoined .nil)) (.swap ..)⟩

end PreviewInstaller.CommandLine

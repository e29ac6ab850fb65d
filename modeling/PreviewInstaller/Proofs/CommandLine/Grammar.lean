import PreviewInstaller.CommandLine.Parser

set_option autoImplicit false

/-! # The grammar of the command line

What the arguments of an accepted command line look like: the name of a subcommand, and after it
occurrences of flags with their values, no flag twice. Two dashes may end the list. What an option
is then worth is said of the occurrences, the variables and the defaults. -/

namespace PreviewInstaller.CommandLine

/-! ## Arguments -/

/-- A text that can stand behind a flag as its value: it does not start with a dash, or is one. -/
def IsValue (text : String) : Prop :=
  text = "-" ∨ text.toList.head? ≠ some '-'

theorem isValue_of_plain {text : String} (h : Argument.ofText text = .plain) : IsValue text := by
  unfold Argument.ofText at h
  split at h
  · cases h
  · dsimp only at h
    split at h <;> cases h
  · cases h
  · next _ hlong hshort =>
    cases hchars : text.toList with
    | nil => exact .inr (by simp [hchars])
    | cons first rest =>
      by_cases hfirst : first = '-'
      · subst hfirst
        cases rest with
        | nil => exact .inl (String.toList_inj.1 hchars)
        | cons letter rest => exact absurd hchars (hshort letter rest)
      · exact .inr (by simp [hchars, hfirst])

theorem eq_of_endOfFlags {text : String} (h : Argument.ofText text = .endOfFlags) :
    text = "--" := by
  unfold Argument.ofText at h
  split at h
  · next hchars => exact String.toList_inj.1 hchars
  · dsimp only at h
    split at h <;> cases h
  · cases h
  · cases h

/-- The text of a flag with its value in the same argument, or without one. -/
def longText (name : String) : Option String → String
  | none => "--" ++ name
  | some value => "--" ++ name ++ "=" ++ value

theorem eq_of_long {text name : String} {value : Option String}
    (h : Argument.ofText text = .long name value) : text = longText name value := by
  unfold Argument.ofText at h
  split at h
  · cases h
  · next rest _ hchars =>
    -- what stands before the first equals sign, and what stands from there on
    have hrest := List.takeWhile_append_dropWhile (p := (· ≠ '=')) (l := rest)
    have hsign := List.head?_dropWhile_not (· ≠ '=') rest
    dsimp only at h
    generalize List.takeWhile _ rest = front at h hrest
    generalize List.dropWhile _ rest = back at h hrest hsign
    cases back with
    | nil =>
      cases h
      exact String.toList_inj.1 (by simp [longText, hchars, ← hrest])
    | cons sign value' =>
      cases h
      obtain rfl : sign = '=' := by simpa using hsign
      exact String.toList_inj.1 (by simp [longText, hchars, ← hrest])
  · cases h
  · cases h

/-- The flag of a name has that name. -/
theorem Flag.name_of_ofName? {name : String} {flag : Flag} (h : Flag.ofName? name = some flag) :
    flag.name = name := by
  simpa using List.find?_some h

theorem Subcommand.name_of_ofName? {name : String} {subcommand : Subcommand}
    (h : Subcommand.ofName? name = some subcommand) : subcommand.name = name := by
  simpa using List.find?_some h

/-! ## Occurrences -/

/-- Arguments that give one flag its value. -/
inductive Occurrence : List String → Flag × String → Prop where
  | joined (flag : Flag) (value : String) :
      Occurrence [longText flag.name (some value)] (flag, value)
  | apart (flag : Flag) {value : String} (h : IsValue value) :
      Occurrence [longText flag.name none, value] (flag, value)

/-- Arguments that give flags their values, one after another. -/
inductive Occurrences : List String → Given → Prop where
  | nil : Occurrences [] []
  | cons {words rest : List String} {entry : Flag × String} {given : Given}
      (h : Occurrence words entry) (hrest : Occurrences rest given) :
      Occurrences (words ++ rest) (entry :: given)

/-- The arguments of one occurrence are behind those of others. -/
theorem Occurrences.concat {words last : List String} {given : Given} {entry : Flag × String}
    (h : Occurrences words given) (hlast : Occurrence last entry) :
    Occurrences (words ++ last) (given ++ [entry]) := by
  induction h with
  | nil => simpa using Occurrences.cons hlast .nil
  | cons h _ ih => simpa [List.append_assoc] using Occurrences.cons h ih

/-- Arguments and what they give, no flag twice. -/
structure Accepts (words : List String) (given : Given) : Prop where
  occurrences : Occurrences words given
  nodup : (given.map (·.1)).Nodup

theorem Given.value?_isSome_iff {given : Given} {flag : Flag} :
    (given.value? flag).isSome ↔ flag ∈ given.map (·.1) := by
  simp [Given.value?, List.lookup_isSome_iff]

theorem Given.mem_of_value? {given : Given} {flag : Flag} {value : String}
    (h : given.value? flag = some value) : (flag, value) ∈ given := by
  obtain ⟨before, after, rfl, -⟩ := List.lookup_eq_some_iff.1 h
  simp

theorem Given.value?_eq_none_iff {given : Given} {flag : Flag} :
    given.value? flag = none ↔ flag ∉ given.map (·.1) := by
  rw [← Given.value?_isSome_iff, Option.not_isSome_iff_eq_none]

theorem Given.value?_of_mem {given : Given} {flag : Flag} {value : String}
    (hnodup : (given.map (·.1)).Nodup) (h : (flag, value) ∈ given) :
    given.value? flag = some value := by
  obtain ⟨before, after, rfl⟩ := List.append_of_mem h
  refine List.lookup_eq_some_iff.2 ⟨before, after, rfl, fun other hother => ?_⟩
  rw [List.map_append, List.nodup_append] at hnodup
  have hne := hnodup.2.2 other.1 (List.mem_map_of_mem hother) flag (by simp)
  simpa using hne.symm

/-- A flag is recorded behind the others, among which it is not. -/
theorem Accepts.record {words last : List String} {before after : Given} {flag : Flag}
    {value : String} (h : Accepts words before) (hlast : Occurrence last (flag, value))
    (hrecord : Progress.record before flag value = .ok after) : Accepts (words ++ last) after := by
  unfold Progress.record at hrecord
  split at hrecord
  · cases hrecord
  · next hnew =>
    cases hrecord
    refine ⟨h.occurrences.concat hlast, ?_⟩
    rw [Given.value?_isSome_iff] at hnew
    rw [List.map_append, List.nodup_append]
    refine ⟨h.nodup, by simp, ?_⟩
    rintro other hother last hmem rfl
    have hflag : other = flag := List.mem_singleton.1 hmem
    exact hnew (hflag ▸ hother)

/-! ## What the parser accepts -/

/-- The flags so far are given by the arguments read so far, of which the last ones are those of the
flag under way. -/
inductive Progress.Reads : List String → Progress → Prop where
  | settled {words : List String} {given : Given} (h : Accepts words given) :
      Reads words { given }
  | awaiting {words : List String} {given : Given} (flag : Flag) (h : Accepts words given) :
      Reads (words ++ [longText flag.name none]) { given, pending := some (flag, none) }
  | holding {words : List String} {given : Given} (flag : Flag) {value : String}
      (h : Accepts words given) (hvalue : IsValue value) :
      Reads (words ++ [longText flag.name none, value])
        { given, pending := some (flag, some value) }

theorem Progress.Reads.settle {words : List String} {progress : Progress} {given : Given}
    (h : progress.Reads words) (hsettle : progress.settle = .ok given) : Accepts words given := by
  cases h with
  | settled h =>
    cases hsettle
    exact h
  | awaiting flag h => cases hsettle
  | holding flag h hvalue => exact h.record (.apart flag hvalue) hsettle

/-- What an argument makes of the flags so far: a flag that has its value in the argument, a flag
that waits for it, or the value that a flag waits for. -/
inductive Progress.Takes (text : String) : Progress → Progress → Prop where
  | joined {progress : Progress} {settled recorded : Given} (flag : Flag) (value : String)
      (htext : text = longText flag.name (some value)) (hsettle : progress.settle = .ok settled)
      (hrecord : Progress.record settled flag value = .ok recorded) :
      Takes text progress { given := recorded }
  | apart {progress : Progress} {settled : Given} (flag : Flag)
      (htext : text = longText flag.name none) (hsettle : progress.settle = .ok settled) :
      Takes text progress { given := settled, pending := some (flag, none) }
  | value {given : Given} (flag : Flag) (hvalue : IsValue text) :
      Takes text { given, pending := some (flag, none) }
        { given, pending := some (flag, some text) }

theorem Progress.Reads.takes {words : List String} {text : String} {progress progress' : Progress}
    (hread : progress.Reads words) (h : progress.Takes text progress') :
    progress'.Reads (words ++ [text]) := by
  cases h with
  | joined flag value htext hsettle hrecord =>
    subst htext
    exact .settled ((hread.settle hsettle).record (.joined flag value) hrecord)
  | apart flag htext hsettle =>
    subst htext
    exact .awaiting flag (hread.settle hsettle)
  | value flag hvalue =>
    cases hread with
    | awaiting flag haccepts =>
      rw [List.append_assoc]
      exact .holding flag haccepts hvalue

variable {subcommand : Subcommand} {progress : Progress} {given : Given}

/-- Where the parser accepts, the first argument ends the list or is taken. -/
theorem takes_of_parseFlags {text : String} {rest : List String}
    (h : parseFlags subcommand progress (text :: rest) = .ok given) :
    (text = "--" ∧ rest = [] ∧ progress.settle = .ok given) ∨
      ∃ progress', progress.Takes text progress' ∧
        parseFlags subcommand progress' rest = .ok given := by
  unfold parseFlags at h
  cases hargument : Argument.ofText text with
  | endOfFlags =>
    rw [hargument] at h
    cases rest with
    | nil => exact .inl ⟨eq_of_endOfFlags hargument, rfl, h⟩
    | cons stray rest => cases h
  | long name value =>
    rw [hargument] at h
    have htext := eq_of_long hargument
    cases hflag : Flag.ofName? name with
    | none =>
      -- the help or an unknown flag, neither of which is accepted
      simp only [hflag] at h
      split at h
      · cases value <;> cases h
      · cases h
    | some flag =>
      obtain rfl := Flag.name_of_ofName? hflag
      simp only [hflag] at h
      cases hsettle : progress.settle with
      | error notice => cases value <;> simp [hsettle, bind, Except.bind] at h
      | ok settled =>
        cases value with
        | none =>
          simp only [hsettle, bind, Except.bind] at h
          exact .inr ⟨_, .apart flag htext hsettle, h⟩
        | some value =>
          simp only [hsettle, bind, Except.bind] at h
          split at h
          · cases h
          · next recorded hrecord => exact .inr ⟨_, .joined flag value htext hsettle hrecord, h⟩
  | short letter =>
    rw [hargument] at h
    dsimp only at h
    split at h <;> cases h
  | plain =>
    rw [hargument] at h
    obtain ⟨given', pending⟩ := progress
    rcases pending with _ | ⟨flag, _ | value⟩
    · cases h
    · exact .inr ⟨_, .value flag (isValue_of_plain hargument), h⟩
    · cases h

/-- What the parser accepts is behind what was read so far, up to two dashes that end it. -/
theorem parseFlags_sound {before arguments : List String} (hread : progress.Reads before)
    (h : parseFlags subcommand progress arguments = .ok given) :
    ∃ words, (arguments = words ∨ arguments = words ++ ["--"]) ∧
      Accepts (before ++ words) given := by
  induction arguments generalizing progress before with
  | nil => exact ⟨[], .inl rfl, by simpa using hread.settle h⟩
  | cons text rest ih =>
    obtain ⟨rfl, rfl, hsettle⟩ | ⟨progress', htakes, hrest⟩ := takes_of_parseFlags h
    · exact ⟨[], .inr rfl, by simpa using hread.settle hsettle⟩
    · obtain ⟨words, hwords, haccepts⟩ := ih (hread.takes htakes) hrest
      refine ⟨text :: words, hwords.imp (congrArg _) (congrArg _), ?_⟩
      simpa [List.append_assoc] using haccepts

/-- An accepted command line starts with the name of its subcommand. -/
theorem flags_of_parse {arguments : List String}
    (h : parse arguments = .ok (subcommand, given)) :
    ∃ rest, arguments = subcommand.name :: rest ∧ parseFlags subcommand {} rest = .ok given := by
  cases arguments with
  | nil => cases h
  | cons text rest =>
    unfold parse at h
    cases hargument : Argument.ofText text with
    | endOfFlags =>
      simp only [hargument] at h
      split at h
      · cases h
      · split at h <;> cases h
    | long name value =>
      simp only [hargument] at h
      split at h
      · cases value <;> cases h
      · cases h
    | short letter =>
      simp only [hargument] at h
      split at h
      · cases h
      · split at h <;> cases h
    | plain =>
      simp only [hargument] at h
      split at h
      · cases h
      · cases hname : Subcommand.ofName? text with
        | none => simp [hname] at h
        | some named =>
          simp only [hname] at h
          obtain rfl := Subcommand.name_of_ofName? hname
          cases hflags : parseFlags named {} rest with
          | error notice =>
            rw [hflags] at h
            cases h
          | ok found =>
            rw [hflags] at h
            cases h
            exact ⟨rest, rfl, hflags⟩

/-- An accepted command line is the name of its subcommand and occurrences of flags, no flag twice,
up to two dashes that end it. -/
theorem parse_sound {arguments : List String}
    (h : parse arguments = .ok (subcommand, given)) :
    ∃ words, (arguments = subcommand.name :: words ∨
      arguments = subcommand.name :: words ++ ["--"]) ∧ Accepts words given := by
  obtain ⟨rest, rfl, hflags⟩ := flags_of_parse h
  have hread : Progress.Reads [] {} := .settled ⟨.nil, List.nodup_nil⟩
  obtain ⟨words, hrest, haccepts⟩ := parseFlags_sound hread hflags
  exact ⟨words, hrest.imp (congrArg _) (congrArg _), haccepts⟩

/-! ## Options -/

/-- What an option is worth: what it is given, else what its variable is set to, else its
default. -/
inductive OptionValue (environment : Environment) (given : Given) (flag : Flag) :
    String → Prop where
  | given {value : String} (h : (flag, value) ∈ given) : OptionValue environment given flag value
  | ofVariable {name value : String} (habsent : flag ∉ given.map (·.1))
      (hname : flag.variableName? = some name) (hvalue : environment.get? name = some value) :
      OptionValue environment given flag value
  | ofDefault {value : String} (habsent : flag ∉ given.map (·.1))
      (hunset : ∀ name, flag.variableName? = some name → environment.get? name = none)
      (hdefault : flag.default? = some value) : OptionValue environment given flag value

/-- An option is worth what the program takes it for. -/
theorem optionValue_iff {environment : Environment} {flag : Flag} {value : String}
    (hnodup : (given.map (·.1)).Nodup) :
    OptionValue environment given flag value ↔ valueOf? environment given flag = some value := by
  unfold valueOf?
  constructor
  · intro h
    cases h with
    | given h => simp [Given.value?_of_mem hnodup h]
    | ofVariable habsent hname hvalue =>
      simp [Given.value?_eq_none_iff.2 habsent, hname, hvalue]
    | ofDefault habsent hunset hdefault =>
      have hvariable : flag.variableName?.bind environment.get? = none := by
        simpa [Option.bind_eq_none_iff] using hunset
      simp [Given.value?_eq_none_iff.2 habsent, hvariable, hdefault]
  · intro h
    cases hgiven : given.value? flag with
    | some value' =>
      obtain rfl : value' = value := by simpa [hgiven] using h
      exact .given (Given.mem_of_value? hgiven)
    | none =>
      have habsent := Given.value?_eq_none_iff.1 hgiven
      cases hvariable : flag.variableName?.bind environment.get? with
      | some value' =>
        obtain rfl : value' = value := by simpa [hgiven, hvariable] using h
        obtain ⟨name, hname, hvalue⟩ := Option.bind_eq_some_iff.1 hvariable
        exact .ofVariable habsent hname hvalue
      | none =>
        refine .ofDefault habsent (fun name => Option.bind_eq_none_iff.1 hvariable name) ?_
        simpa [hgiven, hvariable] using h

end PreviewInstaller.CommandLine

import ContentModels.Command.Codec

/-!
# What a command line asks for

That more is to be logged may be asked for in front of the command and between its options, and
makes no difference to what is asked for otherwise (`ofArguments?_filter`).  The directory that a
command line names never has an empty path (`namesDirectories_standard`): an empty path would be
refused, and there is a standard one.
-/

namespace ContentModels

namespace GivenOption

variable {settings flags arguments : List String} {argument : String} {given : List GivenOption}

theorem looksLikeOption_of_isVerbose
    (h : isVerbose argument = true) :
    looksLikeOption argument = true := by
  unfold isVerbose at h
  unfold looksLikeOption
  split at h
  · rename_i cs hcs
    rw [hcs]
    cases cs with
    | nil => cases h
    | cons c cs => rfl
  · cases h

/-- Options are read as before without the arguments that are about the log. -/
theorem readAll_filter
    (h : readAll settings flags arguments = some given) :
    readAll settings flags (arguments.filter fun a => !isVerbose a) = some given := by
  induction arguments using readAll.induct settings flags generalizing given with
  | case1 => exact h
  | case2 argument rest hend hrest =>
    obtain rfl := beq_iff_eq.1 hend
    obtain rfl := List.isEmpty_iff.1 hrest
    exact h
  | case4 argument rest hend hverbose ih =>
    rw [readAll, if_neg hend, if_pos hverbose] at h
    rw [List.filter_cons_of_neg (by simp [hverbose])]
    exact ih h
  | case6 argument rest hend hverbose name value hargument hname ih
  | case8 argument rest hend hverbose name hargument hname ih =>
    simp only [readAll, hend, hverbose, hargument, hname, if_true, if_false, Bool.false_eq_true] at h
    obtain ⟨others, hothers, rfl⟩ := Option.map_eq_some_iff.1 h
    rw [List.filter_cons_of_pos (by simp [hverbose])]
    simp only [readAll, hend, hverbose, hargument, hname, ih hothers, if_true, if_false,
      Bool.false_eq_true, Option.map_some]
  | case11 argument hend hverbose name hargument hflag hname value rest hvalue ih =>
    simp only [readAll, hend, hverbose, hargument, hflag, hname, hvalue, if_true, if_false,
      Bool.false_eq_true] at h
    obtain ⟨others, hothers, rfl⟩ := Option.map_eq_some_iff.1 h
    -- What is read as a value is not about the log, for it does not look like an option.
    have hkept : isVerbose value = false :=
      Bool.eq_false_iff.2 fun hverbose => hvalue (looksLikeOption_of_isVerbose hverbose)
    rw [List.filter_cons_of_pos (by simp [hverbose]), List.filter_cons_of_pos (by simp [hkept]),
      readAll]
    simp only [hend, hverbose, hargument, hflag, hname, hvalue, ih hothers, if_true, if_false,
      Bool.false_eq_true, Option.map_some]
  | _ => simp_all [readAll]

/-- What comes first after arguments that are about the log. -/
theorem dropWhile_filter
    {first : String} {rest : List String}
    (h : arguments.dropWhile isVerbose = first :: rest) :
    (arguments.filter fun a => !isVerbose a).dropWhile isVerbose =
      first :: rest.filter fun a => !isVerbose a := by
  induction arguments with
  | nil => cases h
  | cons argument arguments ih =>
    by_cases hverbose : isVerbose argument = true
    · rw [List.dropWhile_cons_of_pos hverbose] at h
      rw [List.filter_cons_of_neg (by simp [hverbose])]
      exact ih h
    · rw [List.dropWhile_cons_of_neg hverbose] at h
      cases h
      rw [List.filter_cons_of_pos (by simp [hverbose]), List.dropWhile_cons_of_neg hverbose]

end GivenOption

/-- No path that is given is empty. -/
theorem CommonOptions.modelsDirectory_ne_empty
    {environment : Option String} {given : List GivenOption} {options : CommonOptions}
    (h : CommonOptions.ofGiven? environment given = some options) :
    options.modelsDirectory ≠ "" := by
  unfold CommonOptions.ofGiven? at h
  simp only [Option.bind_eq_bind] at h
  split at h
  · cases h
  · obtain ⟨models, hmodels, h⟩ := Option.bind_eq_some_iff.1 h
    obtain ⟨config, -, h⟩ := Option.bind_eq_some_iff.1 h
    split at h
    · cases h
    · obtain ⟨namespaceName, -, h⟩ := Option.bind_eq_some_iff.1 h
      obtain ⟨version, -, h⟩ := Option.bind_eq_some_iff.1 h
      obtain ⟨omits, -, h⟩ := Option.bind_eq_some_iff.1 h
      cases h
      obtain ⟨value, -, hvalue⟩ := Option.bind_eq_some_iff.1 hmodels
      split at hvalue
      · cases hvalue
      · rename_i hempty
        cases hvalue
        cases models with
        | none => exact (by decide : "Models" ≠ "")
        | some v => simpa using hempty

namespace Command

variable {environment : Option String} {arguments : List String}

/-- What is asked for is the same without the arguments that are about the log. -/
theorem ofArguments?_filter
    {command : Command} (h : ofArguments? environment arguments = some command) :
    ofArguments? environment (arguments.filter fun a => !GivenOption.isVerbose a) =
      some command := by
  unfold ofArguments? at h ⊢
  split at h
  · rename_i rest hrest
    obtain ⟨given, hgiven, h⟩ := Option.bind_eq_some_iff.1 h
    rw [GivenOption.dropWhile_filter hrest]
    exact Option.bind_eq_some_iff.2 ⟨given, GivenOption.readAll_filter hgiven, h⟩
  · rename_i rest hrest
    obtain ⟨given, hgiven, h⟩ := Option.bind_eq_some_iff.1 h
    rw [GivenOption.dropWhile_filter hrest]
    exact Option.bind_eq_some_iff.2 ⟨given, GivenOption.readAll_filter hgiven, h⟩
  · cases h

/-- A command line with options of all kinds. -/
example :
    ofArguments? none ["-v", "generate", "--schema", "schema.yml", "--single-file",
      "--reference", "xml.json", "--models-dir", "Out"] =
        some (.generate "schema.yml" true ⟨"Out", none, none, none, ["xml.json"], false⟩) := by
  decide +kernel

end Command

namespace Codec

/-- No directory that a command line names for the generated files has an empty path. -/
def NamesDirectories (c : Codec) : Prop :=
  ∀ environment arguments schema singleFile options,
    c.commandLine environment arguments = some (.generate schema singleFile options) →
      options.modelsDirectory ≠ ""

theorem namesDirectories_standard : NamesDirectories .standard := by
  intro environment arguments schema singleFile options h
  change Command.ofArguments? environment arguments = _ at h
  unfold Command.ofArguments? at h
  split at h
  · obtain ⟨given, -, h⟩ := Option.bind_eq_some_iff.1 h
    obtain ⟨path, -, h⟩ := Option.bind_eq_some_iff.1 h
    obtain ⟨_, -, h⟩ := Option.bind_eq_some_iff.1 h
    obtain ⟨_, -, h⟩ := Option.bind_eq_some_iff.1 h
    obtain ⟨_, hoptions, h⟩ := Option.bind_eq_some_iff.1 h
    cases h
    exact CommonOptions.modelsDirectory_ne_empty hoptions
  · obtain ⟨given, -, h⟩ := Option.bind_eq_some_iff.1 h
    obtain ⟨_, -, h⟩ := Option.bind_eq_some_iff.1 h
    cases h
  · cases h

end Codec
end ContentModels

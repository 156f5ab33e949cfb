import ContentModels.Failure
import ContentModels.Text.Split

/-!
# Command lines

A command line names a command and its options, each by a long name with a value behind
an equals sign or in the next argument.  An option with one value is given at most once,
and no path is empty.  In front of the command and between its options it may be asked, any
number of times, that more is logged; no command depends on it.
-/

namespace ContentModels

/-- The options that all commands have. -/
structure CommonOptions where
  /-- The directory of the code, written by hand and generated. -/
  modelsDirectory : String
  /-- The file with the settings. -/
  settingsFile : Option String
  modelsNamespace : Option String
  languageVersion : Option String
  /-- Files that describe further assemblies. -/
  references : List String
  /-- Whether the standard assemblies are left out. -/
  omitsStandard : Bool
deriving DecidableEq, Repr

/-- What a command line asks for. -/
inductive Command where
  /-- Generate code for the schema in a file. -/
  | generate (schema : String) (singleFile : Bool) (options : CommonOptions)
  /-- Show what the code declares. -/
  | parse (options : CommonOptions)
deriving DecidableEq, Repr

/-- An option as it is given. -/
inductive GivenOption where
  | setting (name value : String)
  | flag (name : String)
deriving DecidableEq, Repr

namespace GivenOption

/-- Whether an argument asks that more is logged, by the long name or a letter for each level. -/
def isVerbose (argument : String) : Bool :=
  match argument.toList with
  | '-' :: cs => cs == "-verbose".toList || !cs.isEmpty && cs.all (· == 'v')
  | _ => false

/-- The long name of an option, and its value if it is in the same argument. -/
def ofArgument? (argument : String) : Option (String × Option String) :=
  match argument.toList with
  | '-' :: '-' :: cs =>
    let name := Text.beforeFirst '=' cs
    let value := match cs.drop name.length with
      | _ :: v => some (String.ofList v)
      | [] => none
    some (String.ofList name, value)
  | _ => none

/-- Whether an argument cannot be a value because it looks like an option. -/
def looksLikeOption (argument : String) : Bool :=
  match argument.toList with
  | '-' :: _ :: _ => true
  | _ => false

/-- Read the options of a command, given the names of those with values and of those without. -/
def readAll (settings flags : List String) : List String → Option (List GivenOption)
  | [] => some []
  | argument :: rest =>
    if argument == "--" then (if rest.isEmpty then some [] else none)
    else if isVerbose argument then readAll settings flags rest
    else
      match ofArgument? argument with
      | none => none
      | some (name, some value) =>
        if settings.contains name then (readAll settings flags rest).map (.setting name value :: ·)
        else none
      | some (name, none) =>
        if flags.contains name then (readAll settings flags rest).map (.flag name :: ·)
        else if settings.contains name then
          match rest with
          | [] => none
          | value :: rest =>
            if looksLikeOption value then none
            else (readAll settings flags rest).map (.setting name value :: ·)
        else none

/-- The values of an option. -/
def valuesOf (name : String) (given : List GivenOption) : List String :=
  given.filterMap fun
    | setting n v => if n == name then some v else none
    | flag _ => none

/-- The value of an option that is given at most once. -/
def value? (name : String) (given : List GivenOption) : Option (Option String) :=
  match valuesOf name given with
  | [] => some none
  | [v] => some (some v)
  | _ => none

/-- The value of an option that is a path and is given at most once. -/
def path? (name : String) (given : List GivenOption) : Option (Option String) :=
  (value? name given).bind fun v => if v == some "" then none else some v

/-- Whether a flag is given; it is given at most once. -/
def flag? (name : String) (given : List GivenOption) : Option Bool :=
  match given.count (.flag name) with
  | 0 => some false
  | 1 => some true
  | _ => none

end GivenOption

namespace CommonOptions

/-- The names of the options with values. -/
def settingNames : List String :=
  ["models-dir", "config", "namespace", "language-version", "reference"]

/-- The names of the options without values. -/
def flagNames : List String :=
  ["no-default-references"]

/-- The options as they are given; a settings file may be named by the environment. -/
def ofGiven? (environment : Option String) (given : List GivenOption) : Option CommonOptions := do
  let references := GivenOption.valuesOf "reference" given
  if references.contains "" then none
  let modelsDirectory := (← GivenOption.path? "models-dir" given).getD "Models"
  let settingsFile := (← GivenOption.path? "config" given).or environment
  if settingsFile == some "" then none
  return {
    modelsDirectory
    settingsFile
    modelsNamespace := ← GivenOption.value? "namespace" given
    languageVersion := ← GivenOption.value? "language-version" given
    references
    omitsStandard := ← GivenOption.flag? "no-default-references" given }

end CommonOptions

namespace Command

/-- The environment variable that names a settings file. -/
def settingsVariable : String := "MODELSBUILDER_CONFIG"

/-- Read a command line. -/
def ofArguments? (environment : Option String) (arguments : List String) : Option Command :=
  match arguments.dropWhile GivenOption.isVerbose with
  | "generate" :: rest => do
    let given ← GivenOption.readAll ("schema" :: CommonOptions.settingNames)
      ("single-file" :: CommonOptions.flagNames) rest
    let schema ← (← GivenOption.path? "schema" given)
    return .generate schema (← GivenOption.flag? "single-file" given)
      (← CommonOptions.ofGiven? environment given)
  | "parse" :: rest => do
    let given ← GivenOption.readAll CommonOptions.settingNames CommonOptions.flagNames rest
    return .parse (← CommonOptions.ofGiven? environment given)
  | _ => none

end Command
end ContentModels

import ContentModels.Command.Codec
import ContentModels.FileTree
import ContentModels.Generation
import ContentModels.Schema.Validation

/-!
# Commands

A command reads its settings, schema, code and assemblies, in this order, and only then
does its work.  Generated files lie directly in the directory of the code.  After code
has been generated they are brought in line with it: stale ones are removed, and those
that differ are written.
-/

namespace ContentModels
namespace Command

variable {m : Type → Type} [Monad m] [FileAccess m]

/-- What became of the generated files. -/
structure Report where
  written : List String
  unchanged : List String
  removed : List String
deriving DecidableEq, Repr, Inhabited

/-- What a command answers. -/
inductive Answer where
  | report (r : Report)
  | text (s : String)
deriving DecidableEq, Repr

/-! ### Reading -/

/-- The path of a name in a directory. -/
def inDirectory (directory name : String) : String :=
  if name.isEmpty then directory else directory ++ "/" ++ name

/-- The name at the end of a path. -/
def lastName (path : String) : String :=
  (((Text.split '/' path).filter fun s => !s.isEmpty && s != ".").getLast?).getD ""

/-- The letters behind the last point of a name, unless the name starts there. -/
def extension? (name : String) : Option String :=
  let cs := name.toList
  let ending := Text.afterLast '.' cs
  if ending.length + 1 < cs.length && name != ".." then some (String.ofList ending) else none

/-- The language of a document, which the name of its file says. -/
def formatOf (path : String) : DocumentFormat :=
  let extension := extension? (lastName path)
  if extension == some "yml" || extension == some "yaml" then .yaml else .json

/-- Go on only after something that was possible. -/
def demand (action : m Bool) : ExceptT Failure m Unit := do
  if !(← action) then throw .fileAccess

/-- The text of a file. -/
def readText (path : String) : ExceptT Failure m String := do
  match ← (FileAccess.readText path : m (Option String)) with
  | some text => return text
  | none => throw .fileAccess

/-- Go on with an outcome. -/
def orFail {α : Type} (o : Outcome α) : ExceptT Failure m α :=
  ExceptT.mk (pure o)

/-- Read a value from a document file. -/
def readDocument {α : Type} (path : String) (read : String → Option α) :
    ExceptT Failure m α := do
  match read (← readText path) with
  | some a => return a
  | none => throw .malformedDocument

/-- Read the settings, some of which the command line may replace. -/
def readSettings (c : Codec) (o : CommonOptions) : ExceptT Failure m Settings := do
  let s ← match o.settingsFile with
    | some path => do
      let s ← readDocument path (c.settings (formatOf path))
      orFail s.validate
      pure s
    | none => pure .standard
  let s := { s with
    modelsNamespace := o.modelsNamespace.getD s.modelsNamespace
    languageVersion := o.languageVersion.getD s.languageVersion }
  orFail s.validate
  return s

/-- Read the schema. -/
def readSchema (c : Codec) (path : String) : ExceptT Failure m (List ContentType) := do
  let types ← readDocument path (c.schema (formatOf path))
  orFail (Schema.validate types)
  return types

/-- Read the assemblies that code refers to. -/
def readReferences (c : Codec) (o : CommonOptions) : ExceptT Failure m (List CSharp.Assembly) := do
  let described ← o.references.mapM fun path => readDocument path c.assembly
  return (if o.omitsStandard then [] else CSharp.Assembly.standard) ++ described

/-- Whether the name of a file says that its text is code. -/
def isCodeName (name : String) : Bool :=
  ".cs".toList.isSuffixOf name.toList

/-- Whether the name of a file says that it is generated. -/
def isGeneratedName (name : String) : Bool :=
  Generated.suffix.toList.isSuffixOf name.toList

/-- Whether the path of a file from a directory says that it is code written by hand. -/
def isSource (directory path : String) : Bool :=
  let name := lastName (inDirectory directory path)
  isCodeName name && !isGeneratedName name

/-- Read all code written by hand below a directory. -/
def readSources (directory : String) : ExceptT Failure m SourceFiles := do
  let paths ← (FileAccess.filesBelow directory : m (List String))
  let files ← (paths.filter (isSource directory)).mapM fun path => do
    return (path, ← readText (inDirectory directory path))
  return .ofList files

/-! ### Writing -/

/-- Remove files from a directory. -/
def removeFiles (directory : String) : List String → ExceptT Failure m Unit
  | [] => return ()
  | name :: names => do
    demand (FileAccess.removeFile (m := m) (inDirectory directory name))
    removeFiles directory names

/-- Write the files that differ; which files were written and which were not. -/
def writeFiles (directory : String) :
    List (String × String) → ExceptT Failure m (List String × List String)
  | [] => return ([], [])
  | (name, text) :: files => do
    let path := inDirectory directory name
    if (← (FileAccess.readText path : m (Option String))) == some text then
      let (written, unchanged) ← writeFiles directory files
      return (written, name :: unchanged)
    demand (FileAccess.writeText (m := m) path text)
    let (written, unchanged) ← writeFiles directory files
    return (name :: written, unchanged)

/-- Bring the generated files of a directory in line. -/
def sync (directory : String) (files : SourceFiles) : ExceptT Failure m Report := do
  demand (FileAccess.createDirectories (m := m) directory)
  let present ← (FileAccess.filesIn directory : m (List String))
  let stale := present.filter fun name => isGeneratedName name && !files.contains name
  removeFiles directory stale
  let (written, unchanged) ← writeFiles directory files.entries
  return { written, unchanged, removed := stale }

/-! ### Running -/

/-- The files that a generator makes. -/
def filesOf (g : Generator) (singleFile : Bool) (schema : List ContentType)
    (sources : SourceFiles) :
    Outcome SourceFiles := do
  if singleFile then
    return Keyed.empty.insert Generated.singleFileName (← g.generateSingle schema sources)
  else return (← g.generate schema sources).sources

/-- Run a command. -/
def run (c : Codec) : Command → ExceptT Failure m Answer
  | .generate schema singleFile options => do
    let settings ← readSettings c options
    let types ← readSchema c schema
    let sources ← readSources options.modelsDirectory
    let references ← readReferences c options
    let g ← orFail (Generator.ofSettings settings)
    let g := { g with reader := { g.reader with references } }
    let files ← orFail (filesOf g singleFile types sources)
    return .report (← sync options.modelsDirectory files)
  | .parse options => do
    let settings ← readSettings c options
    let sources ← readSources options.modelsDirectory
    let references ← readReferences c options
    let reader ← orFail (FactReader.ofSettings settings)
    let facts ← orFail ({ reader with references }.read sources)
    return .text (c.codeOptions (CodeOptions.ofDeclarations facts))

/-- Run a command line. -/
def runArguments (c : Codec) (environment : Option String) (arguments : List String) :
    ExceptT Failure m Answer := do
  match c.commandLine environment arguments with
  | some command => run c command
  | none => throw .usage

end Command
end ContentModels

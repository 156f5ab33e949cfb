import ContentModels.CodeModel.Build
import ContentModels.Facts
import ContentModels.Generated.Files

/-!
# Generation

One pass collects options from settings, code and the host, in this order, builds the
code model and generates code, which is then compiled together with the code that was
there.  A pass that fails yields nothing.
-/

namespace ContentModels

/-- What a host sets up for its passes. -/
structure Generator where
  settings : Settings
  reader : FactReader
  strategies : Strategies
  /-- Options of the host, applied last. -/
  declarations : List Declaration
  /-- What tells the passes of this host from those of others with the same inputs. -/
  tag : Option String

/-- What a pass generates. -/
structure GeneratedModels where
  modelsNamespace : String
  /-- The text for each class, by its name, in the order of the schema. -/
  texts : List (String × String)
deriving DecidableEq, Repr, Inhabited

namespace GeneratedModels

/-- The text for a class. -/
def text? (g : GeneratedModels) (className : String) : Option String :=
  g.texts.lookup className

/-- The generated files. -/
def files (g : GeneratedModels) : List (String × String) :=
  g.texts.map fun x => (Generated.fileName x.1, x.2)

/-- Source files with the generated ones, which replace files of the same names. -/
def addTo (g : GeneratedModels) (sources : SourceFiles) : SourceFiles :=
  g.files.foldl (fun s x => s.insert x.1 x.2) sources

/-- Whether two passes generate the same texts, in whatever order. -/
def agrees (g h : GeneratedModels) : Bool :=
  g.modelsNamespace == h.modelsNamespace && g.texts.length == h.texts.length &&
    g.texts.all fun x => h.text? x.1 == some x.2

/-- The generated files alone. -/
def sources (g : GeneratedModels) : SourceFiles :=
  g.addTo .empty

end GeneratedModels

namespace Generator

/-- The generator that settings ask for. -/
def ofSettings (settings : Settings) : Outcome Generator := do
  settings.validate
  return {
    settings
    reader := ← FactReader.ofSettings settings
    strategies := .standard settings
    declarations := []
    tag := none }

/-- Collect the options of a pass. -/
def collect (g : Generator) (sources : SourceFiles) : Outcome CodeOptions := do
  let facts ← g.reader.read sources
  return .ofDeclarations (g.settings.declarations ++ facts ++ g.declarations)

/-- Build the code model of a pass. -/
def model (g : Generator) (schema : List ContentType) (sources : SourceFiles) :
    Outcome CodeModel := do
  CodeModel.build g.settings g.strategies schema (← g.collect sources)

/-- Generate a file for each model. -/
def generate (g : Generator) (schema : List ContentType) (sources : SourceFiles) :
    Outcome GeneratedModels := do
  let m ← g.model schema sources
  let out : GeneratedModels :=
    { modelsNamespace := m.modelsNamespace, texts := ← Generated.texts g.settings m }
  g.reader.validate (out.addTo sources)
  return out

/-- Generate one file for all models. -/
def generateSingle (g : Generator) (schema : List ContentType) (sources : SourceFiles) :
    Outcome String := do
  let m ← g.model schema sources
  let text ← Generated.singleText g.settings m
  g.reader.validate (sources.insert Generated.singleFileName text)
  return text

end Generator
end ContentModels

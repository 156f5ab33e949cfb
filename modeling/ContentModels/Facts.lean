import ContentModels.Marker
import ContentModels.Settings

/-!
# Facts in code

What the code that users write says about models: the markers on assemblies, types
and members, and the base classes, interfaces and constructors that it declares.
Files that a tool has written only take part in name lookup.

Facts come in the order of the text, and each is a declaration or the failure to
read one.
-/

namespace ContentModels

open CSharp

/-- The source files of a pass, by name. -/
abbrev SourceFiles := Keyed String

/-- How code is read. -/
structure FactReader where
  version : LanguageVersion
  references : List Assembly
  /-- Base classes that are generated, so that declaring them says nothing. -/
  generatedBases : List String
  /-- The simple names of the types by which a constructor is known as the model's. -/
  referenceTypes : List String
deriving DecidableEq, Repr

/-- A declaration, or the failure to read one. -/
abbrev Finding := Outcome Declaration

namespace FactReader

/-- The reader with the standard references and base classes. -/
def ofVersion (version : LanguageVersion) : FactReader where
  version
  references := Assembly.standard
  generatedBases :=
    ["Umbraco.Core.Models.PublishedContent.PublishedContentModel",
      "Umbraco.Core.Models.PublishedContent.PublishedElementModel"]
  referenceTypes := ["IPublishedContent", "IPublishedElement"]

/-- The reader that settings ask for. -/
def ofSettings (s : Settings) : Outcome FactReader := do
  let r := ofVersion (← s.version)
  return { r with
    generatedBases := [s.contentBaseClass, s.elementBaseClass].foldl addOnce r.generatedBases
    referenceTypes :=
      [s.contentReferenceType, s.elementReferenceType].foldl
        (fun l t => addOnce l (Text.lastSegment t)) r.referenceTypes }

/-- Read source files and compile them. -/
def compile (r : FactReader) (sources : SourceFiles) : Outcome Compilation := do
  let units ← sources.entries.mapM fun e => parseUnit e.1 e.2 r.version
  Compilation.ofUnits units r.references

/-- Whether a base class is generated, by what it denotes or else by its name. -/
def isGeneratedBase (r : FactReader) (name : TypeName) (denoted : Option Symbol) : Bool :=
  r.generatedBases.any fun full =>
    denoted.any (·.fullName == full) || ".".intercalate name.path == full ||
      name.simpleName == Text.lastSegment full

/-- What a marker on an assembly declares. -/
def assemblyFact
    (c : Compilation) (scope : Scope) (file : String) (a : AttributeUse) :
    Marker → List Finding
  | .ignoreContentType =>
    match Marker.ignoreContentType.textArguments a file [1] with
    | .ok [pattern] => [.ok (.ignoreType pattern)]
    | .ok _ => []
    | .error e => [.error e]
  | .renameContentType =>
    match Marker.renameContentType.textArguments a file [2] with
    | .ok [aliasName, name] => [.ok (.renameType aliasName name)]
    | .ok _ => []
    | .error e => [.error e]
  | .ignoreProperty =>
    match Marker.ignoreProperty.textArguments a file [2] with
    | .ok [aliasName, pattern] => [.ok (.ignoreProperty (.typeAlias aliasName) pattern)]
    | .ok _ => []
    | .error e => [.error e]
  | .renameProperty =>
    match Marker.renameProperty.textArguments a file [3] with
    | .ok [aliasName, property, name] => [.ok (.renameProperty (.typeAlias aliasName) property name)]
    | .ok _ => []
    | .error e => [.error e]
  | .modelsNamespace =>
    match Marker.modelsNamespace.textArguments a file [1] with
    | .ok [name] => [.ok (.modelsNamespace name)]
    | .ok _ => []
    | .error e => [.error e]
  | .modelsUsing =>
    match Marker.modelsUsing.textArguments a file [1] with
    | .ok [name] => [.ok (.useNamespace name)]
    | .ok _ => []
    | .error e => [.error e]
  | .modelsBaseClass =>
    match Marker.modelsBaseClass.typeArgument a file with
    | .ok type =>
      let name := match c.resolve type scope with
        | some s => s.fullName
        | none => String.ofList (TypeName.dropGlobalMarks type.text.toList)
      [.ok (.modelsBaseClass name)]
    | .error e => [.error e]
  | .implementProperty | .implementContentType | .publishedModel => []

/-- What the attributes of an assembly declare. -/
def assemblyFacts (c : Compilation) (u : CompilationUnit) : List Finding :=
  u.assemblyAttributes.flatMap fun a =>
    match Marker.identify? a c (.ofFile u) with
    | some m => assemblyFact c (.ofFile u) u.file a m
    | none => []

/-- What a marker on a type declares. -/
def typeFact (className file : String) (a : AttributeUse) (m : Marker) : List Finding :=
  match m with
  | .implementContentType | .publishedModel =>
    match m.textArguments a file [1] with
    | .ok [aliasName] => [.ok (.renameType aliasName className)]
    | .ok _ => []
    | .error e => [.error e]
  | .ignoreProperty =>
    match m.textArguments a file [1] with
    | .ok [pattern] => [.ok (.ignoreProperty (.className className) pattern)]
    | .ok _ => []
    | .error e => [.error e]
  | .renameProperty =>
    match m.textArguments a file [2] with
    | .ok [property, name] => [.ok (.renameProperty (.className className) property name)]
    | .ok _ => []
    | .error e => [.error e]
  | _ => []

/--
What an entry of a base list declares.  What denotes an interface is one, and so is
everything in the base list of an interface and every later entry that denotes
nothing; the rest are base classes.
-/
def baseFact
    (r : FactReader) (c : Compilation) (t : TypeDeclaration) (index : Nat) (base : TypeName) :
    List Finding :=
  let denoted := c.resolve base (.ofType t)
  let isInterface := t.kind == .interfaceType ||
    match denoted with
    | some s => s.kind == .interfaceType
    | none => 0 < index
  if isInterface then [.ok (.interface t.name base.displayName)]
  else if r.isGeneratedBase base denoted then []
  else [.ok (.baseClass t.name base.displayName)]

/-- Whether a member is the constructor that models have. -/
def isModelConstructor (r : FactReader) (m : Member) : Bool :=
  match m.kind with
  | .constructor [p] =>
    !m.modifiers.contains "static" && r.referenceTypes.contains p.type.simpleName
  | _ => false

/-- What an attribute of a member declares. -/
def memberFact
    (c : Compilation) (t : TypeDeclaration) (file : String) (m : Member) (a : AttributeUse) :
    List Finding :=
  if Marker.identify? a c (.ofType t) = some .implementProperty then
    match m.kind with
    | .property _ | .method _ _ =>
      match Marker.implementProperty.textArguments a file [1, 2] with
      | .ok [property] => [.ok (.implementProperty (.className t.name) property)]
      | .ok [aliasName, property] => [.ok (.implementProperty (.typeAlias aliasName) property)]
      | .ok _ => []
      | .error e => [.error e]
    | _ => [Marker.fail file a .misplacedMarker]
  else []

/-- What a member declares. -/
def memberFacts
    (r : FactReader) (c : Compilation) (t : TypeDeclaration) (file : String) (m : Member) :
    List Finding :=
  (if r.isModelConstructor m then [.ok (.constructor t.name)] else []) ++
    m.attributes.flatMap (memberFact c t file m)

/-- What a type declares. -/
def typeFacts
    (r : FactReader) (c : Compilation) (file : String) (t : TypeDeclaration) : List Finding :=
  (t.attributes.flatMap fun a =>
    match Marker.identify? a c (.ofType t) with
    | some m => typeFact t.name file a m
    | none => []) ++
    (t.baseList.zipIdx.flatMap fun x => r.baseFact c t x.2 x.1) ++
    t.members.flatMap (r.memberFacts c t file)

/-- Whether a type can be a model: a class or an interface in no other type. -/
def isModelDeclaration (t : TypeDeclaration) : Bool :=
  t.containing.isEmpty && (t.kind == .classType || t.kind == .interfaceType)

/-- What a file declares. -/
def unitFacts (r : FactReader) (c : Compilation) (u : CompilationUnit) : List Finding :=
  if u.isGenerated then []
  else assemblyFacts c u ++
    (u.types.filter isModelDeclaration).flatMap (r.typeFacts c u.file)

/-- All findings of a compilation, in order. -/
def findings (r : FactReader) (c : Compilation) : List Finding :=
  c.units.flatMap (r.unitFacts c)

/-- What source files declare. -/
def read (r : FactReader) (sources : SourceFiles) : Outcome (List Declaration) := do
  let c ← r.compile sources
  (r.findings c).mapM id

/-- The declarations in front of the first failure, and that failure. -/
def readUpToFailure (r : FactReader) (sources : SourceFiles) :
    List Declaration × Option Failure :=
  match r.compile sources with
  | .error e => ([], some e)
  | .ok c => upTo (r.findings c)
where
  /-- Split findings at the first failure. -/
  upTo : List Finding → List Declaration × Option Failure
    | [] => ([], none)
    | .error e :: _ => ([], some e)
    | .ok d :: rest => (d :: (upTo rest).1, (upTo rest).2)

/-- Check that source files can be read and compiled. -/
def validate (r : FactReader) (sources : SourceFiles) : Outcome Unit := do
  let _ ← r.compile sources

end FactReader
end ContentModels

import ContentModels.CSharp.Diagnostic
import ContentModels.Options.Key
import ContentModels.Schema

/-!
# Failures

All ways in which a pass can fail, as causes.  The wording of a cause is the
function `Failure.message?`; documents, files and command lines that cannot be
read fail without one.
-/

namespace ContentModels

/-- What is wrong with a schema or with settings. -/
inductive ConfigurationFault where
  | languageVersion (text : String)
  | emptyNamespace
  | getterPattern (pattern : String)
  | emptySetting (setting : String)
  | emptyAlias (id : Int)
  | duplicateId (id : Int) (first second : String)
  | duplicateAlias (firstKind : ContentKind) (first : String) (secondKind : ContentKind)
      (second : String)
  | duplicateProperty (type first second : String)
  | unknownParent (type : String) (id : Int)
  | unknownComposition (type : String) (id : Int)
  | inheritanceCycle (type : String)
  | invalidName (name subject : String)
  | typeNameCollision (aliasName name otherName otherAlias : String)
  | propertyNameCollision (type first second name : String)
  | memberNameCollision (type first second name : String)
  | reservedName (property type name : String)
deriving DecidableEq, Repr

namespace ConfigurationFault

/-- The wording of a cause. -/
def message : ConfigurationFault → String
  | .languageVersion text => "Invalid language version '" ++ text ++ "'"
  | .emptyNamespace => "Models namespace must not be empty"
  | .getterPattern pattern =>
    "Getter pattern '" ++ pattern ++ "' must contain the '\x7b0\x7d' placeholder"
  | .emptySetting setting => "'" ++ setting ++ "' must not be empty"
  | .emptyAlias id => "Content type with id " ++ toString id ++ " has an empty alias"
  | .duplicateId id first second =>
    "Duplicate content type id " ++ toString id ++ " ('" ++ first ++ "' and '" ++ second ++ "')"
  | .duplicateAlias firstKind first secondKind second =>
    "Duplicate content type alias '" ++ second ++ "': " ++ firstKind.name ++ " type '" ++ first ++
      "' and " ++ secondKind.name ++ " type '" ++ second ++ "'"
  | .duplicateProperty type first second =>
    "Duplicate property alias '" ++ second ++ "' on content type '" ++ type ++
      "' (conflicts with '" ++ first ++ "')"
  | .unknownParent type id =>
    "Content type '" ++ type ++ "' has unknown parent id " ++ toString id
  | .unknownComposition type id =>
    "Content type '" ++ type ++ "' is composed of unknown content type id " ++ toString id
  | .inheritanceCycle type => "Content type '" ++ type ++ "' inherits from itself"
  | .invalidName name subject => "Invalid CLR name '" ++ name ++ "' for " ++ subject
  | .typeNameCollision aliasName name otherName otherAlias =>
    "CLR name collision: content type '" ++ aliasName ++ "' generates '" ++ name ++
      "' which conflicts with '" ++ otherName ++ "' of content type '" ++ otherAlias ++ "'"
  | .propertyNameCollision type first second name =>
    "CLR name collision on content type '" ++ type ++ "': properties '" ++ first ++ "' and '" ++
      second ++ "' both map to '" ++ name ++ "'"
  | .memberNameCollision type first second name =>
    "CLR name collision on content type '" ++ type ++
      "': members generated for properties '" ++ first ++ "' and '" ++ second ++
      "' are both named '" ++ name ++ "'"
  | .reservedName property type name =>
    "Property '" ++ property ++ "' of content type '" ++ type ++ "' has reserved CLR name '" ++
      name ++ "'"

end ConfigurationFault

/-- How the order of collecting, mapping and querying options is broken. -/
inductive StateFault where
  | alreadyMapped
  | queriedBeforeMapping (key : TypeKey)
  | queriedAfterMapping (key : TypeKey)
deriving DecidableEq, Repr

namespace StateFault

/-- The wording of a cause. -/
def message : StateFault → String
  | .alreadyMapped => "Content type aliases have already been mapped to CLR names"
  | .queriedBeforeMapping key =>
    "Cannot query property options by " ++ key.display ++
      " before aliases are mapped to CLR names"
  | .queriedAfterMapping key =>
    "Cannot query property options by " ++ key.display ++
      " after aliases are mapped to CLR names"

end StateFault

/-- Why a pass fails. -/
inductive Failure where
  /-- Source text is refused. -/
  | compilation (file : String) (diagnostic : CSharp.Diagnostic)
  /-- The schema or the settings are refused. -/
  | configuration (fault : ConfigurationFault)
  /-- Options are used out of order. -/
  | invalidState (fault : StateFault)
  /-- A document cannot be read as what it should hold. -/
  | malformedDocument
  /-- A file cannot be read or written. -/
  | fileAccess
  /-- A command line is refused. -/
  | usage
deriving DecidableEq, Repr

/-- The outcome of a pass. -/
abbrev Outcome := Except Failure

namespace Failure

/-- The wording of a failure that has one. -/
def message? : Failure → Option String
  | .compilation file d =>
    some (file ++ "(" ++ toString d.line ++ "): error: " ++ d.fault.message)
  | .configuration fault => some ("Configuration Error: " ++ fault.message)
  | .invalidState fault => some ("Invalid State: " ++ fault.message)
  | .malformedDocument | .fileAccess | .usage => none

end Failure

namespace CSharp.LanguageVersion

/-- Read a version, or say that the text is none. -/
def parse (text : String) : Outcome LanguageVersion :=
  match parse? text with
  | some v => .ok v
  | none => .error (.configuration (.languageVersion text))

end CSharp.LanguageVersion

end ContentModels

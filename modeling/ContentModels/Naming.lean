import ContentModels.Failure
import ContentModels.Text.Blank
import ContentModels.Text.PascalCase

/-!
# Names of generated classes and members

Names are derived from aliases or display names.  Whatever the source, a derived
name consists of ASCII letters, digits and underscores and does not start with a
digit; a name is usable if, moreover, it is no keyword of the language.
-/

namespace ContentModels

/-- What names are derived from. -/
inductive NameSource where
  /-- The alias in pascal case. -/
  | pascalAlias
  /-- The alias with a capital first letter. -/
  | rawAlias
  /-- The display name in pascal case. -/
  | displayName
deriving DecidableEq, Repr, Inhabited

namespace NameSource

/-- The name of a source. -/
def name : NameSource → String
  | .pascalAlias => "Alias"
  | .rawAlias => "RawAlias"
  | .displayName => "Name"

/-- All sources. -/
def all : List NameSource :=
  [.pascalAlias, .rawAlias, .displayName]

end NameSource

namespace Naming

/-- The keywords of the language, which are no names. -/
def keywords : List String :=
  ["abstract", "as", "base", "bool", "break", "byte", "case", "catch", "char", "checked",
    "class", "const", "continue", "decimal", "default", "delegate", "do", "double", "else",
    "enum", "event", "explicit", "extern", "false", "finally", "fixed", "float", "for",
    "foreach", "goto", "if", "implicit", "in", "int", "interface", "internal", "is", "lock",
    "long", "namespace", "new", "null", "object", "operator", "out", "override", "params",
    "private", "protected", "public", "readonly", "ref", "return", "sbyte", "sealed", "short",
    "sizeof", "stackalloc", "static", "string", "struct", "switch", "this", "throw", "true",
    "try", "typeof", "uint", "ulong", "unchecked", "unsafe", "ushort", "using", "virtual",
    "void", "volatile", "while"]

/-- An ASCII letter, a digit or an underscore. -/
def isNameChar (c : Char) : Bool :=
  c.isAlphanum || c == '_'

/-- Keep the characters that a name may hold, and put an underscore in front of a digit or of nothing. -/
def sanitize (cs : List Char) : List Char :=
  match cs.filter isNameChar with
  | [] => ['_']
  | c :: rest => if c.isDigit then '_' :: c :: rest else c :: rest

/-- A text with its first character in upper case. -/
def upperFirst : List Char → List Char
  | [] => []
  | c :: cs => Text.upperChar c ++ cs

/-- The name derived from a text by pascal case. -/
def identifierOf (text : String) : String :=
  String.ofList (sanitize (Text.pascalCase text.toList))

/-- The name derived from an alias and a display name. -/
def derive (source : NameSource) (aliasName displayName : String) : String :=
  match source with
  | .pascalAlias => identifierOf aliasName
  | .rawAlias => String.ofList (sanitize (upperFirst aliasName.toList))
  | .displayName =>
    if Text.isBlankText displayName then identifierOf aliasName else identifierOf displayName

/-- Whether a text is a name: of name characters, not starting with a digit, and no keyword. -/
def isValid (name : String) : Bool :=
  match name.toList with
  | [] => false
  | c :: cs =>
    isNameChar c && !c.isDigit && cs.all isNameChar && !keywords.contains name

/-- Check that the name of a subject is usable. -/
def validate (name subject : String) : Outcome Unit :=
  if isValid name then .ok () else .error (.configuration (.invalidName name subject))

end Naming
end ContentModels

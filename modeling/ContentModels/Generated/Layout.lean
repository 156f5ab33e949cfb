import ContentModels.CodeModel.Members
import ContentModels.Text.Split

/-!
# Pieces of generated code

Generated code is a list of lines.  Display texts only get into comments, where each of
their lines becomes a line of its own, and aliases only into string literals and one
comment.
-/

namespace ContentModels
namespace Generated

/-- The lines of a text, each ended by a line feed. -/
def textOf (lines : List String) : String :=
  String.join (lines.map (· ++ "\n"))

/-- A character in a documentation comment. -/
def escapeMarkup (c : Char) : List Char :=
  match c with
  | '&' => "&amp;".toList
  | '<' => "&lt;".toList
  | '>' => "&gt;".toList
  | c => [c]

/-- A text in a documentation comment. -/
def markup (s : String) : String :=
  String.ofList (s.toList.flatMap escapeMarkup)

/-- A character in a string literal. -/
def escapeLiteral (c : Char) : List Char :=
  match c with
  | '\\' => ['\\', '\\']
  | '"' => ['\\', '"']
  | c => [c]

/-- A text as a string literal. -/
def literal (s : String) : String :=
  "\"" ++ String.ofList (s.toList.flatMap escapeLiteral) ++ "\""

/-- The display name of something and its description, if it has one. -/
def displayText (name : String) (description : Option String) : String :=
  let detail := Text.trim (description.getD "")
  if detail.isEmpty then name
  else if name.isEmpty then detail
  else name ++ ": " ++ detail

/-- The documentation comment of something. -/
def summary (indent name : String) (description : Option String) : List String :=
  [indent ++ "///<summary>"] ++
    (Text.lines (displayText name description)).map
      (fun line => indent ++ "/// " ++ markup (Text.trimEnd line)) ++
    [indent ++ "///</summary>"]

/-- The namespaces that every generated file uses. -/
def standardUsings : List String :=
  ["System", "System.Collections.Generic", "System.Linq.Expressions", "System.Web",
    "Umbraco.Core.Models", "Umbraco.Core.Models.PublishedContent", "Umbraco.Web",
    "Umbraco.ModelsBuilder"]

/-- What the layout of generated code depends on besides the models. -/
structure Layout where
  settings : Settings
  /-- Whether the language has expressions as bodies. -/
  expressionBodies : Bool
  /-- The namespaces used, in order. -/
  usings : List String

namespace Layout

/-- The layout that settings ask for. -/
def ofSettings (settings : Settings) (usingNamespaces : List String) : Outcome Layout := do
  let version ← settings.version
  return {
    settings
    expressionBodies := version.supports .expressionBodiedProperty
    usings := usingNamespaces.foldl addOnce standardUsings }

/-- A type name without a namespace that is used. -/
def shorten (l : Layout) (name : String) : String :=
  let cs := name.toList
  if cs.contains '<' then name
  else
    let simple := Text.afterLast '.' cs
    let qualifier := String.ofList (cs.take (cs.length - simple.length - 1))
    if cs.contains '.' && l.usings.contains qualifier then String.ofList simple else name

/-- A method, given its head and the expression that it returns. -/
def method (l : Layout) (head expression : String) : List String :=
  if l.expressionBodies then ["\t\t" ++ head, "\t\t\t=> " ++ expression ++ ";"]
  else ["\t\t" ++ head, "\t\t\x7b", "\t\t\treturn " ++ expression ++ ";", "\t\t\x7d"]

/-- The value of a property, read from a target. -/
def valueOf (l : Layout) (target : String) (p : ModelProperty) : String :=
  target ++ ".Value<" ++ l.shorten p.valueType ++ ">(" ++ literal p.type.aliasName ++ ")"

/-- The name of the getter of a property. -/
def getter (l : Layout) (p : ModelProperty) : String :=
  l.settings.getterName p.name

/-- The head of a type, with what it is derived from. -/
def head (l : Layout) (declaration : String) (bases : List String) : String :=
  "\t" ++ declaration ++
    if bases.isEmpty then "" else " : " ++ ", ".intercalate (bases.map l.shorten)

end Layout
end Generated
end ContentModels

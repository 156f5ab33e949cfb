import ContentModels.Command.Arguments
import ContentModels.Document.Decode
import ContentModels.Document.Encode
import ContentModels.Document.Json
import ContentModels.Document.Yaml
import ContentModels.Schema
import ContentModels.Settings

/-!
# What commands are given in writing

Command lines and documents are read by libraries, and so is what a command prints written.
A command takes them as they come (`Codec`): what it does with what is read does not depend
on how it is read.  One way of reading and writing is fixed for running commands
(`Codec.standard`).
-/

namespace ContentModels

/-- The languages of documents. -/
inductive DocumentFormat where
  | json
  | yaml
deriving DecidableEq, Repr

/-- How command lines and documents are read, and documents written. -/
structure Codec where
  /--
  The command that a command line asks for; none if it asks for no command.  The environment
  may name a file with settings.
  -/
  commandLine : Option String → List String → Option Command
  settings : DocumentFormat → String → Option Settings
  schema : DocumentFormat → String → Option (List ContentType)
  /-- The assembly that a document describes; such documents have one format. -/
  assembly : String → Option CSharp.Assembly
  codeOptions : CodeOptions → String

namespace Codec

/-- Read a value of a shape from the text of a document. -/
def decode {α : Type} (shape : Shape) (read : Node → Option α) (format : DocumentFormat)
    (text : String) : Option α :=
  let node := match format with
    | .json => Json.parse text
    | .yaml => Yaml.parse shape text
  node.toOption.bind read

/-- The codec by which commands are run. -/
def standard : Codec where
  commandLine := Command.ofArguments?
  settings := decode Settings.shape Settings.ofNode?
  schema := decode ContentType.listShape (Node.asList? ContentType.ofNode?)
  assembly := decode .value CSharp.Assembly.ofNode? .json
  codeOptions o := Json.pretty o.toNode

end Codec
end ContentModels

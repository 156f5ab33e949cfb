import ContentModels.CodeModel.Inheritance
import ContentModels.CodeModel.Members
import ContentModels.Schema.Validation

/-!
# Building code models

A code model is built from a schema and options whose aliases are not mapped yet.  All
names are checked on the way, so that what is generated from a model fits together.
-/

namespace ContentModels
namespace CodeModel

/-- The namespaces used besides the standard ones. -/
def usings (settings : Settings) (options : CodeOptions) : List String :=
  TextSet.toList (.ofList ((settings.usingNamespaces ++ options.usingNamespaces).filter
    fun name => !Text.isBlankText name))

/-- Build the model of a schema. -/
def build
    (settings : Settings) (strategies : Strategies) (schema : List ContentType)
    (options : CodeOptions) :
    Outcome CodeModel := do
  Schema.validate schema
  let linked ← Schema.link schema
  let isIgnored := options.contentTypes.isIgnored
  let named ← TypeNames.assignAll settings strategies options.contentTypes
    (Hierarchy.participants isIgnored linked)
  let mapped ← options.contentTypes.mapAliases (TypeNames.byAlias named)
  let plan : Properties.Plan :=
    { settings, strategies, options := mapped
      placeholders :=
        TypeNames.placeholders settings (Hierarchy.dropped isIgnored linked) named }
  let propertied ← named.mapM (Properties.own plan)
  let models := propertied.zipIdx.map fun x =>
    Inheritance.complete plan options.modelsBaseClass propertied x.2 x.1
  models.forM (Model.checkMembers settings models)
  return {
    modelsNamespace := options.modelsNamespace.getD settings.modelsNamespace
    usingNamespaces := usings settings options
    models }

end CodeModel
end ContentModels

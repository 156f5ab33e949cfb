import ContentModels.Options.ContentTypes

/-!
# Declarations of options

Settings, code and hosts contribute options as declarations, which are applied in
order.  Of settings with one value the last declaration counts; lists and sets only
grow, and hold nothing twice.
-/

namespace ContentModels

/-- The options of one pass. -/
structure CodeOptions where
  modelsNamespace : Option String
  /-- Namespaces that generated files use, in the order of declaration. -/
  usingNamespaces : List String
  /-- The base class of models that are no elements. -/
  modelsBaseClass : Option String
  contentTypes : ContentTypeOptions
deriving DecidableEq, Repr

namespace CodeOptions

/-- No options. -/
def empty : CodeOptions := ⟨none, [], none, .empty⟩

instance : Inhabited CodeOptions := ⟨empty⟩

end CodeOptions

/-- One contribution to the options. -/
inductive Declaration where
  | modelsNamespace (name : String)
  | useNamespace (name : String)
  | modelsBaseClass (name : String)
  | ignoreType (pattern : String)
  | renameType (aliasName name : String)
  | ignoreProperty (key : TypeKey) (pattern : String)
  | renameProperty (key : TypeKey) (property name : String)
  | implementProperty (key : TypeKey) (property : String)
  | baseClass (className base : String)
  | interface (className interface : String)
  | constructor (className : String)
deriving DecidableEq, Repr

/-- Add an entry to a list that does not hold it. -/
def addOnce (l : List String) (s : String) : List String :=
  if l.contains s then l else l ++ [s]

namespace ContentTypeOptions

/-- Apply a declaration; those about a whole pass change nothing here. -/
def declare (o : ContentTypeOptions) : Declaration → ContentTypeOptions
  | .ignoreType pattern => { o with ignored := o.ignored.add (Text.lowercase pattern) }
  | .renameType aliasName name =>
    { o with classNames := o.classNames.insert (Text.lowercase aliasName) name }
  | .ignoreProperty key pattern =>
    o.updateProperties key fun p => { p with ignored := p.ignored.add (Text.lowercase pattern) }
  | .renameProperty key property name =>
    o.updateProperties key fun p =>
      { p with names := p.names.insert (Text.lowercase property) name }
  | .implementProperty key property =>
    o.updateProperties key fun p =>
      { p with implemented := p.implemented.add (Text.lowercase property) }
  | .baseClass className base =>
    { o with baseClasses := o.baseClasses.insert (Text.lowercase className) base }
  | .interface className interface =>
    { o with interfaces :=
        o.interfaces.update (Text.lowercase className) fun l => addOnce (l.getD []) interface }
  | .constructor className =>
    { o with constructors := o.constructors.add (Text.lowercase className) }
  | .modelsNamespace _ | .useNamespace _ | .modelsBaseClass _ => o

end ContentTypeOptions

namespace CodeOptions

/-- Apply a declaration. -/
def declare (o : CodeOptions) : Declaration → CodeOptions
  | .modelsNamespace name => { o with modelsNamespace := some name }
  | .useNamespace name => { o with usingNamespaces := addOnce o.usingNamespaces name }
  | .modelsBaseClass name => { o with modelsBaseClass := some name }
  | d => { o with contentTypes := o.contentTypes.declare d }

/-- Apply declarations in order. -/
def declareAll (o : CodeOptions) (ds : List Declaration) : CodeOptions :=
  ds.foldl declare o

/-- The options that declarations give. -/
def ofDeclarations (ds : List Declaration) : CodeOptions :=
  empty.declareAll ds

end CodeOptions
end ContentModels

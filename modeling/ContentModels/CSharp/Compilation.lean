import ContentModels.CSharp.Assembly
import ContentModels.CSharp.Parse.Unit
import ContentModels.Failure
import ContentModels.Text.Split

/-!
# Compilations and name lookup

A compilation is a list of files together with the types that names can denote:
those the files declare, which come first, and those of the references, of which a
later one hides an earlier one.  A name is looked up as a list of candidates, full
names in the order in which the language tries them.
-/

namespace ContentModels
namespace CSharp

/-- Read a source file under a name. -/
def parseUnit (file source : String) (version : LanguageVersion) : Outcome CompilationUnit :=
  match parseSource file source version with
  | .ok unit => .ok unit
  | .error d => .error (.compilation file d)

/-- A type that a name can denote. -/
structure Symbol where
  fullName : String
  kind : SymbolKind
  arity : Nat
  /-- The assembly that offers the type; none for a type that a file declares. -/
  assembly : Option String
deriving DecidableEq, Repr

namespace Symbol

/-- The symbol of a declared type. -/
def ofDeclaration (t : TypeDeclaration) : Symbol :=
  ⟨t.fullName, .ofDeclaration t.kind, t.arity, none⟩

/-- The symbols of an assembly. -/
def ofAssembly (a : Assembly) : List Symbol :=
  a.types.map fun t => ⟨t.fullName, t.kind, t.arity, some a.name⟩

end Symbol

/-- Where a name stands. -/
structure Scope where
  /-- The enclosing namespace, dotted. -/
  enclosing : String
  /-- The enclosing types, outermost first. -/
  types : List String
  usings : List UsingDirective

namespace Scope

/-- The scope inside a type. -/
def ofType (t : TypeDeclaration) : Scope := ⟨t.enclosing, t.path, t.usings⟩

/-- The scope of a file outside its types. -/
def ofFile (u : CompilationUnit) : Scope := ⟨"", [], u.usings⟩

/-- The segments of the enclosing namespace. -/
def segments (s : Scope) : List String :=
  (Text.split '.' s.enclosing).filter (· != "")

/-- All beginnings of a list, the longest first and the empty one last. -/
def beginnings (l : List String) : List (List String) :=
  (List.range (l.length + 1)).reverse.map l.take

/-- The full names of a name as a nested type of the enclosing types, innermost first. -/
def nestedNames (s : Scope) (written : String) : List String :=
  let outer := if s.enclosing = "" then [] else [s.enclosing]
  ((beginnings s.types).filter (· != [])).map fun types =>
    ".".intercalate (outer ++ types ++ [written])

/-- The full names of a name in the enclosing namespaces, innermost first and the global one last. -/
def namespaceNames (s : Scope) (written : String) : List String :=
  (beginnings s.segments).map fun segments => ".".intercalate (segments ++ [written])

/-- The target of the last directive that gives a name to it. -/
def aliasTarget? (s : Scope) (name : String) : Option TypeName :=
  (s.usings.reverse.find? fun d => d.kind == .named name).map (·.target)

/-- The full names of a name in the namespaces that directives bring into scope. -/
def importedNames (s : Scope) (written : String) : List String :=
  (s.usings.filter fun d => d.kind == .namespaceMembers).map fun d =>
    ".".intercalate d.target.path ++ "." ++ written

/--
The full name and number of type arguments of what a name may denote, in the order
in which they are tried.  A name given by a directive hides imported types, and
directives import types but no nested namespaces.
-/
def candidates (s : Scope) (name : TypeName) : List (String × Nat) :=
  match name.path with
  | [] => []
  | first :: others =>
    let written := ".".intercalate name.path
    if name.fromGlobal then [(written, name.arity)]
    else
      let direct := (s.nestedNames written ++ s.namespaceNames written).map (·, name.arity)
      match s.aliasTarget? first with
      | some target =>
        let arity := if others.isEmpty then target.arity else name.arity
        direct ++ [(".".intercalate (target.path ++ others), arity)]
      | none =>
        if others.isEmpty then direct ++ (s.importedNames written).map (·, name.arity)
        else direct

end Scope

/-- Files with the types that names in them can denote. -/
structure Compilation where
  units : List CompilationUnit
  /-- The symbols; of two with one name and number of type parameters the first counts. -/
  symbols : List Symbol
deriving Repr

namespace Compilation

/-- The type declarations of files, with the name of the file. -/
def declarations (units : List CompilationUnit) : List (String × TypeDeclaration) :=
  units.flatMap fun u => u.types.map (u.file, ·)

/-- Whether two declarations are of types with one full name and number of type parameters. -/
def sameType (a b : TypeDeclaration) : Bool :=
  a.arity == b.arity && a.fullName == b.fullName

/-- The fault of declaring a type a second time. -/
def duplicateFault (t : TypeDeclaration) : Fault :=
  .duplicateType (if t.enclosing = "" then "<global namespace>" else t.enclosing) t.name

/-- Check that types declared before, or twice, are partial throughout. -/
def checkDuplicates (before : List TypeDeclaration) :
    List (String × TypeDeclaration) → Outcome Unit
  | [] => .ok ()
  | (file, t) :: rest =>
    match before.find? (sameType t) with
    | some earlier =>
      if earlier.isPartial && t.isPartial then checkDuplicates before rest
      else .error (.compilation file ⟨t.line, duplicateFault t⟩)
    | none => checkDuplicates (before ++ [t]) rest

/-- Compile files against references. -/
def ofUnits (units : List CompilationUnit) (references : List Assembly) :
    Outcome Compilation := do
  let declared := declarations units
  checkDuplicates [] declared
  return {
    units
    symbols := declared.map (fun x => .ofDeclaration x.2) ++
      (references.flatMap Symbol.ofAssembly).reverse }

/-- The symbol of a full name. -/
def symbol? (c : Compilation) (fullName : String) (arity : Nat) : Option Symbol :=
  c.symbols.find? fun s => s.arity == arity && s.fullName == fullName

/-- What a name denotes in a scope. -/
def resolve (c : Compilation) (name : TypeName) (scope : Scope) : Option Symbol :=
  (scope.candidates name).findSome? fun x => c.symbol? x.1 x.2

/-- The name of an attribute with the ending `Attribute`, when it is written without. -/
def suffixed? (name : TypeName) : Option TypeName :=
  match name.path.getLast? with
  | none => none
  | some last =>
    if (AttributeUse.dropSuffix? last).isSome then none
    else some { name with path := name.path.dropLast ++ [last ++ "Attribute"] }

/-- What the name of an attribute denotes, with the ending `Attribute` first. -/
def resolveAttribute (c : Compilation) (name : TypeName) (scope : Scope) : Option Symbol :=
  match suffixed? name with
  | some suffixed => (c.resolve suffixed scope).or (c.resolve name scope)
  | none => c.resolve name scope

end Compilation

end CSharp
end ContentModels

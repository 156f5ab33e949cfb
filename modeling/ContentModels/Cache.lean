import ContentModels.Generation

/-!
# Cached passes

A cache keeps what the last successful pass generated, together with a fingerprint of
all inputs of that pass.  A request with the same fingerprint gets what is kept; any
other runs a pass, and a pass that fails leaves the cache as it is.
-/

namespace ContentModels

/-- The inputs of a pass. -/
structure PassInputs where
  schema : List ContentType
  settings : Settings
  reader : FactReader
  tag : Option String
  sources : SourceFiles
deriving DecidableEq, Repr

namespace PassInputs

/-- The inputs of a pass of a generator. -/
def ofPass (g : Generator) (schema : List ContentType) (sources : SourceFiles) : PassInputs :=
  { schema, settings := g.settings, reader := g.reader, tag := g.tag, sources }

end PassInputs

/-- A cache that tells inputs apart by fingerprints. -/
structure Cache (κ : Type) where
  entry : Option (κ × GeneratedModels)

namespace Cache

variable {κ : Type}

/-- The cache that keeps nothing. -/
def empty : Cache κ := ⟨none⟩

/-- The models kept. -/
def current? (c : Cache κ) : Option GeneratedModels :=
  c.entry.map (·.2)

/-- The models kept for a fingerprint. -/
def lookup? [DecidableEq κ] (c : Cache κ) (fingerprint : κ) : Option GeneratedModels :=
  match c.entry with
  | some (kept, models) => if kept = fingerprint then some models else none
  | none => none

/-- Keep models, and nothing else. -/
def store (_ : Cache κ) (fingerprint : κ) (models : GeneratedModels) : Cache κ :=
  ⟨some (fingerprint, models)⟩

/-- Keep nothing. -/
def clear (_ : Cache κ) : Cache κ :=
  empty

/-- What is kept for the inputs of a pass, or else what the pass generates. -/
def get [DecidableEq κ]
    (fingerprint : PassInputs → κ) (c : Cache κ) (g : Generator) (schema : List ContentType)
    (sources : SourceFiles) :
    Outcome GeneratedModels × Cache κ :=
  let f := fingerprint (.ofPass g schema sources)
  match c.lookup? f with
  | some models => (.ok models, c)
  | none =>
    match g.generate schema sources with
    | .ok models => (.ok models, c.store f models)
    | .error e => (.error e, c)

end Cache
end ContentModels

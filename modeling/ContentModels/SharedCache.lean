import ContentModels.Cache
import Mathlib.Logic.Function.Basic

/-!
# A cache with many callers

Callers share one cache.  A call goes in steps, and only a step is undivided: a caller looks up
what is kept for its fingerprint, or else runs a pass, and after that stores what the pass has
generated; a caller that invalidates clears the cache in one step.  Between the steps of one
caller any others may take theirs, so what is looked up may be outdated when models are stored.
-/

namespace ContentModels

/-- A generator that builds its model as settings say, with no options of the host. -/
structure Generator.IsStandard (g : Generator) : Prop where
  strategies : g.strategies = .standard g.settings
  declarations : g.declarations = []

/-- A request for models, by a generator that its inputs determine. -/
structure Request where
  generator : Generator
  schema : List ContentType
  sources : SourceFiles
  standard : generator.IsStandard

namespace Request

/-- The inputs of the pass that is requested. -/
def inputs (r : Request) : PassInputs :=
  .ofPass r.generator r.schema r.sources

/-- What the pass itself gives. -/
def outcome (r : Request) : Outcome GeneratedModels :=
  r.generator.generate r.schema r.sources

end Request

/-- What a caller asks of a cache. -/
inductive Call where
  | get (r : Request)
  | invalidate

/-- How far a caller is with its call. -/
inductive Stage (κ : Type) where
  | idle
  | called (c : Call)
  /-- Nothing is kept for the fingerprint, and the pass is to be run. -/
  | missed (r : Request) (fingerprint : κ)
  /-- The pass has generated models, which are to be stored. -/
  | generated (r : Request) (fingerprint : κ) (models : GeneratedModels)
  | answered (r : Request) (answer : Outcome GeneratedModels)
  | invalidated

namespace Stage

variable {κ : Type}

/-- Whether a call is under way. -/
def isBusy : Stage κ → Bool
  | .idle | .answered .. | .invalidated => false
  | .called _ | .missed .. | .generated .. => true

/-- The request that a caller is about, or was answered last. -/
def request? : Stage κ → Option Request
  | .called (.get r) | .missed r _ | .generated r .. | .answered r _ => some r
  | _ => none

/-- One step of a call, and what it leaves in the cache. -/
def next [DecidableEq κ] (fingerprint : PassInputs → κ) (c : Cache κ) :
    Stage κ → Stage κ × Cache κ
  | .called (.get r) =>
    let f := fingerprint r.inputs
    match c.lookup? f with
    | some models => (.answered r (.ok models), c)
    | none => (.missed r f, c)
  | .missed r f =>
    match r.outcome with
    | .ok models => (.generated r f models, c)
    | .error e => (.answered r (.error e), c)
  | .generated r f models => (.answered r (.ok models), c.store f models)
  | .called .invalidate => (.invalidated, c.clear)
  | s => (s, c)

end Stage

/-- What happens next: a caller starts a call, or goes on with the one under way. -/
inductive Event (ι : Type) where
  | call (caller : ι) (c : Call)
  | proceed (caller : ι)

/-- Whether a caller goes on. -/
def Event.isProceed {ι : Type} [DecidableEq ι] (i : ι) : Event ι → Bool
  | .proceed j => i == j
  | .call .. => false

/-- A cache and its callers. -/
structure SharedCache (κ ι : Type) where
  cache : Cache κ
  stage : ι → Stage κ

namespace SharedCache

variable {κ ι : Type} [DecidableEq κ] [DecidableEq ι]

/-- An empty cache of which nothing has been asked. -/
def start : SharedCache κ ι :=
  ⟨.empty, fun _ => .idle⟩

/-- The next event; a caller starts no call while one is under way. -/
def step (fingerprint : PassInputs → κ) (w : SharedCache κ ι) : Event ι → SharedCache κ ι
  | .call i c =>
    if (w.stage i).isBusy then w else { w with stage := Function.update w.stage i (.called c) }
  | .proceed i =>
    let (s, cache) := (w.stage i).next fingerprint w.cache
    ⟨cache, Function.update w.stage i s⟩

/-- Some events, in order. -/
def run (fingerprint : PassInputs → κ) (w : SharedCache κ ι) (es : List (Event ι)) :
    SharedCache κ ι :=
  es.foldl (step fingerprint) w

end SharedCache
end ContentModels

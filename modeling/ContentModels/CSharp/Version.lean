import ContentModels.Text.Blank

/-!
# Language versions

The versions of C#, how a version is written, and the syntax features that are
available only from some version on.  Versions are ordered by major and then by
minor number, and a feature once introduced stays available.
-/

namespace ContentModels
namespace CSharp

/-- A version of the language. -/
structure LanguageVersion where
  major : Nat
  minor : Nat
deriving DecidableEq, Repr

namespace LanguageVersion

/-- The versions that exist, in order. -/
def known : List LanguageVersion :=
  [⟨1, 0⟩, ⟨2, 0⟩, ⟨3, 0⟩, ⟨4, 0⟩, ⟨5, 0⟩, ⟨6, 0⟩, ⟨7, 0⟩, ⟨7, 1⟩, ⟨7, 2⟩, ⟨7, 3⟩,
    ⟨8, 0⟩, ⟨9, 0⟩, ⟨10, 0⟩, ⟨11, 0⟩, ⟨12, 0⟩]

/-- The version used when none is chosen. -/
def standard : LanguageVersion := ⟨7, 3⟩

/-- The newest version. -/
def latest : LanguageVersion := ⟨12, 0⟩

instance : Inhabited LanguageVersion := ⟨standard⟩

/-- Whether the first version is at most the second. -/
def atMost (v w : LanguageVersion) : Bool :=
  v.major < w.major || (v.major == w.major && v.minor ≤ w.minor)

/-- Order of versions. -/
def compare (v w : LanguageVersion) : Ordering :=
  if v = w then .eq else if v.atMost w then .lt else .gt

theorem atMost_iff
    {v w : LanguageVersion} :
    v.atMost w = true ↔
      v.major < w.major ∨ (v.major = w.major ∧ v.minor ≤ w.minor) := by
  simp [atMost]

theorem atMost_trans
    {u v w : LanguageVersion}
    (huv : u.atMost v = true)
    (hvw : v.atMost w = true) :
    u.atMost w = true := by
  rw [atMost_iff] at *
  omega

/-- The written form: the minor number is left out when it is zero. -/
def display (v : LanguageVersion) : String :=
  if v.minor = 0 then toString v.major
  else toString v.major ++ "." ++ toString v.minor

/-- The name of the language in front of a number, in either spelling and any case. -/
def dropLanguageName : List Char → List Char
  | c :: '#' :: cs => if c.toLower = 'c' then cs else c :: '#' :: cs
  | cs =>
    let isCSharp (w : List Char) : Bool :=
      w.map (fun c => if c = 'ſ' then 's' else c.toLower) == "csharp".toList
    if isCSharp (cs.take 6) then cs.drop 6 else cs

/-- The value of a decimal digit. -/
def digit? (c : Char) : Option Nat :=
  if c.isDigit then some (c.toNat - '0'.toNat) else none

/-- Whether a character stands between major and minor number. -/
def isSeparator (c : Char) : Bool :=
  c == '.' || c == '_'

/-- Read a major number of one or two digits and perhaps a separator and one minor digit. -/
def readNumbers : List Char → Option (Nat × Nat)
  | [a] => do return (← digit? a, 0)
  | [a, b] => do return (10 * (← digit? a) + (← digit? b), 0)
  | [a, s, m] => if isSeparator s then do return (← digit? a, ← digit? m) else none
  | [a, b, s, m] =>
    if isSeparator s then do return (10 * (← digit? a) + (← digit? b), ← digit? m) else none
  | _ => none

/--
Read a version: `6`, `7.3`, `7_3`, `CSharp7_3`, `C# 7.3`, or one of the words for
the newest and the standard version.
-/
def parse? (text : String) : Option LanguageVersion :=
  let trimmed := Text.trimChars text.toList
  let word := String.ofList (trimmed.map Char.toLower)
  if word ∈ ["latest", "latestmajor", "preview"] then some latest
  else if word = "default" then some standard
  else do
    let (major, minor) ← readNumbers ((dropLanguageName trimmed).dropWhile Text.isBlank)
    let version : LanguageVersion := ⟨major, minor⟩
    if version ∈ known then some version else none

end LanguageVersion

/-- Syntax that is refused below the version that introduced it. -/
inductive Feature where
  | expressionBodiedProperty
  | expressionBodiedMethod
  | autoPropertyInitializer
  | interpolatedStrings
  | nullPropagatingOperator
  | usingStatic
  | expressionBodiedAccessor
  | expressionBodiedConstructor
  | defaultLiteral
  | initOnlySetters
  | records
  | fileScopedNamespace
  | globalUsing
  | rawStringLiterals
deriving DecidableEq, Repr

namespace Feature

/-- All features. -/
def all : List Feature :=
  [.expressionBodiedProperty, .expressionBodiedMethod, .autoPropertyInitializer,
    .interpolatedStrings, .nullPropagatingOperator, .usingStatic, .expressionBodiedAccessor,
    .expressionBodiedConstructor, .defaultLiteral, .initOnlySetters, .records,
    .fileScopedNamespace, .globalUsing, .rawStringLiterals]

/-- The version that introduced a feature. -/
def requiredVersion : Feature → LanguageVersion
  | .expressionBodiedProperty | .expressionBodiedMethod | .autoPropertyInitializer
  | .interpolatedStrings | .nullPropagatingOperator | .usingStatic => ⟨6, 0⟩
  | .expressionBodiedAccessor | .expressionBodiedConstructor => ⟨7, 0⟩
  | .defaultLiteral => ⟨7, 1⟩
  | .initOnlySetters | .records => ⟨9, 0⟩
  | .fileScopedNamespace | .globalUsing => ⟨10, 0⟩
  | .rawStringLiterals => ⟨11, 0⟩

/-- The name of a feature in diagnostics. -/
def displayName : Feature → String
  | .expressionBodiedProperty => "expression-bodied property"
  | .expressionBodiedMethod => "expression-bodied method"
  | .autoPropertyInitializer => "auto property initializer"
  | .interpolatedStrings => "interpolated strings"
  | .nullPropagatingOperator => "null propagating operator"
  | .usingStatic => "using static"
  | .expressionBodiedAccessor => "expression body property accessor"
  | .expressionBodiedConstructor => "expression body constructor and destructor"
  | .defaultLiteral => "default literal"
  | .initOnlySetters => "init-only setters"
  | .records => "records"
  | .fileScopedNamespace => "file-scoped namespace"
  | .globalUsing => "global using directive"
  | .rawStringLiterals => "raw string literals"

end Feature

/-- Whether a version has a feature. -/
def LanguageVersion.supports (v : LanguageVersion) (f : Feature) : Bool :=
  f.requiredVersion.atMost v

theorem LanguageVersion.supports_of_atMost
    {v w : LanguageVersion} {f : Feature}
    (hv : v.supports f = true)
    (hvw : v.atMost w = true) :
    w.supports f = true :=
  atMost_trans hv hvw

end CSharp
end ContentModels

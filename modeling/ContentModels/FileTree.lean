import ContentModels.Keyed
import ContentModels.Text.Split

/-!
# Files

What commands need to know of files and do with them, and a tree of all files in which they can
be run.  A tree files each entry under its path from the root, with slashes between the names,
and holds every directory that a path leads through.  A path with a slash in front starts at
the root, and any other one in the working directory.  Links and permissions are left out.
-/

namespace ContentModels

/-- Access to files by path. -/
class FileAccess (m : Type → Type) where
  /-- The text of a file; none if there is no such file or it holds no text. -/
  readText : String → m (Option String)
  /--
  The paths of all files below a directory, relative to it.  The path of a file is the
  empty path from itself, and below nothing there is nothing.
  -/
  filesBelow : String → m (List String)
  /-- The names of the files in a directory, in order. -/
  filesIn : String → m (List String)
  /-- Make a directory and all those that lead to it; whether they are there now. -/
  createDirectories : String → m Bool
  /-- Write the text of a file; whether that is possible. -/
  writeText : String → String → m Bool
  /-- Remove a file; whether that is possible. -/
  removeFile : String → m Bool

/-- What is filed under a path. -/
inductive FileEntry where
  | text (content : String)
  /-- A file that does not hold text. -/
  | binary
  | directory
deriving DecidableEq, Repr

namespace FileEntry

/-- Whether an entry is a file. -/
def isFile : FileEntry → Bool
  | directory => false
  | _ => true

end FileEntry

/-- All files, by their paths from the root. -/
abbrev FileTree := Keyed FileEntry

namespace FileTree

/-! ### Places -/

/-- The names on the way from the root. -/
abbrev Place := List String

/-- The path of a place from the root. -/
def pathOf (p : Place) : String :=
  "/".intercalate p

/-- Where a path starts: at the root, or in the working directory. -/
def origin (w : Place) (path : String) : Place :=
  if path.toList.head? == some '/' then [] else w

/-- Where a name leads from a place.  Nothing is above the root. -/
def follow (p : Place) (name : String) : Place :=
  if name.isEmpty || name == "." then p
  else if name == ".." then p.dropLast
  else p ++ [name]

/-- What is at a place. -/
def entry? (t : FileTree) (p : Place) : Option FileEntry :=
  if p.isEmpty then some .directory else t.get? (pathOf p)

/-- Whether a directory is at a place. -/
def isDirectory (t : FileTree) (p : Place) : Bool :=
  t.entry? p == some .directory

/-- Go one name further from a directory. -/
def step (t : FileTree) (p : Place) (name : String) : Option Place :=
  if t.isDirectory p then some (follow p name) else none

/--
The place that a path leads to, if all before its last name are directories.  There need
not be anything at the place itself.
-/
def place? (t : FileTree) (w : Place) (path : String) : Option Place :=
  if path.isEmpty then none else (Text.split '/' path).foldlM t.step (origin w path)

/-! ### Reading -/

/-- What is under a path. -/
def find? (t : FileTree) (w : Place) (path : String) : Option FileEntry :=
  (t.place? w path).bind t.entry?

/-- The text of a file. -/
def readText (t : FileTree) (w : Place) (path : String) : Option String :=
  match t.find? w path with
  | some (.text content) => some content
  | _ => none

/-- The entries below a directory, with their paths from there. -/
def below (t : FileTree) (p : Place) : List (String × FileEntry) :=
  let start := if p.isEmpty then [] else (pathOf p).toList ++ ['/']
  t.entries.filterMap fun e =>
    if start.isPrefixOf e.1.toList then some (String.ofList (e.1.toList.drop start.length), e.2)
    else none

/-- The paths of the files below a path. -/
def filesBelow (t : FileTree) (w : Place) (path : String) : List String :=
  match t.place? w path with
  | none => []
  | some p =>
    match t.entry? p with
    | none => []
    | some .directory => ((t.below p).filter (·.2.isFile)).map (·.1)
    | some _ => [""]

/-- The names of the files in a directory. -/
def filesIn (t : FileTree) (w : Place) (path : String) : List String :=
  (t.filesBelow w path).filter fun name => !name.isEmpty && !name.toList.contains '/'

/-- All paths from a place to what is below; those to directories end with a slash. -/
def pathsBelow (t : FileTree) (p : Place) : List String :=
  TextSet.toList (.ofList ((t.below p).map fun e => if e.2.isFile then e.1 else e.1 ++ "/"))

/-! ### Changing -/

/-- Put an entry at a place. -/
def put (t : FileTree) (p : Place) (e : FileEntry) : FileTree :=
  t.insert (pathOf p) e

/-- Make the directories on the way along some names; none if a file is in the way. -/
def makeDirectories (t : FileTree) (p : Place) : List String → Option FileTree
  | [] => some t
  | name :: names =>
    let q := follow p name
    match t.entry? q with
    | none => makeDirectories (t.put q .directory) q names
    | some .directory => makeDirectories t q names
    | some _ => none

/-- Make a directory and all those that lead to it. -/
def createDirectories (t : FileTree) (w : Place) (path : String) : Option FileTree :=
  t.makeDirectories (origin w path) (Text.split '/' path)

/-- Write a file, which must not be a directory. -/
def write (t : FileTree) (w : Place) (path : String) (content : FileEntry) : Option FileTree := do
  let p ← t.place? w path
  if t.isDirectory p then none else return t.put p content

/-- Remove what is under a path, and all that is below. -/
def remove (t : FileTree) (w : Place) (path : String) : Option FileTree := do
  let p ← t.place? w path
  let _ ← t.entry? p
  let inside := (t.below p).map fun e => pathOf p ++ "/" ++ e.1
  return (pathOf p :: inside).foldl Keyed.erase t

/-- Remove the file under a path. -/
def removeFile (t : FileTree) (w : Place) (path : String) : Option FileTree :=
  if (t.find? w path).any (·.isFile) then t.remove w path else none

end FileTree

/-! ### Working in a tree -/

/-- What is done in a tree of files, from a working directory that stays. -/
abbrev InTree := ReaderT FileTree.Place (StateM FileTree)

namespace InTree

/-- Change the tree if that is possible. -/
def attempt (change : FileTree → FileTree.Place → Option FileTree) : InTree Bool := fun w t =>
  match change t w with
  | some u => (true, u)
  | none => (false, t)

instance : FileAccess InTree where
  readText path := return (← get).readText (← read) path
  filesBelow path := return (← get).filesBelow (← read) path
  filesIn path := return (← get).filesIn (← read) path
  createDirectories path := attempt fun t w => t.createDirectories w path
  writeText path content := attempt fun t w => t.write w path (.text content)
  removeFile path := attempt fun t w => t.removeFile w path

end InTree
end ContentModels

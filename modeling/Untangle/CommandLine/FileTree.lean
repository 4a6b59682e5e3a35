import Untangle.CommandLine.Path

/-!
# Files and directories in memory

A tree holds what lies below a root. Absolute paths are followed from there
and all others from the working directory; what is above the root is the root
again. There are no links: a place has one list of names.
-/
namespace Untangle

/-- Why a file or directory cannot be used. -/
inductive FileFault where
  | notFound
  | alreadyExists
  | notDirectory
  | isDirectory
  | other (number : Nat) (description : String)
  deriving DecidableEq, Repr

def FileFault.message : FileFault → String
  | .notFound => "No such file or directory (os error 2)"
  | .alreadyExists => "File exists (os error 17)"
  | .notDirectory => "Not a directory (os error 20)"
  | .isDirectory => "Is a directory (os error 21)"
  | .other number description => description ++ " (os error " ++ toString number ++ ")"

/-- Where something is: the names on the way to it from the root. -/
abbrev Place := List String

structure FileTree where
  directories : List Place
  files : List (Place × ByteArray)
  workingDirectory : Path := ⟨"/"⟩

namespace FileTree

inductive Node where
  | directory
  | file (content : ByteArray)

def node? (t : FileTree) (place : Place) : Option Node :=
  if place.isEmpty || t.directories.contains place then some .directory
  else (t.files.lookup place).map .file

def addDirectory (t : FileTree) (place : Place) : FileTree :=
  if place.isEmpty || t.directories.contains place then t
  else { t with directories := t.directories ++ [place] }

/-- Puts a file at a place in the stead of what was there. -/
def addFile (t : FileTree) (place : Place) (content : ByteArray) : FileTree :=
  { t with files := t.files.filter (fun (p, _) => p ≠ place) ++ [(place, content)] }

/-- A directory with everything above it. -/
def addDirectories (t : FileTree) (place : Place) : FileTree :=
  (List.range (place.length + 1)).foldl (fun t n => t.addDirectory (place.take n)) t

/-- The steps that are taken from the root to follow a path. -/
def route (t : FileTree) (p : Path) : List String :=
  if p.isAbsolute then p.steps else t.workingDirectory.steps ++ p.steps

/-- The tree with the given directories and files, and the directories that the files are in. -/
def ofEntries (directories : List Path) (files : List (Path × ByteArray))
    (workingDirectory : Path := ⟨"/work"⟩) : FileTree :=
  let bare : FileTree := { directories := [], files := [], workingDirectory }
  let t := directories.foldl (fun t p => t.addDirectories (t.route p))
    (bare.addDirectories workingDirectory.steps)
  files.foldl (fun t (p, content) =>
    (t.addDirectories (t.route p).dropLast).addFile (t.route p) content) t

/-- One step on the way along a path. Only directories can be left. -/
def advance (t : FileTree) (place : Place) (step : String) : Except FileFault Place :=
  match t.node? place with
  | none => .error .notFound
  | some (.file _) => .error .notDirectory
  | some .directory =>
    if step = "." then .ok place
    else if step = ".." then .ok place.dropLast
    else .ok (place ++ [step])

/-- Where a path leads. There need not be anything, but what the path goes through must be
there. -/
def follow (t : FileTree) (p : Path) : Except FileFault Place :=
  if p.text = "" then .error .notFound else (t.route p).foldlM t.advance []

/-- What a path leads to. A slash at the end asks for a directory. -/
def find (t : FileTree) (p : Path) : Except FileFault (Place × Node) := do
  let place ← t.follow p
  match t.node? place with
  | none => throw .notFound
  | some (.file content) =>
    if p.endsInSlash then throw .notDirectory else return (place, .file content)
  | some .directory => return (place, .directory)

def read (t : FileTree) (p : Path) : Except FileFault ByteArray := do
  match (← t.find p).2 with
  | .file content => return content
  | .directory => throw .isDirectory

def isDirectory (t : FileTree) (p : Path) : Bool :=
  match t.find p with
  | .ok (_, .directory) => true
  | _ => false

/-- The one place at which something is that a path leads to. -/
def locate (t : FileTree) (p : Path) : Option Place :=
  match t.find p with
  | .ok (place, _) => some place
  | .error _ => none

def write (t : FileTree) (p : Path) (content : ByteArray) : Except FileFault FileTree := do
  let place ← t.follow p
  if p.endsInSlash then throw .isDirectory
  match t.node? place with
  | some .directory => throw .isDirectory
  | _ => return t.addFile place content

def makeDirectory (t : FileTree) (p : Path) : Except FileFault FileTree := do
  let place ← t.follow p
  match t.node? place with
  | some _ => throw .alreadyExists
  | none => return t.addDirectory place

/-- Makes the first of some paths, after those that follow it where they are needed. That a
directory is there already is no fault. -/
def makeFirst (t : FileTree) : List Path → Except FileFault FileTree
  | [] => .ok t
  | p :: above =>
    match t.makeDirectory p with
    | .ok t => .ok t
    | .error .notFound => do
      let t ← makeFirst t above
      match t.makeDirectory p with
      | .ok t => return t
      | .error fault => if t.isDirectory p then return t else throw fault
    | .error fault => if t.isDirectory p then .ok t else .error fault

/-- Makes a directory with everything above it. -/
def makeDirectories (t : FileTree) (p : Path) : Except FileFault FileTree :=
  t.makeFirst p.ancestors

/-- The files in a directory and in the directories below it. Their paths begin with the path of
the directory. -/
def filesBelow (t : FileTree) (p : Path) : Except FileFault (List Path) := do
  let (place, node) ← t.find p
  match node with
  | .file _ => throw .notDirectory
  | .directory =>
    let below := t.files.filterMap fun (file, _) =>
      if place.isPrefixOf file then some (file.drop place.length) else none
    return below.map fun names => names.foldl Path.join p

/-- The files below the working directory that are not in an earlier tree, or are other than they
were in it. Their names begin at the working directory. -/
def changesSince (t earlier : FileTree) : List (Place × ByteArray) :=
  let here := t.workingDirectory.steps
  let changed := t.files.filter fun (place, content) =>
    here.isPrefixOf place && earlier.files.lookup place != some content
  changed.map fun (place, content) => (place.drop here.length, content)

end FileTree
end Untangle

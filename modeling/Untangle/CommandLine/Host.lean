import Untangle.CommandLine.FileTree

/-!
# What commands need of a machine

A host has files, a clock and two text streams. Commands are written for any
host. One host is a file tree kept in memory, whose clock stands still, so
what a command does on it is a function of its arguments and the tree.
-/
namespace Untangle

class Host (m : Type → Type) where
  read : Path → m (Except FileFault ByteArray)
  write : Path → ByteArray → m (Except FileFault Unit)
  isDirectory : Path → m Bool
  makeDirectories : Path → m (Except FileFault Unit)
  /-- The files in a directory and below it, in no particular order, or a directory among them that
  cannot be looked into. -/
  filesBelow : Path → m (Except (Path × FileFault) (List Path))
  /-- The one path that all paths to the same thing have, if there is such a thing. -/
  locate : Path → m (Option Path)
  milliseconds : m Nat
  answer : String → m Unit
  notice : String → m Unit

/-- A file tree, with what has been written to the two text streams. -/
structure Desk where
  tree : FileTree
  answers : String := ""
  notices : String := ""

namespace Desk

/-- Replaces the tree unless there is a fault. -/
def replaceTree (change : FileTree → Except FileFault FileTree) :
    StateM Desk (Except FileFault Unit) := do
  match change (← get).tree with
  | .ok tree => modify fun d => { d with tree }; return .ok ()
  | .error fault => return .error fault

instance : Host (StateM Desk) where
  read p := return (← get).tree.read p
  write p content := replaceTree fun t => t.write p content
  isDirectory p := return (← get).tree.isDirectory p
  makeDirectories p := replaceTree fun t => t.makeDirectories p
  filesBelow p := return ((← get).tree.filesBelow p).mapError fun fault => (p, fault)
  locate p := return ((← get).tree.locate p).map fun place => ⟨"/" ++ "/".intercalate place⟩
  milliseconds := return 0
  answer s := modify fun d => { d with answers := d.answers ++ s }
  notice s := modify fun d => { d with notices := d.notices ++ s }

end Desk
end Untangle

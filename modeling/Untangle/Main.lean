import Untangle.CommandLine.Run

/-!
# The program

Here the commands run on the files and the text streams of the machine itself.
-/
namespace Untangle

/-- A fault by its number, which some calls give negated. -/
def FileFault.ofNumber (word : UInt32) (description : String) : FileFault :=
  let number := if word < 0x80000000 then word.toNat else (-word).toNat
  match number with
  | 2 => .notFound
  | 17 => .alreadyExists
  | 20 => .notDirectory
  | 21 => .isDirectory
  | _ => .other number description

def FileFault.ofError : IO.Error → FileFault
  | .noFileOrDirectory _ n d | .interrupted _ n d => ofNumber n d
  | .alreadyExists _ n d | .invalidArgument _ n d | .permissionDenied _ n d
  | .resourceExhausted _ n d | .inappropriateType _ n d | .noSuchThing _ n d => ofNumber n d
  | .otherError n d | .resourceBusy n d | .resourceVanished n d | .unsupportedOperation n d
  | .hardwareFault n d | .unsatisfiedConstraints n d | .illegalOperation n d | .protocolError n d
  | .timeExpired n d => ofNumber n d
  | .unexpectedEof => .other 0 "unexpected end of file"
  | .userError description => .other 0 description

namespace Machine

def faulty (action : IO α) : IO (Except FileFault α) := do
  match ← action.toBaseIO with
  | .ok a => return .ok a
  | .error e => return .error (.ofError e)

def isDirectory (p : Path) : IO Bool := do
  ((← IO.currentDir) / p.text).isDir

partial def filesBelow (p : Path) : IO (Except (Path × FileFault) (List Path)) := do
  match ← faulty (do ((← IO.currentDir) / p.text).readDir) with
  | .error fault => return .error (p, fault)
  | .ok entries =>
    let mut files := #[]
    for entry in entries do
      let p := p.join entry.fileName
      if ← isDirectory p then
        match ← filesBelow p with
        | .ok below => files := files ++ below.toArray
        | .error fault => return .error fault
      else files := files.push p
    return .ok files.toList

def locate (p : Path) : IO (Option Path) := do
  match ← faulty (IO.FS.realPath p.text) with
  | .ok real => return some ⟨real.toString⟩
  | .error _ => return none

instance : Host IO where
  read p := faulty (IO.FS.readBinFile p.text)
  write p content := faulty (IO.FS.writeBinFile p.text content)
  isDirectory
  makeDirectories p := faulty (IO.FS.createDirAll p.text)
  filesBelow
  locate
  milliseconds := IO.monoMsNow
  answer s := IO.print s
  notice s := IO.eprint s

end Machine
end Untangle

def main (args : List String) : IO UInt32 := do
  return (← Untangle.CommandLine.run args).toUInt32

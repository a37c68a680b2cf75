/-
The program: runs a command on the files that it names.

The files and the folders on the way to them are read beforehand, and then the clock, which tells milliseconds; afterwards the store file
is written if it has changed.
-/
import Mathlib.Tactic.DeprecateTo
import XmlStore.CommandLine.Run

namespace XmlStore.CommandLine

/-- the files that an invocation reads or writes -/
def Invocation.files (invocation : Invocation) : List String :=
  let content := match invocation.command with
    | .create _ _ (.file name) => [name]
    | .modify _ _ _ (some (.file name)) => [name]
    | _ => []
  invocation.store :: content

/-- what stands at a path of the system -/
def entryAt (name : String) : IO (Option Entry) := do
  match ← (IO.FS.readBinFile name).toBaseIO with
  | .ok bytes =>
    match String.fromUTF8? bytes with
    | some text => return some (.file (.text text))
    | none => return some (.file .binary)
  | .error (.noFileOrDirectory ..) => return none
  | .error _ => return some .folder

/-- reads what a written path comes by into a directory -/
def takeIn (d : Directory) (name : String) : IO Directory :=
  ((Route.ofText name).stations.filter fun path => !path.isGiven).foldlM (fun d path => do
    match ← entryAt path.toText with
    | some entry => return d.put path entry
    | none => return d) d

/-- writes the text of a file if it is another one than before -/
def putBack (before after : Directory) (name : String) : IO Unit :=
  match before.readText name, after.readText name with
  | .ok old, .ok text => if old = text then return () else IO.FS.writeFile name text
  | _, .ok text => IO.FS.writeFile name text
  | _, .error _ => return ()

end XmlStore.CommandLine

open XmlStore XmlStore.CommandLine in
def main (arguments : List String) : IO UInt32 := do
  let environment : Environment ← (program.flags.filterMap Flag.standIn).filterMapM fun name => do
    return (← IO.getEnv name).map fun value => (name, value)
  let files := match Invocation.ofArguments environment arguments with
    | .ok invocation => invocation.files
    | .error _ => []
  let before ← files.foldlM takeIn (.empty (← IO.currentDir).toString)
  let now ← Std.Time.Timestamp.now
  let (response, after) := run environment arguments before now.toMillisecondsSinceUnixEpoch.toInt.toNat.toUInt64
  for name in files do putBack before after name
  IO.print response.output
  IO.eprint response.errors
  return response.code

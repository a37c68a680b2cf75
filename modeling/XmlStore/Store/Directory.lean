/-
A directory of files and folders.

A path is followed through the directory as far as its last step; what is wrong on the way is wrong with every operation. The
last step then means something else to each of them: `find` looks at what is there, `write` and `makeFolder` may put something
there, `replace` lets a new file take its place.
-/
import XmlStore.Store.Path

namespace XmlStore

/-- what a file holds -/
inductive FileContent where
  | text (text : String)
  /-- bytes that are no text -/
  | binary
  deriving DecidableEq, Repr

/-- what stands at a path -/
inductive Entry where
  | folder
  | file (content : FileContent)
  deriving DecidableEq, Repr

/-- why an operation on a file or folder does not work -/
inductive FileFault where
  | notFound
  | busy
  | alreadyThere
  | notFolder
  | isFolder
  | invalid
  | nameTooLong
  /-- the path has a character with code 0, which no name can have -/
  | nulInPath
  | notText
  deriving DecidableEq, Repr

def FileFault.message : FileFault → String
  | .notFound => "No such file or directory (os error 2)"
  | .busy => "Device or resource busy (os error 16)"
  | .alreadyThere => "File exists (os error 17)"
  | .notFolder => "Not a directory (os error 20)"
  | .isFolder => "Is a directory (os error 21)"
  | .invalid => "Invalid argument (os error 22)"
  | .nameTooLong => "File name too long (os error 36)"
  | .nulInPath => "file name contained an unexpected NUL byte"
  | .notText => "stream did not contain valid UTF-8"

/-- where a path ends -/
inductive Spot where
  /-- at a folder that was found on the way -/
  | passed (path : Path)
  /-- at a name in a folder, which must be that of a folder if it is closed by slashes -/
  | name (folder : Path) (name : String) (closed : Bool)
  deriving DecidableEq, Repr

/-- files and folders by their paths -/
structure Directory where
  entries : List (Path × Entry)
  /-- the path of the directory itself from the root, as it is written -/
  home : String
  deriving DecidableEq, Repr

namespace Directory

/-- a directory at `home` with nothing in it -/
def empty (home : String) : Directory := ⟨[], home⟩

/-- what stands at a path -/
def entry? (d : Directory) (path : Path) : Option Entry :=
  if path.isGiven then some .folder else d.entries.lookup path

/-- the directory with something else at a path -/
def put (d : Directory) (path : Path) (entry : Entry) : Directory :=
  { d with entries := (path, entry) :: d.entries.filter (·.1 ≠ path) }

/-- the directory with nothing at a path -/
def drop (d : Directory) (path : Path) : Directory :=
  { d with entries := d.entries.filter (·.1 ≠ path) }

/-- the directory with nothing in a folder -/
def clear (d : Directory) (folder : Path) : Directory :=
  { d with entries := d.entries.filter fun (path, _) => !path.isBelow folder }

/-- what a folder has under a name -/
def child? (d : Directory) (folder : Path) (name : String) : Except FileFault (Option Entry) :=
  if maxNameSize < name.utf8ByteSize then .error .nameTooLong
  else .ok (d.entry? (folder ++ [name]))

/-- takes a step to another folder -/
def enter (d : Directory) (folder : Path) (step : Step) : Except FileFault Path :=
  match step with
  | .name name => do
    match ← d.child? folder name with
    | none => .error .notFound
    | some (.file _) => .error .notFolder
    | some .folder => .ok (folder.after step)
  | _ => .ok (folder.after step)

/-- follows the steps of a route -/
def followRoute (d : Directory) (route : Route) : Except FileFault Spot := do
  let folder ← route.above.foldlM d.enter route.start
  match route.last with
  | .name name => .ok (.name folder name route.closed)
  | step => .ok (.passed (folder.after step))

/-- follows a written path that is passed on with `size` bytes, where a character with code 0 is answered with `fault` -/
def followOr (d : Directory) (fault : FileFault) (size : Nat) (text : String) : Except FileFault Spot :=
  if text.toList.any (·.toNat = 0) then .error fault
  else if text.isEmpty then .error .notFound
  else if maxPathSize < size then .error .nameTooLong
  else d.followRoute (.ofText text)

/-- follows a written path -/
def follow (d : Directory) (text : String) : Except FileFault Spot :=
  d.followOr .nulInPath text.utf8ByteSize text

/-- a written path from the root -/
def fromRoot (d : Directory) (text : String) : String :=
  if text.startsWith "/" then text
  else if d.home.endsWith "/" then d.home ++ text
  else d.home ++ "/" ++ text

/-- follows the path of a file that is new in the folder of a path, which is passed on from the root -/
def followBeside (d : Directory) (text : String) : Except FileFault Spot :=
  let beside := folderText text ++ "/.tmp000000"
  d.followOr .nulInPath (d.fromRoot beside).utf8ByteSize beside

/-- where a written path leads, and what stands there -/
def find (d : Directory) (text : String) : Except FileFault (Path × Entry) := do
  match ← d.follow text with
  | .passed path => .ok (path, .folder)
  | .name folder name closed =>
    match ← d.child? folder name with
    | none => .error .notFound
    | some .folder => .ok (folder ++ [name], .folder)
    | some (.file content) => if closed then .error .notFolder else .ok (folder ++ [name], .file content)

def readText (d : Directory) (text : String) : Except FileFault String := do
  match ← d.find text with
  | (_, .folder) => .error .isFolder
  | (_, .file .binary) => .error .notText
  | (_, .file (.text content)) => .ok content

/-- writes a file, which may be there already -/
def write (d : Directory) (text : String) (content : FileContent) : Except FileFault Directory := do
  match ← d.follow text with
  | .passed _ => .error .isFolder
  | .name _ _ true => .error .isFolder
  | .name folder name false =>
    match ← d.child? folder name with
    | some .folder => .error .isFolder
    | _ => .ok (d.put (folder ++ [name]) (.file content))

/-- puts a file that is complete already in the place of what is at a path -/
def replace (d : Directory) (text : String) (content : FileContent) : Except FileFault Directory := do
  match ← d.followOr .invalid text.utf8ByteSize text with
  | .passed _ => .error .busy
  | .name folder name closed =>
    match ← d.child? folder name, closed with
    | _, true => .error .notFolder
    | some .folder, false => .error .isFolder
    | _, false => .ok (d.put (folder ++ [name]) (.file content))

def removeFile (d : Directory) (text : String) : Except FileFault Directory := do
  match ← d.follow text with
  | .passed _ => .error .isFolder
  | .name folder name closed =>
    match ← d.child? folder name with
    | none => .error .notFound
    | some .folder => .error .isFolder
    | some (.file _) => if closed then .error .notFolder else .ok (d.drop (folder ++ [name]))

def makeFolder (d : Directory) (text : String) : Except FileFault Directory := do
  match ← d.follow text with
  | .passed _ => .error .alreadyThere
  | .name folder name _ =>
    match ← d.child? folder name with
    | none => .ok (d.put (folder ++ [name]) .folder)
    | some _ => .error .alreadyThere

/-- removes a folder with everything in it. What is in it goes first; the folder itself then goes if the path still leads to it
by its name. -/
def removeFolder (d : Directory) (text : String) : Except FileFault Unit × Directory :=
  match d.find text with
  | .error fault => (.error fault, d)
  | .ok (_, .file _) => (.error .notFolder, d)
  | .ok (path, .folder) =>
    let cleared := d.clear path
    match cleared.follow text with
    | .error .notFound => (.ok (), cleared)
    | .error fault => (.error fault, cleared)
    | .ok (.passed _) => (.error .invalid, cleared)
    | .ok (.name ..) => (.ok (), cleared.drop path)

/-- the names in a folder, in ascending order -/
def names (d : Directory) (text : String) : Except FileFault (List String) := do
  match ← d.find text with
  | (_, .file _) => .error .notFolder
  | (path, .folder) =>
    let found := d.entries.filterMap fun (other, _) => if other.dropLast = path then other.getLast? else none
    .ok (found.mergeSort fun a b => decide (a ≤ b))

def isThere (d : Directory) (text : String) : Bool :=
  (d.find text).toOption.isSome

def isFolder (d : Directory) (text : String) : Bool :=
  match d.find text with
  | .ok (_, .folder) => true
  | _ => false

def isFile (d : Directory) (text : String) : Bool :=
  match d.find text with
  | .ok (_, .file _) => true
  | _ => false

end Directory

end XmlStore

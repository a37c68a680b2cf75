/-
A store in one file.

Opening a connection reads the file into a table, which the connection then works on; every statement that changes the table
writes the whole file again. The new text is written to a file beside it first, which then takes its place in a single step, so
a failed write leaves the file as it was, while the table of the connection has changed already.
-/
import XmlStore.Store.Directory
import XmlStore.Store.Image

namespace XmlStore

/-- whether the file has to be written after a statement that was answered with `result` -/
def Statement.saves : (s : Statement) → s.Result → Bool
  | .insert _, _ => true
  | .updateContent .., _ => true
  | .updateFields .., _ => true
  | .delete _, removed => removed
  | .deleteAll, _ => true
  | _, _ => false

/-- a store in the file with a name -/
structure FileStore where
  name : String
  deriving DecidableEq, Repr

namespace FileStore

/-- the table in the file; a file that is not there holds none -/
def load (store : FileStore) (d : Directory) : Except StoreError Table :=
  if d.isThere store.name then
    match d.readText store.name with
    | .error fault => .error (.io fault.message)
    | .ok text =>
      match Table.ofImage? text with
      | none => .error .serialization
      | some table => .ok table
  else .ok .empty

def save (store : FileStore) (d : Directory) (table : Table) : Except StoreError Directory :=
  let saved : Except FileFault Directory := do
    let _ ← d.followBeside store.name
    d.replace store.name (.text table.image)
  saved.mapError fun fault => .io fault.message

def perform (store : FileStore) (s : Statement) (d : Directory) (held : Table) : s.Reply × Directory × Table :=
  match held.perform s with
  | (.error error, table) => (.error error, d, table)
  | (.ok result, table) =>
    if s.saves result then
      match store.save d table with
      | .error error => (.error error, d, table)
      | .ok d => (.ok result, d, table)
    else (.ok result, d, table)

/-- whether the file is there, or its folder is -/
def isReachable (store : FileStore) (d : Directory) : Bool :=
  if d.isThere store.name then d.isFile store.name else d.isFolder (folderText store.name)

def backend (store : FileStore) : Backend Directory Table where
  connect := store.load
  perform := store.perform
  isReachable := store.isReachable

end FileStore

end XmlStore

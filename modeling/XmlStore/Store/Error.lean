/-
What can go wrong in a store.
-/
import XmlStore.Text.Quoted

namespace XmlStore

/-- why a store did not do what it was asked -/
inductive StoreError where
  /-- the store does not answer -/
  | unavailable (reason : String)
  | duplicateTitle (title : String)
  /-- the row is no longer of the version that the writer had read -/
  | versionConflict (id expected found : UInt64)
  | missing (id : UInt64)
  /-- the file of the store could not be read or written -/
  | io (reason : String)
  /-- the file of the store does not hold one -/
  | serialization
  /-- the program stops, because an id or a version would come after the highest word -/
  | overflow
  deriving DecidableEq, Repr

def StoreError.message : StoreError → String
  | .unavailable reason => s!"Store is unreachable: {reason}"
  | .duplicateTitle title => "Document with title " ++ Text.quote title ++ " is already in the database"
  | .versionConflict id expected found =>
    s!"Document {id} changed underneath (expected version {expected}, found {found})"
  | .missing id => s!"Document {id} does not exist"
  | .io reason => s!"I/O error: {reason}"
  | .serialization => "Serialization error"
  | .overflow => "attempt to add with overflow"

end XmlStore

/-
What an operation of the service can fail with.
-/
import XmlStore.Locator.Error
import XmlStore.Locator.Printer
import XmlStore.Store.Error
import XmlStore.Xml.Error

namespace XmlStore.Service

open Xml

/-- what a document was looked up by -/
inductive Key where
  | id (id : UInt64)
  | title (title : String)
  deriving DecidableEq, Repr

/-- the nodes that an operation is aimed at: a locator, or the reason why there is none, which matches nothing -/
inductive Target where
  | locator (locator : Locator)
  | unreadable (error : LocatorError)
  deriving DecidableEq, Repr

/-- the target that the outcome of reading a locator stands for -/
def Target.ofRead : Except LocatorError Locator → Target
  | .ok found => .locator found
  | .error error => .unreadable error

/-- the target as messages name it -/
def Target.label : Target → String
  | .locator path => path.display
  | .unreadable error => "<invalid locator: " ++ error.message ++ ">"

/-- why an operation failed -/
inductive Failure where
  | documentNotFound (key : Key)
  | duplicateTitle (title : String)
  | invalidXml (error : XmlError)
  | nodeNotFound (target : Target)
  | attributeNotFound (target : Target) (name : String)
  | noMatches (target : Target)
  /-- the row was changed by somebody else after it had been read -/
  | concurrentModification (id : UInt64)
  | store (error : StoreError)
  | io (reason : String)
  deriving DecidableEq, Repr

/-- the failure that an error of the store amounts to -/
def Failure.ofStore : StoreError → Failure
  | .duplicateTitle title => .duplicateTitle title
  | .versionConflict id _ _ => .concurrentModification id
  | .missing id => .documentNotFound (.id id)
  | error => .store error

def Key.description : Key → String
  | .id n => s!"id {n}"
  | .title text => "title " ++ Text.quote text

def Failure.message : Failure → String
  | .documentNotFound key => "Document not found: " ++ key.description
  | .duplicateTitle title => "Document with title " ++ Text.quote title ++ " is already in the database"
  | .invalidXml error => "Invalid XML: " ++ error.message
  | .nodeNotFound target => "Node with path " ++ target.label ++ " does not exist"
  | .attributeNotFound target name => "Attribute " ++ Text.quote name ++ " not found at " ++ target.label
  | .noMatches target => "No nodes match " ++ target.label
  | .concurrentModification id => s!"Document {id} was modified concurrently"
  | .store error => "Store error: " ++ error.message
  | .io reason => "I/O error: " ++ reason

end XmlStore.Service

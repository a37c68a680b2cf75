/-
Operations on whole documents.

Content is checked and brought into its compact form before it is stored. Operations that write are given the time at which they do.
-/
import XmlStore.Service.Session
import XmlStore.Xml.Document

namespace XmlStore.Service

open Xml

/-- how the service works -/
structure Config where
  /-- whether an edit is refused when the document has changed since it was read -/
  optimisticConcurrency : Bool
  /-- spaces for every level of indented content -/
  prettyIndent : Nat
  deriving DecidableEq, Repr

/-- edits are refused on changed documents, and two spaces indent a level -/
def Config.default : Config := ⟨true, 2⟩

/-- the document that content stands for -/
def readContent (content : String) : Outcome Document :=
  (Document.parse content).mapError .invalidXml

/-- content in the form in which it is stored -/
def normalize (content : String) : Outcome String :=
  (readContent content).map Document.xml

/-- stores a new document and answers its id -/
def create (title description xml : String) (now : UInt64) : Request (Outcome UInt64) :=
  match normalize xml with
  | .error failure => .done (.error failure)
  | .ok content => connecting (ask (.insert (.new title description content now)))

/-- stores a new document with content from a file, given by the outcome of reading that -/
def createFrom (title description : String) (file : Except String String) (now : UInt64) : Request (Outcome UInt64) :=
  match file with
  | .error reason => .done (.error (.io reason))
  | .ok xml => create title description xml now

/-- the row of an id, on an open connection -/
def fetchRow (id : UInt64) : Session (Outcome Row) :=
  (ask (.fetchById id)).whenOk fun
    | some row => .done (.ok row)
    | none => .done (.error (.documentNotFound (.id id)))

/-- changes any of the title, the description and the content -/
def modify (id : UInt64) (patch : Patch) (now : UInt64) : Request (Outcome Unit) :=
  match patch.content.mapM normalize with
  | .error failure => .done (.error failure)
  | .ok content =>
    let patch := { patch with content }
    connecting <|
      if patch.isEmpty then (fetchRow id).whenOk fun _ => .done (.ok ())
      else (ask (.updateFields id patch now)).whenOk fun _ => .done (.ok ())

/-- deletes a document and tells whether there was one -/
def deleteDocument (id : UInt64) : Request (Outcome Bool) :=
  connecting (ask (.delete id))

/-- deletes all documents and tells how many there were -/
def deleteAll : Request (Outcome Nat) :=
  connecting (ask .deleteAll)

def get (id : UInt64) : Request (Outcome Row) :=
  connecting (fetchRow id)

def getByTitle (title : String) : Request (Outcome Row) :=
  connecting <| (ask (.fetchByTitle title)).whenOk fun
    | some row => .done (.ok row)
    | none => .done (.error (.documentNotFound (.title title)))

/-- all documents without their content, by ascending ids -/
def list : Request (Outcome (List RowSummary)) :=
  connecting <| (ask .fetchAll).whenOk fun rows => .done (.ok (rows.map Row.summary))

def count : Request (Outcome Nat) :=
  connecting (ask .count)

/-- the row of an id and the document in it, on an open connection -/
def loadRow (id : UInt64) : Session (Outcome (Row × Document)) :=
  (fetchRow id).whenOk fun row => .done ((readContent row.content).map fun d => (row, d))

/-- the document with an id -/
def load (id : UInt64) : Request (Outcome Document) :=
  connecting ((loadRow id).map fun outcome => outcome.map Prod.snd)

def pretty (config : Config) (id : UInt64) : Request (Outcome String) :=
  (load id).map fun outcome => outcome.map fun d => d.prettyXml config.prettyIndent

end XmlStore.Service

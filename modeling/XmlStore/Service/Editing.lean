/-
Editing nodes of a stored document.

An edit loads the document, changes it where the target points, and writes it back over the same connection. Nothing is written
when nothing matches or nothing changes. What would be written is read once more first, so that no content is stored that is
not well formed; and with optimistic concurrency it is written only if the row still has the version that was read.
-/
import XmlStore.Service.Reading
import XmlStore.Xml.Edit

namespace XmlStore.Service

open Xml

/-- a change to the matches of a target -/
inductive Edit where
  /-- adds the nodes of a fragment after those in the first match -/
  | add (fragment : Document)
  /-- replaces the first text of the first match -/
  | setText (text : String)
  /-- gives the first match another name -/
  | rename (name : String)
  /-- sets an attribute of the first match -/
  | setAttribute (name value : String)
  /-- removes an attribute of the first match -/
  | removeAttribute (name : String)
  /-- takes out every match with what is below it -/
  | delete
  deriving DecidableEq, Repr

/-- the document after an edit on its matches, of which `first` is the first; none if nothing was to be done -/
def Edit.apply (d : Document) (first : Nat) (rest : List Nat) : Edit → Except XmlError (Option Document)
  | .add fragment => (d.appendFragment first fragment).map fun (d, _) => some d
  | .setText text => (d.setText first text).map some
  | .rename name => (d.rename first name).map some
  | .setAttribute name value => (d.setAttribute first name value).map some
  | .removeAttribute name => (d.removeAttribute first name).map fun (d, removed) => if removed then some d else none
  | .delete => .ok (some ((first :: rest).foldl (fun d id => (d.detach id).1) d))

/-- what an edit makes of a document: the content to write, or none if nothing is to be written -/
def Edit.content (edit : Edit) (target : Target) (d : Document) : Outcome (Option String) :=
  match (target.select d).map Element.mark with
  | [] => .ok none
  | first :: rest => do
    match ← (edit.apply d first rest).mapError .invalidXml with
    | none => return none
    | some edited =>
      let _ ← readContent edited.xml
      return some edited.xml

/-- carries out an edit and tells whether anything was changed -/
def mutate (config : Config) (id : UInt64) (target : Target) (edit : Edit) (now : UInt64) : Request (Outcome Bool) :=
  connecting <| (loadRow id).whenOk fun (row, d) =>
    match edit.content target d with
    | .error failure => .done (.error failure)
    | .ok none => .done (.ok false)
    | .ok (some content) =>
      let expected := if config.optimisticConcurrency then some row.version else none
      (ask (.updateContent id content expected now)).whenOk fun _ => .done (.ok true)

/-- adds the nodes that a text stands for after those in the first match -/
def addNode (config : Config) (id : UInt64) (parent : Target) (xml : String) (now : UInt64) : Request (Outcome Bool) :=
  match Document.parseFragment xml with
  | .error error => .done (.error (.invalidXml error))
  | .ok fragment => mutate config id parent (.add fragment) now

/-- replaces the text of the first match -/
def editText (config : Config) (id : UInt64) (target : Target) (text : String) (now : UInt64) : Request (Outcome Bool) :=
  mutate config id target (.setText text) now

def editName (config : Config) (id : UInt64) (target : Target) (name : String) (now : UInt64) : Request (Outcome Bool) :=
  mutate config id target (.rename name) now

def addAttribute (config : Config) (id : UInt64) (target : Target) (name value : String) (now : UInt64) :
    Request (Outcome Bool) :=
  mutate config id target (.setAttribute name value) now

/-- removes an attribute of the first match, and tells whether it was there -/
def removeAttribute (config : Config) (id : UInt64) (target : Target) (name : String) (now : UInt64) : Request (Outcome Bool) :=
  mutate config id target (.removeAttribute name) now

def deleteNode (config : Config) (id : UInt64) (target : Target) (now : UInt64) : Request (Outcome Bool) :=
  mutate config id target .delete now

end XmlStore.Service

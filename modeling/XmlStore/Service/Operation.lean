/-
Operations on nodes as values.

An operation names what to do and carries its locator as text; one that cannot be read matches nothing. In JSON it is an object
whose member `op` names it and whose other members are its arguments; members that it does not ask for are passed over. A list
of the name and all arguments in order is read too.
-/
import XmlStore.Json.Basic
import XmlStore.Service.Editing

namespace XmlStore.Service

open Xml

/-- one operation on the nodes of a document -/
inductive NodeOperation where
  | exist (locator : String)
  | getXml (locator : String)
  | getText (locator : String)
  | getAllXml (locator : String)
  | getAllText (locator : String)
  | getAttributes (locator : String)
  | getStructured (locator : String) (fields : List String)
  | getAttribute (locator name : String)
  | getWithAttribute (locator name : String) (value : Option String)
  | addNode (parent xml : String)
  | editText (locator text : String)
  | rename (locator name : String)
  | addAttribute (locator name value : String)
  | removeAttribute (locator name : String)
  | delete (locator : String)
  deriving DecidableEq, Repr

/-- what an operation answers with -/
inductive Output where
  | bool (answer : Bool)
  | text (answer : Lookup String)
  | list (answer : Lookup (List String))
  | attributes (answer : Lookup Record)
  | records (answer : List Record)
  | value (answer : String)
  deriving DecidableEq, Repr

namespace NodeOperation

def isMutation : NodeOperation → Bool
  | .addNode .. => true
  | .editText .. => true
  | .rename .. => true
  | .addAttribute .. => true
  | .removeAttribute .. => true
  | .delete _ => true
  | _ => false

def locatorText : NodeOperation → String
  | .exist locator => locator
  | .getXml locator => locator
  | .getText locator => locator
  | .getAllXml locator => locator
  | .getAllText locator => locator
  | .getAttributes locator => locator
  | .getStructured locator _ => locator
  | .getAttribute locator _ => locator
  | .getWithAttribute locator _ _ => locator
  | .addNode parent _ => parent
  | .editText locator _ => locator
  | .rename locator _ => locator
  | .addAttribute locator _ _ => locator
  | .removeAttribute locator _ => locator
  | .delete locator => locator

/-- the name and the arguments of an operation, as JSON -/
def toJson (operation : NodeOperation) : Json :=
  let (op, arguments) : String × List (String × Json) := match operation with
    | .exist locator => ("exists", [("locator", .string locator)])
    | .getXml locator => ("get_xml", [("locator", .string locator)])
    | .getText locator => ("get_text", [("locator", .string locator)])
    | .getAllXml locator => ("get_all_xml", [("locator", .string locator)])
    | .getAllText locator => ("get_all_text", [("locator", .string locator)])
    | .getAttributes locator => ("get_attributes", [("locator", .string locator)])
    | .getStructured locator fields =>
      ("get_structured", [("locator", .string locator), ("fields", .array (fields.map .string))])
    | .getAttribute locator name => ("get_attribute", [("locator", .string locator), ("name", .string name)])
    | .getWithAttribute locator name value =>
      ("get_with_attribute",
        [("locator", .string locator), ("name", .string name), ("value", (value.map .string).getD .null)])
    | .addNode parent xml => ("add_node", [("parent", .string parent), ("xml", .string xml)])
    | .editText locator text => ("edit_text", [("locator", .string locator), ("text", .string text)])
    | .rename locator name => ("rename", [("locator", .string locator), ("name", .string name)])
    | .addAttribute locator name value =>
      ("add_attribute", [("locator", .string locator), ("name", .string name), ("value", .string value)])
    | .removeAttribute locator name => ("remove_attribute", [("locator", .string locator), ("name", .string name)])
    | .delete locator => ("delete", [("locator", .string locator)])
  .object (("op", .string op) :: arguments)

/-- the names of the arguments of an operation, in order -/
def parameters? : String → Option (List String)
  | "get_structured" => some ["locator", "fields"]
  | "get_attribute" => some ["locator", "name"]
  | "get_with_attribute" => some ["locator", "name", "value"]
  | "add_node" => some ["parent", "xml"]
  | "edit_text" => some ["locator", "text"]
  | "rename" => some ["locator", "name"]
  | "add_attribute" => some ["locator", "name", "value"]
  | "remove_attribute" => some ["locator", "name"]
  | "exists" => some ["locator"]
  | "get_xml" => some ["locator"]
  | "get_text" => some ["locator"]
  | "get_all_xml" => some ["locator"]
  | "get_all_text" => some ["locator"]
  | "get_attributes" => some ["locator"]
  | "delete" => some ["locator"]
  | _ => none

/-- the text that an argument is -/
def textOf? (argument : Option Json) : Option String :=
  argument.bind Json.string?

/-- the text that an argument is, if it is neither missing nor null -/
def optionalTextOf? : Option Json → Option (Option String)
  | none => some none
  | some .null => some none
  | some (.string value) => some (some value)
  | some _ => none

/-- the texts of an argument that is a list -/
def textsOf? : Option Json → Option (List String)
  | some (.array items) => items.mapM Json.string?
  | _ => none

/-- the operation of a name with its arguments in order -/
def ofArguments? (op : String) (arguments : List (Option Json)) : Option NodeOperation := do
  match op, arguments with
  | "exists", [locator] => return .exist (← textOf? locator)
  | "get_xml", [locator] => return .getXml (← textOf? locator)
  | "get_text", [locator] => return .getText (← textOf? locator)
  | "get_all_xml", [locator] => return .getAllXml (← textOf? locator)
  | "get_all_text", [locator] => return .getAllText (← textOf? locator)
  | "get_attributes", [locator] => return .getAttributes (← textOf? locator)
  | "get_structured", [locator, fields] => return .getStructured (← textOf? locator) (← textsOf? fields)
  | "get_attribute", [locator, name] => return .getAttribute (← textOf? locator) (← textOf? name)
  | "get_with_attribute", [locator, name, value] =>
    return .getWithAttribute (← textOf? locator) (← textOf? name) (← optionalTextOf? value)
  | "add_node", [parent, xml] => return .addNode (← textOf? parent) (← textOf? xml)
  | "edit_text", [locator, text] => return .editText (← textOf? locator) (← textOf? text)
  | "rename", [locator, name] => return .rename (← textOf? locator) (← textOf? name)
  | "add_attribute", [locator, name, value] =>
    return .addAttribute (← textOf? locator) (← textOf? name) (← textOf? value)
  | "remove_attribute", [locator, name] => return .removeAttribute (← textOf? locator) (← textOf? name)
  | "delete", [locator] => return .delete (← textOf? locator)
  | _, _ => none

/-- the argument of a name, which may be missing but not given twice -/
def argument? (members : List (String × Json)) (name : String) : Option (Option Json) :=
  match members.filter (·.1 = name) with
  | [] => some none
  | [(_, value)] => some (some value)
  | _ => none

def ofJson? : Json → Option NodeOperation
  | .object members => do
    let op ← textOf? (Json.member? members "op")
    let names ← parameters? op
    let arguments ← names.mapM (argument? members)
    ofArguments? op arguments
  | .array (.string op :: arguments) => ofArguments? op (arguments.map some)
  | _ => none

end NodeOperation

def Target.ofText (text : String) : Target :=
  .ofRead (Locator.parse text)

/-- an operation that answers with what `output` makes of its outcome -/
def answering {α : Type} (output : α → Output) (request : Request (Outcome α)) : Request (Outcome Output) :=
  request.map fun outcome => outcome.map output

def execute (config : Config) (id : UInt64) (operation : NodeOperation) (now : UInt64) : Request (Outcome Output) :=
  match operation with
  | .exist locator => (nodeExists id (.ofText locator)).map fun found => .ok (.bool found)
  | .getXml locator => answering .text (getNodeXml id (.ofText locator))
  | .getText locator => answering .text (getNodeText id (.ofText locator))
  | .getAllXml locator => answering .list (getAllXml id (.ofText locator))
  | .getAllText locator => answering .list (getAllTexts id (.ofText locator))
  | .getAttributes locator => answering .attributes (getAttributes id (.ofText locator))
  | .getStructured locator fields => answering .records (getRecords id (.ofText locator) fields)
  | .getAttribute locator name => answering .value (getAttribute id (.ofText locator) name)
  | .getWithAttribute locator name value => answering .list (getNodesCarrying id (.ofText locator) name value)
  | .addNode parent xml => answering .bool (addNode config id (.ofText parent) xml now)
  | .editText locator text => answering .bool (editText config id (.ofText locator) text now)
  | .rename locator name => answering .bool (editName config id (.ofText locator) name now)
  | .addAttribute locator name value => answering .bool (addAttribute config id (.ofText locator) name value now)
  | .removeAttribute locator name => answering .bool (removeAttribute config id (.ofText locator) name now)
  | .delete locator => answering .bool (deleteNode config id (.ofText locator) now)

end XmlStore.Service

/-
Reading the attributes of a tag.

What follows the name in a tag is read character by character: a key, an equals sign with or without blanks around it, and a
value in quotes of either kind, then the next key. Each attribute is checked in full before the next one is read, in this
order: the equals sign, a repeated key, the quotes, the key as a name, the references of the value, its characters.
-/
import XmlStore.Xml.Error
import XmlStore.Xml.Forest

namespace XmlStore.Xml

open Text

def isMarkupBlank (c : Char) : Bool :=
  c == ' ' || c == '\t' || c == '\r' || c == '\n'

/-- what is being read in a tag; texts under way are kept with the last character first -/
inductive TagSpot where
  /-- before a key -/
  | gap
  /-- a key that began at `start` -/
  | key (start : Nat) (name : List Char)
  /-- blanks after a key -/
  | keyEnd (start : Nat) (name : List Char)
  /-- after the equals sign -/
  | equals (name : String)
  /-- inside the quotes -/
  | value (name : String) (quote : Char) (text : List Char)
  deriving DecidableEq, Repr

/-- how far a tag has been read -/
structure TagReader where
  /-- bytes read, with the name of the tag -/
  position : Nat
  /-- the keys so far and where they began -/
  seen : List (String × Nat)
  attributes : Attributes
  spot : TagSpot
  deriving DecidableEq, Repr

namespace TagReader

/-- a fault in the list of attributes of `element` -/
def fail {α : Type} (element : String) (fault : AttributeFault) : Except XmlError α :=
  .error (.malformed (.badAttribute element fault) 0)

/-- an attribute with its key and the text between its quotes -/
def readAttribute (element key : String) (raw : List Char) : Except XmlError (String × String) := do
  checkName key
  let value ← (resolve raw).mapError fun fault => .malformed (.badValue key element fault) 0
  checkChars .attributeValue value
  return (key, String.ofList value)

/-- the equals sign after a key -/
def endKey (element : String) (r : TagReader) (start : Nat) (name : List Char) : Except XmlError TagReader :=
  let key := String.ofList name.reverse
  match r.seen.lookup key with
  | some previous => fail element (.duplicated start previous)
  | none => .ok { r with seen := r.seen ++ [(key, start)], spot := .equals key }

/-- what one more character changes but for the position -/
def turn (element : String) (r : TagReader) (c : Char) : Except XmlError TagReader :=
  match r.spot with
  | .gap => if isMarkupBlank c then .ok r else .ok { r with spot := .key r.position [c] }
  | .key start name =>
    if c = '=' then endKey element r start name
    else if isMarkupBlank c then .ok { r with spot := .keyEnd start name }
    else .ok { r with spot := .key start (c :: name) }
  | .keyEnd start name =>
    if isMarkupBlank c then .ok r
    else if c = '=' then endKey element r start name
    else fail element (.expectedEquals r.position)
  | .equals name =>
    if isMarkupBlank c then .ok r
    else if c = '"' ∨ c = '\'' then .ok { r with spot := .value name c [] }
    else fail element (.unquotedValue r.position)
  | .value name quote text =>
    if c = quote then
      (readAttribute element name text.reverse).map fun attribute' =>
        { r with attributes := r.attributes ++ [attribute'], spot := .gap }
    else .ok { r with spot := .value name quote (c :: text) }

def step (element : String) (r : TagReader) (c : Char) : Except XmlError TagReader :=
  (turn element r c).map fun r => { r with position := r.position + c.utf8Size }

/-- the attributes at the end of the tag, where none may be under way -/
def finish (element : String) (r : TagReader) : Except XmlError Attributes :=
  match r.spot with
  | .gap => .ok r.attributes
  | .key .. => fail element (.expectedEquals r.position)
  | .keyEnd .. => fail element (.expectedEquals r.position)
  | .equals _ => fail element (.expectedValue r.position)
  | .value _ quote _ => fail element (.unclosedValue r.position quote)

end TagReader

/-- the attributes in what follows the name of a tag, once the name has been checked -/
def readAttributes (element : String) (rest : List Char) : Except XmlError Attributes := do
  checkName element
  let r ← rest.foldlM (TagReader.step element) ⟨byteSize element.toList, [], [], .gap⟩
  r.finish element

end XmlStore.Xml

/-
Putting a forest together from events.

An assembly holds the siblings finished so far at the place that it has come to, and the elements open around that place. It
checks what the scanner does not: names, attributes, references, characters, and that a document has no text outside its root.
-/
import XmlStore.Text.Basic
import XmlStore.Xml.Scanner

namespace XmlStore.Xml

open Text

/-- what a text may be -/
inductive Shape where
  /-- one root element, and comments around it -/
  | document
  /-- any nodes, with at least one element among the outermost -/
  | fragment
  deriving DecidableEq, Repr

/-- an element that is open, with the siblings before it -/
structure OpenElement where
  name : String
  attributes : Attributes
  before : Forest Unit
  deriving DecidableEq, Repr

/-- a forest in the making -/
structure Assembly where
  /-- what is finished inside the innermost open element -/
  here : Forest Unit
  /-- the open elements, innermost first -/
  around : List OpenElement
  deriving DecidableEq, Repr

namespace Assembly

def initial : Assembly := ⟨.nil, []⟩

/-- puts nodes after those that are finished here -/
def add (a : Assembly) (nodes : Forest Unit) : Assembly :=
  { a with here := a.here.append nodes }

/-- refuses text that would stand outside the root of a document -/
def checkInside (shape : Shape) (a : Assembly) : Except XmlError Unit :=
  if a.around = [] ∧ shape = .document then .error .textOutsideRoot else .ok ()

/-- adds text between tags, unless there are only blanks in it -/
def addText (shape : Shape) (a : Assembly) (raw : List Char) : Except XmlError Assembly := do
  let value ← (resolve raw).mapError fun fault => .malformed (.badReference fault) 0
  checkChars .text value
  if value.all isBlank then return a
  checkInside shape a
  return a.add (.leaf () .text (String.ofList value) .nil)

def feed (shape : Shape) (a : Assembly) : Event → Except XmlError Assembly
  | .startTag name rest => do
    let attributes ← readAttributes name rest
    return ⟨.nil, ⟨name, attributes, a.here⟩ :: a.around⟩
  | .emptyTag name rest => do
    let attributes ← readAttributes name rest
    return a.add (.element () name attributes .nil .nil)
  | .endTag name =>
    match a.around with
    | [] => .error (.unexpectedEndTag name)
    | outer :: around => .ok ⟨outer.before.append (.element () outer.name outer.attributes a.here .nil), around⟩
  | .text raw => a.addText shape raw
  | .cdata value => do
    checkInside shape a
    checkChars .cdata value
    return a.add (.leaf () .cdata (String.ofList value) .nil)
  | .comment value => do
    checkChars .comment value
    return a.add (.leaf () .comment (String.ofList value) .nil)
  | .skipped => .ok a

/-- the forest, once nothing is open -/
def finish (a : Assembly) : Except XmlError (Forest Unit) :=
  if a.around = [] then .ok a.here
  else .error (.unclosedElements (a.around.map OpenElement.name).reverse)

end Assembly

end XmlStore.Xml

/-
Editing a document, node by node.

An edit names its node by number and works the same whether the node is attached or has been taken out. It checks the new name
or text first and then that the node is an element; one that is refused changes nothing.
-/
import XmlStore.Xml.Document

namespace XmlStore.Xml.Document

/-- the document with every node kept where it is and both parts changed alike -/
def mapForests (d : Document) (change : Forest Nat → Forest Nat) : Document :=
  { d with attached := change d.attached, detached := change d.detached }

def requireElement (d : Document) (id : Nat) : Except XmlError (Element Nat) :=
  match d.element? id with
  | some e => .ok e
  | none => .error .notAnElement

def modify (d : Document) (id : Nat) (change : Element Nat → Element Nat) : Document :=
  d.mapForests (·.modify id change)

def rename (d : Document) (id : Nat) (name : String) : Except XmlError Document := do
  checkName name
  let _ ← d.requireElement id
  return d.modify id fun e => { e with name }

/-- sets an attribute, in its place if it is there and at the end if not -/
def setAttribute (d : Document) (id : Nat) (name value : String) : Except XmlError Document := do
  checkName name
  checkChars .attributeValue value.toList
  let _ ← d.requireElement id
  return d.modify id fun e => { e with attributes := e.attributes.set name value }

/-- removes an attribute and tells whether it was there -/
def removeAttribute (d : Document) (id : Nat) (name : String) : Except XmlError (Document × Bool) := do
  let e ← d.requireElement id
  return (d.modify id fun e => { e with attributes := e.attributes.remove name },
    e.attributes.any (·.1 == name))

/-- adds nodes after those in an element, with the next free numbers -/
def appendNodes (d : Document) (id : Nat) (nodes : Forest Unit) : Document :=
  { d.modify id fun e => { e with children := e.children.append (nodes.number d.next) } with
    next := d.next + nodes.size }

/-- adds the content of a document after what is in an element, and tells the numbers of its outermost nodes -/
def appendFragment (d : Document) (id : Nat) (fragment : Document) : Except XmlError (Document × List Nat) := do
  let _ ← d.requireElement id
  let nodes := fragment.attached.erase
  return (d.appendNodes id nodes, (nodes.number d.next).siblings.map Node.mark)

/-- takes a node out from where it is, with what is below it, and tells whether it was below anything -/
def detach (d : Document) (id : Nat) : Document × Bool :=
  match d.parent? id with
  | none => (d, false)
  | some _ =>
    ({ d with
        attached := d.attached.remove id
        detached := (d.detached.remove id).append (d.subtree id) }, true)

/-- makes a text the first text directly in an element: in place of the one that is there, or after everything in it if there
is none; the empty text takes that one out -/
def setText (d : Document) (id : Nat) (text : String) : Except XmlError Document := do
  checkChars .text text.toList
  let e ← d.requireElement id
  match e.children.firstText?, text.isEmpty with
  | some old, true => return (d.detach old).1
  | some old, false => return d.mapForests (·.setLeaf old text)
  | none, true => return d
  | none, false => return d.appendNodes id (.leaf () .text text .nil)

end XmlStore.Xml.Document

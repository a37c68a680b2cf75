/-
Documents: content in which every node has a number.

Number 0 is the document itself, the others are given in document order when the content is read and upwards from there when
nodes are added later. A node that has been taken out keeps its number, and so does everything below it; it belongs to the
document still, but no longer to its text, and no number is given twice.
-/
import XmlStore.Xml.Printer
import XmlStore.Xml.Reader

namespace XmlStore.Xml

/-- content with numbered nodes -/
structure Document where
  /-- what the document consists of -/
  attached : Forest Nat
  /-- the nodes that were taken out, each with what is below it -/
  detached : Forest Nat
  /-- the number that the next new node gets -/
  next : Nat
  deriving DecidableEq, Repr

namespace Document

/-- the number of the document itself -/
def top : Nat := 0

/-- a document with the given content, numbered from 1 on -/
def ofForest (f : Forest Unit) : Document :=
  ⟨f.number 1, .nil, f.size + 1⟩

/-- the document that a text stands for, with one root element -/
def parse (text : String) : Except XmlError Document :=
  (readForest .document text).map ofForest

/-- the document that a text stands for, where the outermost nodes may be any with an element among them -/
def parseFragment (text : String) : Except XmlError Document :=
  (readForest .fragment text).map ofForest

/-- the node with a number, other than the document itself -/
def find? (d : Document) (id : Nat) : Option (Node Nat) :=
  (d.attached.find? id).or (d.detached.find? id)

def element? (d : Document) (id : Nat) : Option (Element Nat) :=
  (d.find? id).bind Node.element?

/-- what is below a number -/
def children (d : Document) (id : Nat) : Forest Nat :=
  if id = top then d.attached else ((d.find? id).map Node.children).getD .nil

/-- the number above a number, if there is one -/
def parent? (d : Document) (id : Nat) : Option Nat :=
  (d.attached.parent? id (some top)).or (d.detached.parent? id none)

/-- the first element among the outermost nodes -/
def root? (d : Document) : Option (Element Nat) :=
  d.attached.elements.head?

/-- the node with a number as a forest, which is the whole content for the document itself -/
def subtree (d : Document) (id : Nat) : Forest Nat :=
  if id = top then d.attached else ((d.find? id).map Node.toForest).getD .nil

/-- the string value: text and CDATA at and below a number -/
def text (d : Document) (id : Nat) : String :=
  (d.subtree id).text

def nodeXml (d : Document) (id : Nat) : String :=
  (d.subtree id).xml

def xml (d : Document) : String :=
  d.attached.xml

def prettyXml (d : Document) (indent : Nat) : String :=
  d.attached.prettyXml indent

end Document

end XmlStore.Xml

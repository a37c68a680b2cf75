/-
Finding the elements that a locator picks out.

From every node that has been reached, a segment goes to groups of elements: the children of that node, or those of every node
at and below it, one group for each parent. Within a group it applies the name test and then the predicates in order, so that a
position counts among the children of one parent. What all groups leave together is put in document order, each element once.
-/
import XmlStore.Locator.Basic
import XmlStore.Xml.Document

namespace XmlStore.Xml

variable {ι : Type}

/-- what a predicate leaves of a group -/
def applyPredicate (group : List (Element ι)) : Predicate → List (Element ι)
  | .position 0 => []
  | .position (place + 1) => (group[place]?).toList
  | .hasAttribute name => group.filter fun e => (e.attributes.get? name).isSome
  | .attributeEquals name literal =>
    group.filter fun e => e.attributes.get? name == some (Predicate.literalValue literal)

/-- what a segment leaves of a group -/
def applySegment (segment : Segment) (group : List (Element ι)) : List (Element ι) :=
  segment.predicates.foldl applyPredicate (group.filter fun e => segment.matchesName e.name)

/-- the groups that an axis leads to from a node, given by what is below it -/
def groups (below : Forest ι) : Axis → List (List (Element ι))
  | .child => [below.elements]
  | .descendant => below.elements :: below.allElements.map fun e => e.children.elements

/-- what a segment reaches from a node, given by what is below it -/
def stepFrom (segment : Segment) (below : Forest ι) : List (Element ι) :=
  (groups below segment.axis).flatMap (applySegment segment)

namespace Document

/-- the elements in document order, and after them those that are no longer attached in the order of their numbers -/
def orderedElements (d : Document) : List (Element Nat) :=
  d.attached.allElements ++ d.detached.allElements.mergeSort (·.mark ≤ ·.mark)

/-- the given elements in document order, each once -/
def inOrder (d : Document) (found : List (Element Nat)) : List (Element Nat) :=
  d.orderedElements.filter fun e => found.any (·.mark == e.mark)

/-- what a segment reaches from any of the nodes, given by what is below them -/
def advance (d : Document) (segment : Segment) (reached : List (Forest Nat)) : List (Element Nat) :=
  d.inOrder (reached.flatMap (stepFrom segment))

/-- what segments reach one after the other -/
def walk (d : Document) (reached : List (Forest Nat)) : List Segment → List (Element Nat)
  | [] => []
  | [segment] => d.advance segment reached
  | segment :: rest => d.walk ((d.advance segment reached).map Element.children) rest

/-- the elements that a locator picks out from a context; one that is not relative starts at the document -/
def selectFrom (d : Document) (context : Nat) (locator : Locator) : List (Element Nat) :=
  d.walk [if locator.relative then d.children context else d.attached] locator.segments

def select (d : Document) (locator : Locator) : List (Element Nat) :=
  d.selectFrom top locator

end Document

end XmlStore.Xml

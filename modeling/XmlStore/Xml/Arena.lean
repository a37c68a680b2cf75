/-
Nodes in a row, which refer to each other by number.

The number of a node is its place in the row. A node keeps the number of the one above it, and the numbers of those directly below it:
every link is kept at both of its ends, and an edit has to see to both. A node that is taken out keeps its place; only the link between
it and the node above goes.

The nodes below a node are found by its links, and nothing in the row itself says that this comes to an end. So whatever follows links
downwards is told how far to go: a loop by its rounds, a recursion by its levels. As many as there are nodes are enough of both.
-/
import XmlStore.Locator.Basic
import XmlStore.Xml.Document

namespace XmlStore.Xml

inductive NodeKind where
  | document
  | element (name : String) (attributes : Attributes)
  | leaf (kind : LeafKind) (value : String)
  deriving DecidableEq, Repr

/-- what a node holds, and the nodes that it is linked with -/
structure NodeData where
  kind : NodeKind
  parent : Option Nat
  /-- in their order -/
  children : List Nat
  deriving DecidableEq, Repr

structure Arena where
  nodes : List NodeData
  deriving DecidableEq, Repr

namespace Arena

open Document (top)

/-- a document with nothing in it -/
def empty : Arena := ⟨[⟨.document, none, []⟩]⟩

/-! ## Navigation -/

/-- the node with a number; under a number that was not given nothing is linked -/
def node (a : Arena) (id : Nat) : NodeData :=
  a.nodes.getD id ⟨.document, none, []⟩

def kind (a : Arena) (id : Nat) : NodeKind :=
  (a.node id).kind

def parent? (a : Arena) (id : Nat) : Option Nat :=
  (a.node id).parent

def children (a : Arena) (id : Nat) : List Nat :=
  (a.node id).children

def name? (a : Arena) (id : Nat) : Option String :=
  match a.kind id with
  | .element name _ => some name
  | _ => none

/-- the attributes of an element; other nodes have none -/
def attributes (a : Arena) (id : Nat) : Attributes :=
  match a.kind id with
  | .element _ attributes => attributes
  | _ => []

def isElement (a : Arena) (id : Nat) : Bool :=
  (a.name? id).isSome

/-- whether a node is a text or CDATA -/
def isText (a : Arena) (id : Nat) : Bool :=
  match a.kind id with
  | .leaf kind _ => kind.isText
  | _ => false

def childElements (a : Arena) (id : Nat) : List Nat :=
  (a.children id).filter a.isElement

/-- the first element among the outermost nodes -/
def root? (a : Arena) : Option Nat :=
  (a.children top).find? a.isElement

/-! ## What is below a node -/

/-- a node is taken from those that are waiting, and the nodes below it are put before the others, until none is waiting any more; there
is no outcome if some are after so many rounds -/
def traverse (a : Arena) : (rounds : Nat) → (waiting : List Nat) → Option (List Nat)
  | _, [] => some []
  | 0, _ :: _ => none
  | rounds + 1, id :: waiting => (a.traverse rounds (a.children id ++ waiting)).map (id :: ·)

/-- a node and all that is below it, each before those below it -/
def selfAndDescendants (a : Arena) (id : Nat) : List Nat :=
  (a.traverse a.nodes.length [id]).getD []

/-- the rank of what is not attached: the highest number of a word -/
def unranked : Nat := UInt64.size - 1

/-- the rank of every node in document order -/
def documentOrder (a : Arena) : List Nat :=
  (a.selfAndDescendants top).zipIdx.foldl (fun order (id, rank) => order.set id rank)
    (List.replicate a.nodes.length unranked)

/-- nodes beside each other with what is below them, down to so many levels -/
def forest (a : Arena) : (levels : Nat) → List Nat → Forest Nat
  | 0, _ => .nil
  | levels + 1, ids =>
    ids.foldr (fun id next =>
      match a.kind id with
      | .document => next
      | .leaf kind value => .leaf id kind value next
      | .element name attributes => .element id name attributes (a.forest levels (a.children id)) next) .nil

/-- a node with what is below it, or what is below the document -/
def subtree (a : Arena) (id : Nat) : Forest Nat :=
  match a.kind id with
  | .document => a.forest a.nodes.length (a.children id)
  | _ => a.forest a.nodes.length [id]

/-- the string value: text and CDATA at and below a node -/
def text (a : Arena) (id : Nat) : String :=
  (a.subtree id).text

def nodeXml (a : Arena) (id : Nat) : String :=
  (a.subtree id).xml

def xml (a : Arena) : String :=
  a.nodeXml top

def prettyXml (a : Arena) (indent : Nat) : String :=
  (a.subtree top).prettyXml indent

/-! ## Edits -/

def setKind (a : Arena) (id : Nat) (kind : NodeKind) : Arena :=
  ⟨a.nodes.modify id fun n => { n with kind }⟩

def setParent (a : Arena) (id : Nat) (parent : Option Nat) : Arena :=
  ⟨a.nodes.modify id fun n => { n with parent }⟩

def setChildren (a : Arena) (id : Nat) (children : List Nat) : Arena :=
  ⟨a.nodes.modify id fun n => { n with children }⟩

/-- adds a node below another one, after those that are there, and tells its number -/
def pushChild (a : Arena) (parent : Nat) (kind : NodeKind) : Nat × Arena :=
  let id := a.nodes.length
  let a : Arena := ⟨a.nodes ++ [⟨kind, some parent, []⟩]⟩
  (id, a.setChildren parent (a.children parent ++ [id]))

/-- the name and the attributes of an element, or a refusal -/
def requireElement (a : Arena) (id : Nat) : Except XmlError (String × Attributes) :=
  match a.kind id with
  | .element name attributes => .ok (name, attributes)
  | _ => .error .notAnElement

def rename (a : Arena) (id : Nat) (name : String) : Except XmlError Unit × Arena :=
  match checkName name with
  | .error e => (.error e, a)
  | .ok _ =>
    match a.requireElement id with
    | .error e => (.error e, a)
    | .ok (_, attributes) => (.ok (), a.setKind id (.element name attributes))

/-- makes a text the first text directly in an element: in place of the one that is there, or after everything in it if there
is none; the empty text takes that one out -/
def setText (a : Arena) (id : Nat) (text : String) : Except XmlError Unit × Arena :=
  match checkChars .text text.toList with
  | .error e => (.error e, a)
  | .ok _ =>
    match a.requireElement id with
    | .error e => (.error e, a)
    | .ok _ =>
      let children := a.children id
      match children.findIdx? a.isText, text.isEmpty with
      | some place, true =>
        let child := children.getD place top
        (.ok (), (a.setChildren id (children.eraseIdx place)).setParent child none)
      | some place, false => (.ok (), a.setKind (children.getD place top) (.leaf .text text))
      | none, true => (.ok (), a)
      | none, false => (.ok (), (a.pushChild id (.leaf .text text)).2)

/-- sets an attribute, in its place if it is there and at the end if not -/
def setAttribute (a : Arena) (id : Nat) (name value : String) : Except XmlError Unit × Arena :=
  match checkName name with
  | .error e => (.error e, a)
  | .ok _ =>
    match checkChars .attributeValue value.toList with
    | .error e => (.error e, a)
    | .ok _ =>
      match a.requireElement id with
      | .error e => (.error e, a)
      | .ok (element, attributes) => (.ok (), a.setKind id (.element element (attributes.set name value)))

/-- removes an attribute and tells whether it was there -/
def removeAttribute (a : Arena) (id : Nat) (name : String) : Except XmlError Bool × Arena :=
  match a.requireElement id with
  | .error e => (.error e, a)
  | .ok (element, attributes) =>
    let rest := attributes.remove name
    (.ok (decide (rest.length ≠ attributes.length)), a.setKind id (.element element rest))

/-- copies a node of an arena, with what is below it down to so many levels, below a node of another one, and tells the number of the
copy -/
def copySubtree (source : Arena) : (levels : Nat) → (a : Arena) → (parent node : Nat) → Nat × Arena
  | 0, a, parent, node => a.pushChild parent (source.kind node)
  | levels + 1, a, parent, node =>
    let (copy, a) := a.pushChild parent (source.kind node)
    (copy, (source.children node).foldl (fun a child => (source.copySubtree levels a copy child).2) a)

/-- adds the content of an arena after what is in an element, and tells the numbers of its outermost nodes -/
def appendFragment (a : Arena) (parent : Nat) (fragment : Arena) : Except XmlError (List Nat) × Arena :=
  match a.requireElement parent with
  | .error e => (.error e, a)
  | .ok _ =>
    let (added, a) := (fragment.children top).foldl (fun (added, a) node =>
      let (copy, a) := fragment.copySubtree fragment.nodes.length a parent node
      (added ++ [copy], a)) (([] : List Nat), a)
    (.ok added, a)

/-- takes a node out from where it is, and tells whether it was there -/
def detach (a : Arena) (id : Nat) : Bool × Arena :=
  match a.parent? id with
  | none => (false, a)
  | some parent =>
    let siblings := a.children parent
    let others := siblings.filter (· ≠ id)
    let a := a.setChildren parent others
    if others.length ≠ siblings.length then (true, a.setParent id none) else (false, a)

/-! ## Selection -/

/-- what a predicate leaves of a group -/
def applyPredicate (a : Arena) (group : List Nat) : Predicate → List Nat
  | .position 0 => []
  | .position (place + 1) => (group[place]?).toList
  | .hasAttribute name => group.filter fun id => ((a.attributes id).get? name).isSome
  | .attributeEquals name literal =>
    group.filter fun id => (a.attributes id).get? name == some (Predicate.literalValue literal)

/-- what a segment leaves of the elements directly below a node -/
def step (a : Arena) (segment : Segment) (parent : Nat) : List Nat :=
  segment.predicates.foldl a.applyPredicate
    ((a.childElements parent).filter fun id => (a.name? id).any segment.matchesName)

/-- the nodes whose children an axis leads to -/
def parents (a : Arena) (id : Nat) : Axis → List Nat
  | .child => [id]
  | .descendant => a.selfAndDescendants id

/-- a list without what is the same as the item before it -/
def squeeze : List Nat → List Nat
  | [] => []
  | [id] => [id]
  | id :: next :: rest => if id = next then squeeze (next :: rest) else id :: squeeze (next :: rest)

/-- whether a node may stand before another one: by their ranks, and by their numbers if these are the same -/
def mayPrecede (order : List Nat) (id other : Nat) : Bool :=
  let rank := order.getD id unranked
  let otherRank := order.getD other unranked
  rank < otherRank || (rank == otherRank && id ≤ other)

/-- what a segment reaches from any of the nodes: in order, and each once -/
def advance (a : Arena) (order : List Nat) (current : List Nat) (segment : Segment) : List Nat :=
  squeeze ((current.flatMap fun id => (a.parents id segment.axis).flatMap (a.step segment)).mergeSort (mayPrecede order))

/-- the elements that a locator picks out from a context; one that is not relative starts at the document -/
def selectFrom (a : Arena) (context : Nat) (locator : Locator) : List Nat :=
  if locator.segments.isEmpty then []
  else locator.segments.foldl (a.advance a.documentOrder) [if locator.relative then context else top]

/-- the elements that a locator picks out from the document -/
def select (a : Arena) (locator : Locator) : List Nat :=
  a.selectFrom top locator

end Arena

end XmlStore.Xml

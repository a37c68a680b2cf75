/-
XML content as a tree of nodes.

A forest is a sequence of sibling nodes together with all that is below them: its first node, the nodes below that one, and
the siblings after it. Only elements have anything below them. Every node carries a mark of some type, which is its number
once it belongs to a document and nothing before.
-/

namespace XmlStore.Xml

/-- the kinds of nodes that hold characters -/
inductive LeafKind where
  | text
  | cdata
  | comment
  deriving DecidableEq, Repr, Inhabited

/-- attributes in the order in which they are written -/
abbrev Attributes := List (String × String)

/-- sibling nodes with everything below them -/
inductive Forest (ι : Type) where
  | nil
  | leaf (mark : ι) (kind : LeafKind) (value : String) (next : Forest ι)
  | element (mark : ι) (name : String) (attributes : Attributes) (children : Forest ι) (next : Forest ι)
  deriving DecidableEq, Repr, Inhabited

/-- an element, seen by itself -/
structure Element (ι : Type) where
  mark : ι
  name : String
  attributes : Attributes
  children : Forest ι
  deriving DecidableEq, Repr, Inhabited

/-- a node, seen by itself -/
inductive Node (ι : Type) where
  | leaf (mark : ι) (kind : LeafKind) (value : String)
  | element (element : Element ι)
  deriving DecidableEq, Repr, Inhabited

/-- whether the characters of such a node belong to the text around them -/
def LeafKind.isText : LeafKind → Bool
  | .comment => false
  | _ => true

def Attributes.get? (attributes : Attributes) (name : String) : Option String :=
  attributes.lookup name

/-- the attributes with one value set: in its place if the name is there, else at the end -/
def Attributes.set (name value : String) : Attributes → Attributes
  | [] => [(name, value)]
  | (key, old) :: rest => if key = name then (key, value) :: rest else (key, old) :: Attributes.set name value rest

def Attributes.remove (attributes : Attributes) (name : String) : Attributes :=
  attributes.filter (·.1 ≠ name)

variable {ι κ : Type}

def Node.mark : Node ι → ι
  | .leaf mark _ _ => mark
  | .element e => e.mark

def Node.children : Node ι → Forest ι
  | .leaf .. => .nil
  | .element e => e.children

def Node.element? : Node ι → Option (Element ι)
  | .leaf .. => none
  | .element e => some e

/-- a node alone, without siblings -/
def Node.toForest : Node ι → Forest ι
  | .leaf mark kind value => .leaf mark kind value .nil
  | .element e => .element e.mark e.name e.attributes e.children .nil

/-- an element alone, without siblings -/
def Element.toForest (e : Element ι) : Forest ι :=
  (Node.element e).toForest

namespace Forest

def append : Forest ι → Forest ι → Forest ι
  | .nil, after => after
  | .leaf mark kind value next, after => .leaf mark kind value (next.append after)
  | .element mark name attributes children next, after => .element mark name attributes children (next.append after)

def siblings : Forest ι → List (Node ι)
  | .nil => []
  | .leaf mark kind value next => .leaf mark kind value :: next.siblings
  | .element mark name attributes children next => .element ⟨mark, name, attributes, children⟩ :: next.siblings

def elements (f : Forest ι) : List (Element ι) :=
  f.siblings.filterMap Node.element?

/-- every node in document order: each before what is below it, and that before the next sibling -/
def nodes : Forest ι → List (Node ι)
  | .nil => []
  | .leaf mark kind value next => .leaf mark kind value :: next.nodes
  | .element mark name attributes children next =>
    .element ⟨mark, name, attributes, children⟩ :: (children.nodes ++ next.nodes)

/-- every element in document order -/
def allElements (f : Forest ι) : List (Element ι) :=
  f.nodes.filterMap Node.element?

def marks (f : Forest ι) : List ι :=
  f.nodes.map Node.mark

def size : Forest ι → Nat
  | .nil => 0
  | .leaf _ _ _ next => next.size + 1
  | .element _ _ _ children next => children.size + next.size + 1

/-- the text and CDATA in a forest, joined in document order -/
def text : Forest ι → String
  | .nil => ""
  | .leaf _ kind value next => if kind.isText then value ++ next.text else next.text
  | .element _ _ _ children next => children.text ++ next.text

/-- whether there is text or CDATA among the siblings -/
def hasText : Forest ι → Bool
  | .nil => false
  | .leaf _ kind _ next => kind.isText || next.hasText
  | .element _ _ _ _ next => next.hasText

/-- the mark of the first text or CDATA among the siblings -/
def firstText? : Forest ι → Option ι
  | .nil => none
  | .leaf mark kind _ next => if kind.isText then some mark else next.firstText?
  | .element _ _ _ _ next => next.firstText?

/-- the content without its marks -/
def erase : Forest ι → Forest Unit
  | .nil => .nil
  | .leaf _ kind value next => .leaf () kind value next.erase
  | .element _ name attributes children next => .element () name attributes children.erase next.erase

/-- numbers the nodes in document order from `first` on -/
def number (first : Nat) : Forest ι → Forest Nat
  | .nil => .nil
  | .leaf _ kind value next => .leaf first kind value (next.number (first + 1))
  | .element _ name attributes children next =>
    .element first name attributes (children.number (first + 1)) (next.number (first + 1 + children.size))

section Marked

variable [DecidableEq ι]

def find? (mark : ι) : Forest ι → Option (Node ι)
  | .nil => none
  | .leaf i kind value next => if i = mark then some (.leaf i kind value) else next.find? mark
  | .element i name attributes children next =>
    if i = mark then some (.element ⟨i, name, attributes, children⟩)
    else (children.find? mark).or (next.find? mark)

/-- the mark of the node above a marked one, where `above` is that of the siblings themselves -/
def parent? (mark : ι) (above : Option ι) : Forest ι → Option ι
  | .nil => none
  | .leaf i _ _ next => if i = mark then above else next.parent? mark above
  | .element i _ _ children next =>
    if i = mark then above
    else (children.parent? mark (some i)).or (next.parent? mark above)

/-- the forest without a marked node and what is below it -/
def remove (mark : ι) : Forest ι → Forest ι
  | .nil => .nil
  | .leaf i kind value next => if i = mark then next else .leaf i kind value (next.remove mark)
  | .element i name attributes children next =>
    if i = mark then next else .element i name attributes (children.remove mark) (next.remove mark)

/-- the forest with a marked element changed -/
def modify (mark : ι) (change : Element ι → Element ι) : Forest ι → Forest ι
  | .nil => .nil
  | .leaf i kind value next => .leaf i kind value (next.modify mark change)
  | .element i name attributes children next =>
    if i = mark then
      let e := change ⟨i, name, attributes, children⟩
      .element i e.name e.attributes e.children next
    else .element i name attributes (children.modify mark change) (next.modify mark change)

/-- the forest with a marked leaf made a text of the given value -/
def setLeaf (mark : ι) (value : String) : Forest ι → Forest ι
  | .nil => .nil
  | .leaf i kind old next => if i = mark then .leaf i .text value next else .leaf i kind old (next.setLeaf mark value)
  | .element i name attributes children next =>
    .element i name attributes (children.setLeaf mark value) (next.setLeaf mark value)

end Marked

end Forest

end XmlStore.Xml
